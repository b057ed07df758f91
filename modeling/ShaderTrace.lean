import ShaderTrace.Arena.Basic
import ShaderTrace.Arena.Dump
import ShaderTrace.Arena.Tree
import ShaderTrace.Arena.Walk
import ShaderTrace.Binary32
import ShaderTrace.Builtin
import ShaderTrace.Decimal
import ShaderTrace.Glsl.Error
import ShaderTrace.Glsl.Expr
import ShaderTrace.Glsl.Expression
import ShaderTrace.Glsl.Naming
import ShaderTrace.Glsl.Scope
import ShaderTrace.Glsl.Shader
import ShaderTrace.Glsl.Statement
import ShaderTrace.Glsl.Stmt
import ShaderTrace.Identifier
import ShaderTrace.Literal
import ShaderTrace.Node.Basic
import ShaderTrace.Node.Kind
import ShaderTrace.Operator
import ShaderTrace.Paint
import ShaderTrace.Program
import ShaderTrace.ValueType
import ShaderTrace.Worklist
import ShaderTrace.Handle
import ShaderTrace.Typing
import ShaderTrace.Recorder.Control
import ShaderTrace.Compile
import ShaderTrace.Arena.Edit
import ShaderTrace.Cli.Arguments
import ShaderTrace.Cli.Run
import ShaderTrace.Main
import ShaderTrace.Proofs.Ownership
import ShaderTrace.Proofs.Unfolding
import ShaderTrace.Proofs.Copying
import ShaderTrace.Proofs.Signatures
import ShaderTrace.Proofs.Reference.Recorder
import ShaderTrace.Proofs.Reference.Script
import ShaderTrace.Proofs.Refinement.Stack
import ShaderTrace.Proofs.Refinement.Building
import ShaderTrace.Proofs.Refinement.Recorder
import ShaderTrace.Proofs.Refinement.Script
import ShaderTrace.Proofs.Recording.Judgements
import ShaderTrace.Proofs.Recording.Session
import ShaderTrace.Proofs.Recording.Recorder
import ShaderTrace.Proofs.Recording.Script
import ShaderTrace.Proofs.Recording.Program
import ShaderTrace.Proofs.Generator.Naming
import ShaderTrace.Proofs.Generator.Expressions
import ShaderTrace.Proofs.Generator.Statements
import ShaderTrace.Proofs.Generator.Sections
import ShaderTrace.Proofs.Generator.Acceptance
import ShaderTrace.Proofs.Generator.Failures
import ShaderTrace.Proofs.Execution.Semantics
import ShaderTrace.Proofs.Execution.Expressions
import ShaderTrace.Proofs.Execution.Placement
import ShaderTrace.Proofs.Execution.Simulation
import ShaderTrace.Proofs.Forest
import ShaderTrace.Proofs.Heads
import ShaderTrace.Proofs.Recording.Typing
import ShaderTrace.Proofs.Symbols.Recorder
import ShaderTrace.Proofs.Symbols.Script
import ShaderTrace.Proofs.Text.Rows
import ShaderTrace.Proofs.Text.Scoping
import ShaderTrace.Proofs.Blocks.Outcomes
import ShaderTrace.Proofs.Blocks.Reached
import ShaderTrace.Proofs.Blocks.Nesting
import ShaderTrace.Proofs.Blocks.Balance
import ShaderTrace.Proofs.Blocks.Refusal
import ShaderTrace.Proofs.Text.Tokens
import ShaderTrace.Proofs.Text.Grammar
import ShaderTrace.Proofs.Text.Written
import ShaderTrace.Proofs.Text.ReadBack
import ShaderTrace.Proofs.Blocks.Control
import ShaderTrace.Proofs.Generator.Numbering
import ShaderTrace.Proofs.Listing
import ShaderTrace.Proofs.Generator.Capture
import ShaderTrace.Proofs.Refinement.Unused
import ShaderTrace.Proofs.Text.Manifest
import ShaderTrace.Proofs.Text.Mentions
import ShaderTrace.Proofs.Text.Extent
import ShaderTrace.Proofs.Renaming.Recorder
import ShaderTrace.Proofs.Renaming.Script
import ShaderTrace.Proofs.Renaming.Generator
import ShaderTrace.Proofs.Renaming.Sections
import ShaderTrace.Proofs.Buffers.Copies
import ShaderTrace.Proofs.Buffers.Runs
import ShaderTrace.Proofs.Buffers.Text
import ShaderTrace.Proofs.Text.Initialised
import ShaderTrace.Proofs.Preorder
import ShaderTrace.Proofs.Generator.Recursion
import ShaderTrace.Proofs.Text.Layout
import ShaderTrace.Proofs.Blocks.Forms
import ShaderTrace.Proofs.Graph
import ShaderTrace.Proofs.Rounding
import ShaderTrace.Proofs.Text.Numerals
import ShaderTrace.Proofs.Text.Constants
import ShaderTrace.Proofs.Outline
import ShaderTrace.Proofs.Recording.Labels
import ShaderTrace.Proofs.Text.Inline
import ShaderTrace.Proofs.Text.Mirror
import ShaderTrace.Proofs.Attaching
import ShaderTrace.Proofs.Worklists
import ShaderTrace.Proofs.Generator.Descent
import ShaderTrace.Proofs.Colours
import ShaderTrace.Proofs.Text.Parentheses
import ShaderTrace.Proofs.Tags
import ShaderTrace.Proofs.Bytes
