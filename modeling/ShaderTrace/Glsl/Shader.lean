import ShaderTrace.Glsl.Statement
import ShaderTrace.Program

/-!
# Shaders

A program tree becomes a fragment shader: its inputs are uniforms, its outputs are numbered targets, and its main section
is the body of `main`. The shader is first a term and then a text, and only the text depends on the configuration.
-/

namespace ShaderTrace.Glsl

structure Config where
  /-- The number after `#version`. -/
  version : Nat := 330
  /-- The number of spaces a level is indented by. -/
  indent : Nat := 4

/-- An input or an output. -/
structure Declaration where
  symbol : SymbolId
  name : String
  ident : String
  type : ValueType
  /-- The type as the shader spells it. -/
  spelling : String

structure Shader where
  usesDispatchSize : Bool
  inputs : List Declaration
  outputs : List Declaration
  body : List Stmt

/-- The sections of a program that have been found. -/
structure Sections where
  inputs : Option Tree := none
  outputs : Option Tree := none
  main : Option Tree := none

/-- Adds a section; nothing else may stand under a program, and no section twice. -/
def Sections.add (sections : Sections) (tree : Tree) : Except GenerateError Sections :=
  let duplicate : GenerateError := .duplicateSection tree.id tree.kind
  match tree.kind with
  | .constData => if sections.inputs.isSome then .error duplicate else .ok { sections with inputs := some tree }
  | .outData => if sections.outputs.isSome then .error duplicate else .ok { sections with outputs := some tree }
  | .main => if sections.main.isSome then .error duplicate else .ok { sections with main := some tree }
  | _ => .error (tree.unexpected .programSection)

/-- The sections of a program. -/
def sectionsOf (root : Tree) : Except GenerateError Sections :=
  if root.kind = .program then root.children.foldlM Sections.add {}
  else .error (.notAProgram root.id root.kind)

/-- The spelling of the type of an input: any type but void. -/
def inputSpelling (name : String) (type : ValueType) : Except GenerateError String :=
  match typeName? type with
  | some spelling => if type.isVoid then .error (.invalidInputType name type) else .ok spelling
  | none => .error (.invalidInputType name type)

/-- The spelling of the type of an output: neither a buffer nor a boolean. -/
def outputSpelling (name : String) (type : ValueType) : Except GenerateError String :=
  match typeName? type with
  | some spelling =>
    if type.isBuffer ∨ type = .bool then .error (.invalidOutputType name type) else .ok spelling
  | none => .error (.invalidOutputType name type)

/-- Reads one declaration. Neither its symbol nor its spelling may be taken. -/
def declaration (kind : NodeKind) (place : Place) (spelling : String → ValueType → Except GenerateError String)
    (globals : Globals) (tree : Tree) : Except GenerateError Declaration := do
  if tree.kind ≠ kind then throw (tree.unexpected place)
  let symbol ← tree.symbolOf
  let name ← match tree.head.name with
    | some name => pure name
    | none => throw (.missingName tree.id)
  let spelling ← spelling name tree.type
  let ident := identFor name
  if globals.any fun taken => taken.1 == symbol || taken.2 == ident then throw (.duplicateName ident)
  return { symbol, name, ident, type := tree.type, spelling }

/-- Reads the declarations of a section, after the inputs and outputs that `globals` holds. -/
def declarations (kind : NodeKind) (place : Place) (spelling : String → ValueType → Except GenerateError String) :
    Globals → List Tree → Except GenerateError (List Declaration)
  | _, [] => .ok []
  | globals, tree :: trees => do
    let first ← declaration kind place spelling globals tree
    let rest ← declarations kind place spelling (globals ++ [(first.symbol, first.ident)]) trees
    return first :: rest

def globalsOf (declarations : List Declaration) : Globals := declarations.map fun d => (d.symbol, d.ident)

/-- The node needs the extent of the computation. -/
def needsDispatchSize (tree : Tree) : Bool :=
  match tree.kind with
  | .normalizedIndex => true
  | .function => (tree.children.head?.bind (·.head.literal?)) == some (.int Builtin.normalizedIndex.id)
  | _ => false

/-- What a section holds; a section that is not there holds nothing. -/
def childrenOf (section? : Option Tree) : List Tree := (section?.map (·.children)).getD []

/-- The shader of a program tree. -/
def shaderOf (root : Tree) : Except GenerateError Shader := do
  let sections ← sectionsOf root
  let main ← match sections.main with
    | some main => pure main
    | none => throw .missingMain
  let inputs ← declarations .constVar .inputDeclaration inputSpelling [] (childrenOf sections.inputs)
  let outputs ←
    declarations .outVar .outputDeclaration outputSpelling (globalsOf inputs) (childrenOf sections.outputs)
  let scope := Scope.outermost (globalsOf inputs ++ globalsOf outputs) (inputs.map (·.symbol))
  let body ← statements scope none main.children
  return { usesDispatchSize := main.any needsDispatchSize, inputs, outputs, body }

/-- Lines after a blank line, or nothing if there are none. -/
def group (lines : List String) : String :=
  if lines.isEmpty then "" else "\n" ++ String.join (lines.map (· ++ "\n"))

/-- The text without the blanks at its end, and one newline. -/
def endLine (text : String) : String :=
  String.ofList (text.toList.reverse.dropWhile Char.isWhitespace).reverse ++ "\n"

namespace Shader

def uniformLines (shader : Shader) : List String :=
  (if shader.usesDispatchSize then ["uniform ivec2 " ++ dispatchSize ++ ";"] else [])
    ++ shader.inputs.map fun d => "uniform " ++ d.spelling ++ " " ++ d.ident ++ ";"

def targetLines (shader : Shader) : List String :=
  shader.outputs.zipIdx.map fun (d, location) =>
    "layout(location = " ++ toString location ++ ") out " ++ d.spelling ++ " " ++ d.ident ++ ";"

def text (config : Config) (shader : Shader) : String :=
  endLine ("#version " ++ toString config.version ++ "\n" ++ group shader.uniformLines ++ group shader.targetLines
    ++ "\nvoid main()\n" ++ String.join ((braced 0 (Stmt.linesAll 1 shader.body)).map (Line.render config.indent)))

def program (config : Config) (shader : Shader) : Program where
  source := shader.text config
  inputs := shader.inputs.zipIdx.map fun (d, slot) => { name := d.name, ident := d.ident, type := d.type, slot }
  outputs := shader.outputs.zipIdx.map fun (d, location) => { name := d.name, ident := d.ident, type := d.type, location }

end Shader

/-- The program of the tree below a node. -/
def generate (config : Config) (arena : Arena) (root : NodeId) : Except GenerateError Program := do
  let tree ← match arena.tree root with
    | .ok tree => pure tree
    | .error error => throw (.noTree error)
  let shader ← shaderOf tree
  return shader.program config

end ShaderTrace.Glsl
