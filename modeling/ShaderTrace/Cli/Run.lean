import ShaderTrace.Cli.Arguments
import ShaderTrace.Kernel
import ShaderTrace.Manifest

/-!
# Commands

What each command answers: a text to print, or a file to write.
-/

namespace ShaderTrace.Cli

inductive Output where
  | print (text : String)
  | write (path content : String)

/-- Why a command fails. -/
inductive CommandError where
  | unknownKernel (name : String)
  | compile (error : CompileError)
  /-- A file could not be written. -/
  | write (path reason : String)

def CommandError.message : CommandError → String
  | unknownKernel name => s!"unknown kernel `{name}` (run `tessel list` for the bundled kernels)"
  | compile error => error.message
  | write path reason => s!"cannot write {path}: {reason}"

/-- How much is logged for a count of `verbose`. -/
def logLevel : (verbosity : Nat) → String
  | 0 => "warn"
  | 1 => "debug"
  | _ => "trace"

/-- Whether a dump is coloured; by itself only on a terminal. -/
def ColorChoice.colours (choice : ColorChoice) (terminal : Bool) : Bool :=
  match choice with
  | auto => terminal
  | always => true
  | never => false

/-- The text with spaces after it up to the given length. -/
def padRight (length : Nat) (text : String) : String :=
  text ++ String.ofList (List.replicate (length - text.length) ' ')

/-- One line for each bundled kernel. -/
def listing (kernels : List Kernel) : String :=
  let width := kernels.foldl (fun width kernel => max width kernel.name.length) 0
  s!"Bundled kernels ({kernels.length}):\n"
    ++ String.join (kernels.map fun kernel => "  " ++ padRight width kernel.name ++ "  " ++ kernel.description ++ "\n")

/-- The source of the kernel that a command works on. -/
def sourceOf (settings : Settings) : Except CommandError Source := do
  let name := settings.kernel.getD ""
  match Kernel.find? name with
  | none => throw (.unknownKernel name)
  | some kernel => (Recorder.trace (kernel.build (settings.width.getD 8))).mapError fun e => .compile (.trace e)

/-- The program of the kernel that a command works on. -/
def programOf (settings : Settings) (config : Glsl.Config) : Except CommandError Program := do
  let source ← sourceOf settings
  (source.generate config).mapError fun e => .compile (.generate e)

/-- The tree of a kernel, as a graph or as text. -/
def astText (settings : Settings) (terminal : Bool) : Except CommandError String := do
  let source ← sourceOf settings
  let form := if settings.dot then .graph else .lines
  let coloured := (settings.color.getD .auto).colours terminal
  (source.print form { types := settings.types, coloured }).mapError fun e => .compile (.trace (.arena e))

/-- Carries out a command. -/
def perform (command : Command) (settings : Settings) (terminal : Bool) : Except CommandError Output := do
  match command with
  | .list => return .print (listing Kernel.bundled)
  | .ast => return .print (← astText settings terminal)
  | .glsl =>
    let program ← programOf settings { version := ((settings.glslVersion.map (·.toNat)).getD 330) }
    match settings.output with
    | some path => return .write path program.source
    | none => return .print program.source
  | .manifest =>
    let program ← programOf settings {}
    return .print ((if settings.compact then program.data.compact else program.data.pretty 0) ++ "\n")

end ShaderTrace.Cli
