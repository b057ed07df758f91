import ShaderTrace.Arena.Dump
import ShaderTrace.Glsl.Shader
import ShaderTrace.Script.Run

/-!
# Compiling a kernel

From a recording to a program: the recording must end without an error and with all its blocks closed, and the tree it
leaves must have a shader.
-/

namespace ShaderTrace

inductive CompileError where
  | trace (error : TraceError)
  | generate (error : GenerateError)
deriving DecidableEq

def CompileError.message : CompileError → String
  | trace error => "trace failed: " ++ error.message
  | generate error => "code generation failed: " ++ error.message

namespace Source

/-- The program of a finished recording. -/
def generate (source : Source) (config : Glsl.Config) : Except GenerateError Program :=
  Glsl.generate config source.arena Session.root

/-- The tree of a finished recording as text. -/
def dump (source : Source) (style : DumpStyle) : Except ArenaError String :=
  source.arena.dump style Session.root

/-- The tree of a finished recording in one of the forms. -/
def print (source : Source) (form : DumpForm) (style : DumpStyle) : Except ArenaError String :=
  source.arena.print form style Session.root

end Source

/-- Records a kernel from the beginning and ends the recording. -/
def Recorder.trace {α : Type} (kernel : Recorder α) : Except TraceError Source :=
  match kernel.run Session.start with
  | .ok _ session => session.finish
  | .error error _ => .error error

/-- Compiles what a session has recorded after a kernel ended, with an error or without. -/
def Session.compile (session : Session) (ended : Option TraceError) (config : Glsl.Config) :
    Except CompileError Program := do
  let source ← match ended with
    | some error => throw (.trace error)
    | none => (session.finish.mapError .trace)
  (source.generate config).mapError .generate

/-- Compiles a kernel. -/
def Recorder.compile {α : Type} (kernel : Recorder α) (config : Glsl.Config) : Except CompileError Program :=
  match kernel.run Session.start with
  | .ok _ session => session.compile none config
  | .error error session => session.compile (some error) config

/-- Compiles a script: its steps run until an error ends them. -/
def Script.compile (steps : List Script.Step) (config : Glsl.Config) :
    List Script.Entry × Except CompileError Program :=
  let (entries, ended, machine) := Script.runAll steps .start
  (entries, machine.session.compile ended config)

end ShaderTrace
