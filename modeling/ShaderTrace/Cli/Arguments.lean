/-!
# Command lines

How the arguments of the command line are read: options of the program before a command, then the command with its own
options and its kernel. What an option is given is checked when the next argument is understood, so that the first fault
from the left counts.
-/

namespace ShaderTrace.Cli

inductive Command where
  | list
  | ast
  | glsl
  | manifest
deriving DecidableEq, Repr

inductive Switch where
  | types
  | dot
  | compact
  | width
  | color
  | output
  | glslVersion
  | verbose
  | help
deriving DecidableEq, Repr

/-- Why a command line is not understood, or that help was asked for. -/
inductive UsageError where
  | helpRequested
  | nothingGiven
  | missingCommand
  | unknownCommand
  | missingKernel
  | unknownArgument
  | invalidValue
  | invalidNumber
  | repeatedOption
  | unneededValue
deriving DecidableEq, Repr

/-- When a dump is coloured. -/
inductive ColorChoice where
  | auto
  | always
  | never
deriving DecidableEq, Repr

/-- What the arguments of a command say. -/
structure Settings where
  kernel : Option String := none
  types : Bool := false
  dot : Bool := false
  compact : Bool := false
  width : Option Int32 := none
  color : Option ColorChoice := none
  output : Option String := none
  glslVersion : Option UInt32 := none
  verbosity : Nat := 0
deriving DecidableEq

namespace Command

def all : List Command := [list, ast, glsl, manifest]

def name : Command → String
  | list => "list"
  | ast => "ast"
  | glsl => "glsl"
  | manifest => "manifest"

def ofName? (name : String) : Option Command := all.find? (·.name == name)

/-- The command works on a kernel. -/
def takesKernel : Command → Bool
  | list => false
  | _ => true

/-- The options of a command. -/
def switches : Command → List Switch
  | list => [.verbose, .help]
  | ast => [.types, .dot, .width, .color, .verbose, .help]
  | glsl => [.output, .glslVersion, .width, .verbose, .help]
  | manifest => [.compact, .width, .verbose, .help]

end Command

namespace Switch

/-- The name after two hyphens. -/
def long : Switch → String
  | types => "types"
  | dot => "dot"
  | compact => "compact"
  | width => "width"
  | color => "color"
  | output => "output"
  | glslVersion => "glsl-version"
  | verbose => "verbose"
  | help => "help"

/-- The letter after one hyphen. -/
def short : Switch → Option Char
  | output => some 'o'
  | verbose => some 'v'
  | help => some 'h'
  | _ => none

def takesValue : Switch → Bool
  | width | color | output | glslVersion => true
  | _ => false

end Switch

/-- Reads decimal digits, at least one. -/
def readDigits? (cs : List Char) : Option Nat :=
  if !cs.isEmpty && cs.all (fun c => '0' ≤ c && c ≤ '9') then
    some (cs.foldl (fun n c => 10 * n + (c.toNat - '0'.toNat)) 0)
  else none

/-- Reads an optional sign and decimal digits. -/
def readInteger? (cs : List Char) : Option Int :=
  match cs with
  | '-' :: digits => (readDigits? digits).map fun n => -(n : Int)
  | '+' :: digits => (readDigits? digits).map Int.ofNat
  | digits => (readDigits? digits).map Int.ofNat

/-- Reads an integer between two bounds. -/
def readBetween (low high : Int) (value : String) : Except UsageError Int :=
  match readInteger? value.toList with
  | some n => if low ≤ n ∧ n ≤ high then .ok n else .error .invalidNumber
  | none => .error .invalidNumber

def readColor (value : String) : Except UsageError ColorChoice :=
  match value with
  | "auto" => .ok .auto
  | "always" => .ok .always
  | "never" => .ok .never
  | _ => .error .invalidValue

/-- Sets an option that has not been set. -/
def setOnce {α : Type} (old : Option α) (value : Except UsageError α) : Except UsageError (Option α) :=
  if old.isSome then .error .repeatedOption else value.map some

/-- Raises a flag that has not been raised. -/
def raiseOnce (old : Bool) : Except UsageError Bool :=
  if old then .error .repeatedOption else .ok true

namespace Settings

/-- Gives an option its value. -/
def give (settings : Settings) (switch : Switch) (value : String) : Except UsageError Settings := do
  match switch with
  | .width =>
    let width ← setOnce settings.width ((readBetween 1 Int32.maxValue.toInt value).map Int32.ofInt)
    return { settings with width }
  | .glslVersion =>
    let glslVersion ←
      setOnce settings.glslVersion ((readBetween 330 (UInt32.size - 1) value).map fun n => UInt32.ofNat n.toNat)
    return { settings with glslVersion }
  | .color => return { settings with color := ← setOnce settings.color (readColor value) }
  | .output =>
    let output ← setOnce settings.output (if value.isEmpty then .error .invalidValue else .ok value)
    return { settings with output }
  | _ => .error .unneededValue

/-- Raises a flag. Only `verbose` may be given more than once. -/
def raise (settings : Settings) (switch : Switch) : Except UsageError Settings := do
  match switch with
  | .types => return { settings with types := ← raiseOnce settings.types }
  | .dot => return { settings with dot := ← raiseOnce settings.dot }
  | .compact => return { settings with compact := ← raiseOnce settings.compact }
  | .verbose => return { settings with verbosity := settings.verbosity + 1 }
  | .help => .error .helpRequested
  | _ => .error .invalidValue

end Settings

/-- A command line read so far. An option that takes a value stays open until its value is checked. -/
structure Reading where
  settings : Settings := {}
  opened : Option (Switch × Option String) := none

namespace Reading

/-- Checks the value of the open option. -/
def settle (reading : Reading) : Except UsageError Settings :=
  match reading.opened with
  | none => .ok reading.settings
  | some (_, none) => .error .invalidValue
  | some (switch, some value) => reading.settings.give switch value

/-- An option with the value that is written together with it, if there is one. -/
def takeSwitch (reading : Reading) (switch : Switch) (value : Option String) : Except UsageError Reading := do
  match switch.takesValue, value with
  | true, some value => return { settings := ← (← reading.settle).give switch value }
  | true, none => return { settings := ← reading.settle, opened := some (switch, none) }
  | false, some _ => .error .unneededValue
  | false, none => return { settings := ← (← reading.settle).raise switch }

/-- Letters after one hyphen: flags, and at most one option, whose value is the rest. -/
def takeLetters (command : Command) (reading : Reading) : List Char → Except UsageError Reading
  | [] => .ok reading
  | letter :: rest =>
    match command.switches.find? (·.short == some letter) with
    | none => .error .unknownArgument
    | some switch =>
      if switch.takesValue then
        match rest with
        | [] => reading.takeSwitch switch none
        | '=' :: value => reading.takeSwitch switch (some (String.ofList value))
        | value => reading.takeSwitch switch (some (String.ofList value))
      else do takeLetters command (← reading.takeSwitch switch none) rest

/-- A name after two hyphens, and a value after an equals sign. -/
def takeLong (command : Command) (reading : Reading) (cs : List Char) : Except UsageError Reading :=
  let name := String.ofList (cs.takeWhile (· != '='))
  let value := match cs.dropWhile (· != '=') with
    | _ :: value => some (String.ofList value)
    | [] => none
  match command.switches.find? (·.long == name) with
  | none => .error .unknownArgument
  | some switch => reading.takeSwitch switch value

/-- An argument that is no option: the kernel, of which there is at most one. -/
def takeKernel (command : Command) (reading : Reading) (argument : String) : Except UsageError Reading := do
  if !command.takesKernel || reading.settings.kernel.isSome then .error .unknownArgument
  else return { settings := { (← reading.settle) with kernel := some argument } }

/-- An argument before `--`. -/
def take (command : Command) (reading : Reading) (argument : String) : Except UsageError Reading :=
  match argument.toList with
  | '-' :: '-' :: cs => reading.takeLong command cs
  | '-' :: c :: cs => reading.takeLetters command (c :: cs)
  | _ =>
    match reading.opened with
    | some (switch, none) => .ok { reading with opened := some (switch, some argument) }
    | _ => reading.takeKernel command argument

end Reading

/-- Reads the arguments of a command. After `--` no argument is an option. -/
def readArguments (command : Command) : (optionsEnded : Bool) → Reading → List String → Except UsageError Settings
  | _, reading, [] => do
    let settings ← reading.settle
    if command.takesKernel && settings.kernel.isNone then .error .missingKernel else return settings
  | true, reading, argument :: rest => do
    readArguments command true (← reading.takeKernel command argument) rest
  | false, reading, argument :: rest =>
    if argument = "--" then readArguments command true reading rest
    else do readArguments command false (← reading.take command argument) rest

/-- Letters after one hyphen before a command. -/
def readProgramLetters : (verbosity : Nat) → List Char → Except UsageError Nat
  | verbosity, [] => .ok verbosity
  | verbosity, 'v' :: rest => readProgramLetters (verbosity + 1) rest
  | _, 'h' :: _ => .error .helpRequested
  | _, _ => .error .unknownArgument

/-- A name after two hyphens before a command. -/
def readProgramLong (verbosity : Nat) (cs : List Char) : Except UsageError Nat :=
  let name := String.ofList (cs.takeWhile (· != '='))
  if name ≠ "verbose" ∧ name ≠ "help" then .error .unknownArgument
  else if cs.contains '=' then .error .unneededValue
  else if name = "help" then .error .helpRequested
  else .ok (verbosity + 1)

/-- Help on the program, or on one command. -/
def helpOn : List String → UsageError
  | [] => .helpRequested
  | [name] => if name = "help" || (Command.ofName? name).isSome then .helpRequested else .unknownCommand
  | _ => .unknownCommand

/-- What is wrong with arguments that begin with `--`: no command is recognised after it. -/
def afterOptions (verbosity : Nat) : List String → UsageError
  | [] => if verbosity = 0 then .nothingGiven else .missingCommand
  | argument :: _ =>
    if argument = "help" || (Command.ofName? argument).isSome then .unknownArgument else .unknownCommand

/-- Reads what comes before a command, the command and its arguments. The count of `verbose` before the command counts if
there is none after it. -/
def readCommandLine : (verbosity : Nat) → List String → Except UsageError (Command × Settings)
  | verbosity, [] => .error (if verbosity = 0 then .nothingGiven else .missingCommand)
  | verbosity, argument :: rest =>
    match Command.ofName? argument with
    | some command => do
      let settings ← readArguments command false {} rest
      return (command, { settings with verbosity := if settings.verbosity = 0 then verbosity else settings.verbosity })
    | none =>
      if argument = "help" then .error (helpOn rest)
      else
        match argument.toList with
        | ['-', '-'] => .error (afterOptions verbosity rest)
        | '-' :: '-' :: cs => do readCommandLine (← readProgramLong verbosity cs) rest
        | '-' :: c :: cs => do readCommandLine (← readProgramLetters verbosity (c :: cs)) rest
        | _ => .error .unknownCommand

end ShaderTrace.Cli
