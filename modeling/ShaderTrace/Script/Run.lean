import ShaderTrace.Script.Call

/-!
# Running a script

A step that is refused changes no register, and what the recorder did before it was refused stays done. An error ends the
bodies around it up to the first step that catches it; the blocks of those bodies stay open.
-/

namespace ShaderTrace.Script

namespace Machine

/-- Carries out an action, or refuses it if its registers were not found. -/
def act (machine : Machine) (action : Except StepError Action) : Except StepError Reply × Machine :=
  match action with
  | .error error => (.error error, machine)
  | .ok action =>
    match (action machine.registers).run machine.session with
    | .ok (reply, registers) session => (.ok reply, ⟨session, registers⟩)
    | .error error session => (.error (.trace error), { machine with session })

def entry (machine : Machine) (outcome : Except StepError Reply) (body : Option (List Entry)) : Entry :=
  .mk outcome (.of machine.session) body

/-- Closes the block that a body was recorded in. -/
def leave (machine : Machine) (block : OpenBlock) : Except StepError Reply × Machine :=
  machine.act (.ok (silent (Recorder.leave block)))

end Machine

/-- Runs something so many times, until an error ends it. -/
def iterate (body : Machine → Option TraceError × Machine) : (times : Nat) → Machine → Option TraceError × Machine
  | 0, machine => (none, machine)
  | times + 1, machine =>
    match body machine with
    | (some error, machine) => (some error, machine)
    | (none, machine) => iterate body times machine

/-- The error that a step leaves to the body it stands in. -/
def uncaught (caught : Bool) (outcome : Except StepError Reply) : Option TraceError :=
  match outcome with
  | .error error => if caught then none else error.ends?
  | .ok _ => none

mutual

/-- Runs one step: its record, the error that it leaves to the body it stands in, and the machine afterwards. -/
def Step.run : Step → Machine → Entry × Option TraceError × Machine
  | .call call result caught, machine =>
    let (outcome, machine) := machine.act (call.action result machine.registers)
    (machine.entry outcome none, uncaught caught outcome, machine)
  | .block opening result body caught, machine =>
    match machine.act (opening.action result machine.registers) with
    | (.error error, machine) => (machine.entry (.error error) (some []), uncaught caught (.error error), machine)
    | (.ok _, machine) =>
      let block := machine.session.current
      let (entries, ended, machine) := runAll body machine
      match ended with
      | some error =>
        let outcome := .error (.trace error)
        (machine.entry outcome (some entries), uncaught caught outcome, machine)
      | none =>
        let (outcome, machine) := machine.leave block
        (machine.entry outcome (some entries), uncaught caught outcome, machine)
  | .repeated times body caught, machine =>
    let (ended, machine) := iterate (fun machine => (runAll body machine).2) times machine
    let outcome := match ended with
      | some error => .error (.trace error)
      | none => .ok (.times times)
    (machine.entry outcome none, uncaught caught outcome, machine)

/-- Runs steps until an error ends them: the records of those that ran, and the error. -/
def runAll : List Step → Machine → List Entry × Option TraceError × Machine
  | [], machine => ([], none, machine)
  | step :: steps, machine =>
    match step.run machine with
    | (entry, some error, machine) => ([entry], some error, machine)
    | (entry, none, machine) =>
      let (entries, ended, machine) := runAll steps machine
      (entry :: entries, ended, machine)

end

/-- Runs every step, whatever became of those before it. -/
def runEvery : List Step → Machine → List Entry × Machine
  | [], machine => ([], machine)
  | step :: steps, machine =>
    let (entry, _, machine) := step.run machine
    let (entries, machine) := runEvery steps machine
    (entry :: entries, machine)

end ShaderTrace.Script
