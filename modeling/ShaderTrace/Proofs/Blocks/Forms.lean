import ShaderTrace.Proofs.Blocks.Balance

/-!
# Blocks by calls and blocks with a body

A branch or a loop can be recorded in two ways. By calls, one call begins the block, the steps of its body follow, and another call
closes it; an alternative closes the branch before it, which must be the innermost open block. With a body, the block is closed when
the body ends, and an alternative asks that the last statement is a branch. Since an open block is the last child of the one around
it, both ask the same (`proceed_link`). The main statement is `forms_record_alike`.
-/

namespace ShaderTrace.Blocks

open Script (Arg Call Opening Step StepError Machine)
open Symbols (Act performAll)

/-! ## The two forms -/

/-- The call that opens the same block and leaves it open. -/
def begins : Opening → Call
  | .enter kind => .enter kind
  | .ifThen condition => .beginIf condition
  | .elseIf condition => .beginElseIf condition
  | .otherwise => .beginElse
  | .whileDo condition => .beginWhile condition
  | .forRange name start stop => .beginFor name start stop

/-- A block with its body. -/
structure Part where
  opening : Opening
  result : Option String
  body : List Step

namespace Part

/-- The call that begins the block, and the body after it. -/
def calls (part : Part) : List Step := .call (begins part.opening) part.result false :: part.body

def block (part : Part) : Step := .block part.opening part.result part.body false

end Part

/-- A branch with its alternatives, a loop, or a block of another kind. -/
inductive Construct where
  /-- The last alternative, if there is one, has no condition. -/
  | branches (condition : Arg) (body : List Step) (alternatives : List (Arg × List Step)) (last : Option (List Step))
  | whileDo (condition : Arg) (body : List Step)
  | forRange (name : String) (start stop : Arg) (counter : Option String) (body : List Step)
  | enter (kind : NodeKind) (body : List Step)

namespace Construct

def parts : Construct → List Part
  | branches condition body alternatives last =>
    ⟨.ifThen condition, none, body⟩ ::
      (alternatives.map (fun alternative => ⟨.elseIf alternative.1, none, alternative.2⟩) ++
        (last.map fun body => ⟨.otherwise, none, body⟩).toList)
  | whileDo condition body => [⟨.whileDo condition, none, body⟩]
  | forRange name start stop counter body => [⟨.forRange name start stop, counter, body⟩]
  | enter kind body => [⟨.enter kind, none, body⟩]

/-- The construct by calls: each part is begun, and the last one is closed. -/
def calls (construct : Construct) : List Step := construct.parts.flatMap Part.calls ++ [.call .exit none false]

/-- The construct by steps that have the bodies with them. -/
def blocks (construct : Construct) : List Step := construct.parts.map Part.block

end Construct

/-! ## Runs without a refusal -/

/-- Where an action leads to, unless it is refused. -/
def proceed (machine : Machine) (action : Except StepError Script.Action) : Option Machine :=
  if (machine.act action).1.isOk then some (machine.act action).2 else none

/-- Where a body leads to, unless an error ends it or another block than at its beginning is the innermost one. -/
def proceedIn (body : List Step) (machine : Machine) : Option Machine :=
  if (Script.runAll body machine).2.1 = none ∧
      (Script.runAll body machine).2.2.session.current.id = machine.session.current.id then
    some (Script.runAll body machine).2.2
  else none

/-- Where the calls lead to, unless one of them is refused, or a body fails or does not leave its block innermost. -/
def afterCalls : List Part → Machine → Option Machine
  | [], machine => proceed machine (Call.exit.action none machine.registers)
  | part :: parts, machine => do
    let opened ← proceed machine ((begins part.opening).action part.result machine.registers)
    let ended ← proceedIn part.body opened
    afterCalls parts ended

/-- Where the steps with their bodies lead to, unless one of them is refused. -/
def afterBlocks : List Part → Machine → Option Machine
  | [], machine => some machine
  | part :: parts, machine =>
    if (outcomeOf (part.block.run machine).1).isOk then afterBlocks parts (part.block.run machine).2.2 else none

section Runs

variable {machine machine' : Machine}

/-- A machine goes on exactly if the action succeeds. -/
theorem proceed_eq_some_iff {action : Except StepError Script.Action} :
    proceed machine action = some machine' ↔ ∃ reply, machine.act action = (.ok reply, machine') := by
  rw [proceed]
  generalize machine.act action = answer
  obtain ⟨outcome, after⟩ := answer
  cases outcome with
  | error error => simp [Except.isOk, Except.toBool]
  | ok reply => simp [Except.isOk, Except.toBool]

/-- A machine goes on after a body exactly if the body ends in the block that it began in. -/
theorem proceedIn_eq_some_iff {body : List Step} : proceedIn body machine = some machine' ↔
    (Script.runAll body machine).2 = (none, machine') ∧ machine'.session.current.id = machine.session.current.id := by
  rw [proceedIn]
  generalize Script.runAll body machine = run
  obtain ⟨entries, ended, after⟩ := run
  simp only [Option.ite_none_right_eq_some, Option.some.injEq, Prod.mk.injEq]
  constructor
  · rintro ⟨⟨hended, hid⟩, rfl⟩
    exact ⟨⟨hended, rfl⟩, hid⟩
  · rintro ⟨⟨hended, rfl⟩, hid⟩
    exact ⟨⟨hended, hid⟩, rfl⟩

end Runs

/-! ## An alternative after its branch -/

section Links

variable {session : Session} {parent : OpenBlock} {outer : List OpenBlock}

/-- To look at the innermost open block changes nothing. -/
theorem current_eq (session : Session) : Recorder.current session = .ok session.current session := rfl

/-- The innermost block is closed if another one is open around it. -/
theorem exit_innermost (ho : session.outer = parent :: outer) :
    Recorder.exit session = .ok session.current.id { session with current := parent, outer } := by
  rw [Refinement.exit_eq, ho]

/-- A block is left if it is the innermost one and not the program. -/
theorem leave_innermost (ho : session.outer = parent :: outer) {block : OpenBlock} (hid : session.current.id = block.id) :
    Recorder.leave block session = .ok () { session with current := parent, outer } := by
  rw [Recorder.leave, bind_of_ok (current_eq session), if_neg (not_not.2 hid)]
  exact bind_of_ok (exit_innermost ho)

/-- A branch is closed by an alternative if it is the innermost block. -/
theorem closeLink_innermost (next : NodeKind) (ho : session.outer = parent :: outer)
    (hk : session.current.kind.isConditional = true) :
    Recorder.closeLink next session = .ok () { session with current := parent, outer } := by
  rw [Recorder.closeLink, bind_of_ok (current_eq session), hk]
  exact bind_of_ok (exit_innermost ho)

/-- An alternative may stand after a branch that is the last node of the open block. -/
theorem checkFollowsConditional_of_last (next : NodeKind) {node branch : Node} {id : NodeId}
    (hnode : session.arena.get? session.current.id = some node) (hlast : node.children.getLast? = some id)
    (hbranch : session.arena.get? id = some branch) (hk : branch.kind.isConditional = true) :
    Recorder.checkFollowsConditional next session = .ok () session := by
  unfold Recorder.checkFollowsConditional
  refine (bind_of_ok (current_eq session)).trans ?_
  refine (bind_of_ok (Refinement.find_eq hnode)).trans ?_
  rw [hlast]
  refine (bind_of_ok (Refinement.find_eq hbranch)).trans ?_
  show (if (!branch.kind.isConditional) = true then throw _ else pure () : Recorder Unit) session = _
  rw [hk]
  rfl

/-- A branch that has just been closed is the last statement of the block around it. -/
theorem checkFollowsConditional_closed (next : NodeKind) (h : Nested session) (ho : session.outer = parent :: outer)
    (hk : session.current.kind.isConditional = true) :
    Recorder.checkFollowsConditional next { session with current := parent, outer } =
      .ok () { session with current := parent, outer } := by
  have hparent := h.kindAt parent (by simp [openBlocks, ho])
  have hcurrent := h.kindAt session.current (by simp [openBlocks])
  have hlast := h.last
  rw [openBlocks, ho, List.isChain_cons_cons] at hlast
  obtain ⟨node, hnode, -⟩ := Option.map_eq_some_iff.1 hparent
  obtain ⟨branch, hbranch, hkind⟩ := Option.map_eq_some_iff.1 hcurrent
  have hchildren : node.children.getLast? = some session.current.id := by
    rw [← hlast.1, Arena.childrenOf, Arena.content?, hnode]
    rfl
  refine checkFollowsConditional_of_last next hnode hchildren hbranch ?_
  rw [hkind, hk]

/-- An alternative can be begun while its branch is open exactly if it can be once the branch has been closed. -/
theorem beginElseIf_iff (h : Nested session) (ho : session.outer = parent :: outer)
    (hk : session.current.kind.isConditional = true) (condition : Operand) (session' : Session) :
    (∃ u, Recorder.beginElseIf condition session = .ok u session') ↔
      ∃ u, Recorder.reopenElseIf condition { session with current := parent, outer } = .ok u session' := by
  unfold Recorder.beginElseIf Recorder.reopenElseIf
  cases hc : condition.isCondition with
  | false =>
    have hcheck : ∀ session, Recorder.checkCondition condition session = .error .illTyped session := by
      intro session
      rw [Recorder.checkCondition, hc]
      rfl
    rw [bind_of_error (hcheck _), bind_of_error (hcheck _)]
    constructor <;> rintro ⟨u, ⟨⟩⟩
  | true =>
    have hcheck : ∀ session, Recorder.checkCondition condition session = .ok () session := by
      intro session
      rw [Recorder.checkCondition, hc]
      rfl
    rw [bind_of_ok (hcheck _), bind_of_ok (hcheck _), bind_of_ok (closeLink_innermost _ ho hk),
      bind_of_ok (checkFollowsConditional_closed _ h ho hk)]

/-- An alternative that closes the branch before it does what an alternative after the closed branch does. -/
theorem beginElse_eq (h : Nested session) (ho : session.outer = parent :: outer)
    (hk : session.current.kind.isConditional = true) :
    Recorder.beginElse session = Recorder.reopenElse { session with current := parent, outer } := by
  unfold Recorder.beginElse Recorder.reopenElse
  rw [bind_of_ok (closeLink_innermost _ ho hk), bind_of_ok (checkFollowsConditional_closed _ h ho hk)]

/-- A branch is never the outermost block. -/
theorem exists_outer (h : Nested session) (hk : session.current.kind.isConditional = true) :
    ∃ parent outer, session.outer = parent :: outer := by
  cases ho : session.outer with
  | cons parent outer => exact ⟨parent, outer, rfl⟩
  | nil =>
    have hbottom := h.bottom
    rw [openBlocks, ho, List.getLast?_singleton, Option.some.injEq] at hbottom
    rw [hbottom] at hk
    cases hk

end Links

section Machines

variable {machine machine' : Machine}

/-- An action that sets no register. -/
theorem proceed_eq_some_iff_of_plain {α : Type} {x : Recorder α} {answer : α → Script.Reply} :
    proceed machine (.ok fun registers => do return (answer (← x), registers)) = some machine' ↔
      ∃ session, (∃ a, x machine.session = .ok a session) ∧ machine' = { machine with session } := by
  rw [proceed_eq_some_iff]
  simp only [Machine.act, EStateM.run]
  cases hx : x machine.session with
  | error error session =>
    rw [bind_of_error hx]
    constructor
    · rintro ⟨reply, ⟨⟩⟩
    · rintro ⟨session, ⟨a, ⟨⟩⟩, -⟩
  | ok a session =>
    rw [bind_of_ok hx]
    constructor
    · rintro ⟨reply, ⟨⟩⟩
      exact ⟨session, ⟨a, rfl⟩, rfl⟩
    · rintro ⟨session, ⟨a, ⟨⟩⟩, rfl⟩
      exact ⟨answer a, rfl⟩

/-- Actions that succeed alike lead to the same machine, whatever they answer. -/
theorem proceed_congr {α β : Type} {x : Recorder α} {y : Recorder β} (answer : α → Script.Reply) (answer' : β → Script.Reply)
    (hr : machine'.registers = machine.registers)
    (h : ∀ session, (∃ a, x machine.session = .ok a session) ↔ ∃ b, y machine'.session = .ok b session) :
    proceed machine (.ok fun registers => do return (answer (← x), registers)) =
      proceed machine' (.ok fun registers => do return (answer' (← y), registers)) := by
  refine Option.ext fun after => ?_
  rw [proceed_eq_some_iff_of_plain, proceed_eq_some_iff_of_plain, hr]
  simp only [h]

/-- An action succeeds alike if its answer is dropped. -/
theorem exists_ok_iff {α : Type} {x : Recorder α} {session session' : Session} :
    (∃ a, x session = .ok a session') ↔ ∃ u, (x >>= fun _ => pure ()) session = .ok u session' := by
  cases hx : x session with
  | error error after =>
    rw [bind_of_error hx]
    constructor <;> rintro ⟨a, ⟨⟩⟩
  | ok a after =>
    rw [bind_of_ok hx]
    constructor <;> rintro ⟨a, ⟨⟩⟩ <;> exact ⟨_, rfl⟩

/-- The innermost block is left in the same way by a call. -/
theorem proceed_exit {block : OpenBlock} (hid : machine.session.current.id = block.id) :
    proceed machine (Call.exit.action none machine.registers) =
      proceed machine (.ok (Script.silent (Recorder.leave block))) := by
  refine proceed_congr Script.Reply.node (fun _ => .done) rfl fun session => ?_
  rw [Recorder.leave, bind_of_ok (current_eq _), if_neg (not_not.2 hid)]
  exact exists_ok_iff

/-- A section or a block of its own is opened in the same way by a call. -/
theorem proceed_enter (kind : NodeKind) (result : Option String) :
    proceed machine ((Call.enter kind).action result machine.registers) =
      proceed machine ((Opening.enter kind).action result machine.registers) :=
  proceed_congr Script.Reply.node (fun _ => .done) rfl fun _ => exists_ok_iff

/-- What comes after a branch and belongs to it. -/
def isLink : Opening → Bool
  | .elseIf _ | .otherwise => true
  | _ => false

/-- To begin an alternative is to leave its branch and to open the alternative after it. -/
theorem proceed_link (h : Nested machine.session) (hk : machine.session.current.kind.isConditional = true) {block : OpenBlock}
    (hid : machine.session.current.id = block.id) {opening : Opening} (hl : isLink opening = true) (result : Option String) :
    proceed machine ((begins opening).action result machine.registers) =
      (proceed machine (.ok (Script.silent (Recorder.leave block)))).bind fun closed =>
        proceed closed (opening.action result closed.registers) := by
  obtain ⟨parent, outer, ho⟩ := exists_outer h hk
  have hleave : proceed machine (.ok (Script.silent (Recorder.leave block))) =
      some { machine with session := { machine.session with current := parent, outer } } :=
    (proceed_eq_some_iff_of_plain).2 ⟨_, ⟨(), leave_innermost ho hid⟩, rfl⟩
  rw [hleave, Option.bind_some]
  cases opening with
  | elseIf condition =>
    show proceed machine (machine.registers.operand condition >>= fun operand =>
        pure (Script.silent (Recorder.beginElseIf operand))) =
      proceed _ (machine.registers.operand condition >>= fun operand =>
        pure (Script.silent (Recorder.reopenElseIf operand)))
    cases machine.registers.operand condition with
    | error error => rfl
    | ok operand => exact proceed_congr (fun _ => .done) (fun _ => .done) rfl (beginElseIf_iff h ho hk operand)
  | otherwise =>
    refine proceed_congr (fun _ => .done) (fun _ => .done) rfl fun session => ?_
    rw [beginElse_eq h ho hk]
  | _ => cases hl

/-- What is no alternative is opened in the same way by a call. -/
theorem proceed_begins {opening : Opening} (hl : isLink opening = false) (result : Option String) :
    proceed machine ((begins opening).action result machine.registers) =
      proceed machine (opening.action result machine.registers) := by
  cases opening with
  | enter kind => exact proceed_enter kind result
  | ifThen | whileDo | forRange => rfl
  | elseIf | otherwise => cases hl

end Machines

/-! ## Bodies -/

section Bodies

variable {machine opened ended : Machine}

/-- A body that leaves its block innermost comes to a point of the run where this block is as it was opened. -/
theorem kind_of_proceedIn {model : Reference.Machine} (h : Paired machine model) {opening : Opening} {result : Option String}
    {body : List Step} (ho : proceed machine (opening.action result machine.registers) = some opened)
    (he : proceedIn body opened = some ended) :
    (∃ model', Paired ended model') ∧ ended.session.current.kind = kindOf opening := by
  obtain ⟨reply, hact⟩ := proceed_eq_some_iff.1 ho
  replace hact : (Act.opening opening result).perform machine = (.ok reply, opened) := hact
  obtain ⟨model₁, hperformed, hopened⟩ := exists_opened h (congrArg Prod.fst hact)
  rw [hact] at hperformed
  obtain ⟨hrun, hid⟩ := proceedIn_eq_some_iff.1 he
  obtain ⟨acts, hacts⟩ := Symbols.steps_acts body opened
  obtain ⟨model₂, hreached⟩ := exists_reached acts hperformed.paired
  rw [← hacts, hrun] at hreached
  refine ⟨⟨model₂, hreached.paired⟩, ?_⟩
  obtain ⟨block, hkind, hpath, -⟩ := hopened
  rw [hreached.paired.same.session.kind, Reference.Block.kind, (stays_of_reached hperformed.paired hreached hid).1,
    (List.cons.inj hpath).1]
  exact hkind

/-- A step with a body that is not refused opens its block, runs the body and leaves the block. -/
theorem proceed_block (part : Part) (machine : Machine) :
    (if (outcomeOf (part.block.run machine).1).isOk then some (part.block.run machine).2.2 else none) =
      (proceed machine (part.opening.action part.result machine.registers)).bind fun opened =>
        (proceedIn part.body opened).bind fun ended =>
          proceed ended (.ok (Script.silent (Recorder.leave opened.session.current))) := by
  rw [Part.block, Step.run, proceed]
  generalize machine.act (part.opening.action part.result machine.registers) = answer
  obtain ⟨outcome, opened⟩ := answer
  cases outcome with
  | error error => rfl
  | ok reply =>
    show _ = Option.bind (some opened) _
    rw [Option.bind_some, proceedIn]
    simp only
    generalize Script.runAll part.body opened = run
    obtain ⟨entries, error?, ended⟩ := run
    cases error? with
    | some error => rfl
    | none =>
      show proceed ended (.ok (Script.silent (Recorder.leave opened.session.current))) =
        Option.bind (if (none : Option TraceError) = none ∧ ended.session.current.id = opened.session.current.id then
          some ended else none) _
      by_cases hid : ended.session.current.id = opened.session.current.id
      · rw [if_pos ⟨rfl, hid⟩, Option.bind_some]
      · rw [if_neg fun h => hid h.2, Option.bind_none, Option.eq_none_iff_forall_ne_some]
        -- another block is the innermost one, and so this one cannot be left
        intro closed hclosed
        obtain ⟨reply, hleave⟩ := proceed_eq_some_iff.1 hclosed
        exact hid (of_leave_ok (congrArg Prod.fst hleave)).1

end Bodies

/-! ## Whole constructs -/

/-- The second part is an alternative to the first one. -/
def Alternative (part next : Part) : Prop := (kindOf part.opening).isConditional = true ∧ isLink next.opening = true

/-- A part with a body is opened, its body is run, and its block is left before the next part. -/
theorem afterBlocks_cons (part : Part) (parts : List Part) (machine : Machine) : afterBlocks (part :: parts) machine =
    (proceed machine (part.opening.action part.result machine.registers)).bind fun opened =>
      (proceedIn part.body opened).bind fun ended =>
        (proceed ended (.ok (Script.silent (Recorder.leave opened.session.current)))).bind (afterBlocks parts) := by
  have hblock := congrArg (Option.bind · (afterBlocks parts)) (proceed_block part machine)
  simp only [Option.bind_assoc] at hblock
  rw [← hblock, afterBlocks]
  split <;> rfl

/-- The first part is opened in the same way in both forms; how it is left, and the parts after it, come out the same. -/
theorem afterOpening_eq (parts : List Part) : ∀ {part : Part} {machine : Machine} {model : Reference.Machine},
    (part :: parts).IsChain Alternative → Paired machine model →
    ((proceed machine (part.opening.action part.result machine.registers)).bind fun opened =>
      (proceedIn part.body opened).bind (afterCalls parts)) = afterBlocks (part :: parts) machine := by
  induction parts with
  | nil =>
    intro part machine model _ _
    rw [afterBlocks_cons]
    refine Option.bind_congr fun opened _ => Option.bind_congr fun ended he => ?_
    rw [afterCalls, proceed_exit (proceedIn_eq_some_iff.1 he).2]
    exact (Option.bind_fun_some _).symm
  | cons next parts ih =>
    intro part machine model hchain hp
    obtain ⟨⟨hcond, hlink⟩, hrest⟩ := List.isChain_cons_cons.1 hchain
    rw [afterBlocks_cons]
    refine Option.bind_congr fun opened ho => Option.bind_congr fun ended he => ?_
    obtain ⟨⟨model', hp'⟩, hk⟩ := kind_of_proceedIn hp ho he
    rw [afterCalls, proceed_link hp'.nested (hk ▸ hcond) (proceedIn_eq_some_iff.1 he).2 hlink]
    show Option.bind (Option.bind _ _) _ = _
    rw [Option.bind_assoc]
    refine Option.bind_congr fun closed hclosed => ?_
    obtain ⟨reply, hact⟩ := proceed_eq_some_iff.1 hclosed
    replace hact : (Act.leave opened.session.current).perform ended = (.ok reply, closed) := hact
    obtain ⟨model₁, hperformed⟩ := exists_performed hp' (.leave opened.session.current)
    rw [hact] at hperformed
    exact ih hrest hperformed.paired

/-- By calls and by steps with bodies, the parts lead to the same machine. -/
theorem afterCalls_eq_afterBlocks {first : Part} {parts : List Part} (hfirst : isLink first.opening = false)
    (hchain : (first :: parts).IsChain Alternative) {machine : Machine} {model : Reference.Machine} (hp : Paired machine model) :
    afterCalls (first :: parts) machine = afterBlocks (first :: parts) machine := by
  rw [afterCalls, proceed_begins hfirst]
  exact afterOpening_eq parts hchain hp

/-! ## Scripts -/

section Scripts

variable {machine machine' : Machine}

/-- A call after which the machine goes on ends no body. -/
theorem run_call_of_proceed {call : Call} {result : Option String}
    (h : proceed machine (call.action result machine.registers) = some machine') :
    ((Step.call call result false).run machine).2 = (none, machine') := by
  obtain ⟨reply, hact⟩ := proceed_eq_some_iff.1 h
  rw [Step.run, hact]
  rfl

/-- A block that is not caught ends the body around it with its error. -/
theorem ended_block (part : Part) (machine : Machine) :
    (part.block.run machine).2.1 = Script.uncaught false (outcomeOf (part.block.run machine).1) := by
  rw [Part.block, Step.run]
  generalize machine.act (part.opening.action part.result machine.registers) = answer
  obtain ⟨outcome, opened⟩ := answer
  cases outcome with
  | error error => rfl
  | ok reply =>
    simp only
    generalize Script.runAll part.body opened = run
    obtain ⟨entries, ended, machine₁⟩ := run
    cases ended <;> rfl

/-- After a step that ends no body come the others. -/
theorem runAll_cons_of_ended {step : Step} (steps : List Step) (h : (step.run machine).2 = (none, machine')) :
    (Script.runAll (step :: steps) machine).2 = (Script.runAll steps machine').2 := by
  rw [Script.runAll]
  generalize step.run machine = run at h
  obtain ⟨entry, rest⟩ := run
  obtain rfl : rest = (none, machine') := h
  rfl

/-- After steps that end no body come the others. -/
theorem runAll_append_of_ended (steps more : List Step) : ∀ {machine : Machine},
    (Script.runAll steps machine).2 = (none, machine') →
    (Script.runAll (steps ++ more) machine).2 = (Script.runAll more machine').2 := by
  induction steps with
  | nil =>
    intro machine h
    rw [Script.runAll, Prod.mk.injEq] at h
    rw [List.nil_append, h.2]
  | cons step steps ih =>
    intro machine h
    rw [Script.runAll] at h
    rw [List.cons_append, Script.runAll]
    generalize step.run machine = run at h ⊢
    obtain ⟨entry, ended, after⟩ := run
    cases ended with
    | some error => cases h
    | none => exact ih h

/-- If no call is refused and every body leaves its block innermost, the calls are a script that runs to its end. -/
theorem runAll_calls (parts : List Part) : ∀ {machine : Machine}, afterCalls parts machine = some machine' →
    (Script.runAll (parts.flatMap Part.calls ++ [.call .exit none false]) machine).2 = (none, machine') := by
  induction parts with
  | nil =>
    intro machine h
    rw [afterCalls] at h
    rw [List.flatMap_nil, List.nil_append, runAll_cons_of_ended [] (run_call_of_proceed h), Script.runAll]
  | cons part parts ih =>
    intro machine h
    rw [afterCalls] at h
    obtain ⟨opened, hopened, h⟩ := Option.bind_eq_some_iff.1 h
    obtain ⟨ended, hended, h⟩ := Option.bind_eq_some_iff.1 h
    rw [List.flatMap_cons, Part.calls, List.cons_append, List.cons_append, runAll_cons_of_ended _ (run_call_of_proceed hopened),
      List.append_assoc, runAll_append_of_ended _ _ (proceedIn_eq_some_iff.1 hended).1, ih h]

/-- Blocks after each of which the machine goes on can be run in a row. -/
theorem runAll_blocks (parts : List Part) : ∀ {machine : Machine}, afterBlocks parts machine = some machine' →
    (Script.runAll (parts.map Part.block) machine).2 = (none, machine') := by
  induction parts with
  | nil =>
    intro machine h
    rw [List.map_nil, Script.runAll, Option.some.inj h]
  | cons part parts ih =>
    intro machine h
    rw [afterBlocks, Option.ite_none_right_eq_some] at h
    obtain ⟨hok, h⟩ := h
    have hended : (part.block.run machine).2 = (none, (part.block.run machine).2.2) := by
      refine Prod.ext ?_ rfl
      rw [ended_block]
      cases hout : outcomeOf (part.block.run machine).1 with
      | ok reply => rfl
      | error error =>
        rw [hout] at hok
        cases hok
    rw [List.map_cons, runAll_cons_of_ended _ hended, ih h]

end Scripts

/-- Alternatives come one after the other, and one without a condition comes last. -/
theorem isChain_alternatives (last : Option (List Step)) (alternatives : List (Arg × List Step)) : ∀ first : Part,
    (kindOf first.opening).isConditional = true →
    (first :: (alternatives.map (fun alternative => (⟨.elseIf alternative.1, none, alternative.2⟩ : Part)) ++
      (last.map fun body => (⟨.otherwise, none, body⟩ : Part)).toList)).IsChain Alternative := by
  induction alternatives with
  | nil =>
    intro first h
    cases last with
    | none => exact .singleton first
    | some body => exact .cons_cons ⟨h, rfl⟩ (.singleton _)
  | cons alternative alternatives ih =>
    intro first h
    exact .cons_cons ⟨h, rfl⟩ (ih _ rfl)

/-- A construct has a first part that is no alternative, and each of the others is an alternative to the part before it. -/
theorem Construct.exists_parts (construct : Construct) : ∃ first rest, construct.parts = first :: rest ∧
    isLink first.opening = false ∧ (first :: rest).IsChain Alternative := by
  cases construct with
  | branches condition body alternatives last => exact ⟨_, _, rfl, rfl, isChain_alternatives last alternatives _ rfl⟩
  | whileDo | forRange | enter => exact ⟨_, _, rfl, rfl, .singleton _⟩

/-- Wherever a run has come to, a branch with its alternatives, or another block, leads to the same machine in both forms: the
session and the registers are the same. One form is carried out without a refusal exactly if the other one is, and then both are
scripts that run to their end. -/
theorem forms_record_alike (acts : List Act) (construct : Construct) :
    afterCalls construct.parts (performAll acts .start) = afterBlocks construct.parts (performAll acts .start) ∧
      ∀ machine, afterCalls construct.parts (performAll acts .start) = some machine →
        (Script.runAll construct.calls (performAll acts .start)).2 = (none, machine) ∧
        (Script.runAll construct.blocks (performAll acts .start)).2 = (none, machine) := by
  obtain ⟨model, hpaired⟩ := exists_paired acts
  obtain ⟨first, rest, hparts, hfirst, hchain⟩ := construct.exists_parts
  have hsame : afterCalls construct.parts (performAll acts .start) = afterBlocks construct.parts (performAll acts .start) := by
    rw [hparts]
    exact afterCalls_eq_afterBlocks hfirst hchain hpaired
  refine ⟨hsame, fun machine h => ⟨runAll_calls _ h, runAll_blocks _ ?_⟩⟩
  rw [← hsame, h]

/-- Three branches in a loop. The first one has the unruly body, and the others open further blocks, in either form. -/
def unrulyBranches : Construct :=
  .branches (.register "test") unrulyBody
    [(.register "test", [.block (.whileDo (.register "test")) none unrulyBody false])]
    (some [.call (.beginFor "i" (.literal (.int 0)) (.literal (.int 3))) (some "i") false,
      .block (.ifThen (.register "test")) none [.call (.var (.register "i")) none false] false,
      .call .exit none false])

/-- Branches in a loop, whose bodies open and close blocks of their own, are recorded alike by both forms. -/
theorem forms_record_alike_unruly : ∃ machine,
    afterCalls unrulyBranches.parts (performAll loopActs .start) = some machine ∧
      (Script.runAll unrulyBranches.calls (performAll loopActs .start)).2 = (none, machine) ∧
      (Script.runAll unrulyBranches.blocks (performAll loopActs .start)).2 = (none, machine) := by
  have h : (afterCalls unrulyBranches.parts (performAll loopActs .start)).isSome = true := by decide +kernel
  obtain ⟨machine, hmachine⟩ := Option.isSome_iff_exists.1 h
  exact ⟨machine, hmachine, (forms_record_alike loopActs unrulyBranches).2 machine hmachine⟩

end ShaderTrace.Blocks
