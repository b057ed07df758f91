import ShaderTrace.Proofs.Blocks.Outcomes
import ShaderTrace.Proofs.Recording.Script
import ShaderTrace.Proofs.Symbols.Script

/-!
# Every point that a run comes to

A run is a row of acts: calls, openings of blocks, and attempts to leave a block, whichever of them are refused. `Paired` goes
with the run: at every point there is a machine that has recorded the same by value, with a session that satisfies the
judgements. `exists_performed` says what one act does to such a pair, `exists_reached` what a whole row does.
-/

namespace ShaderTrace.Blocks

open Refinement (SameMachine SameAction SameResult Related Later Agree)
open Recording (Ledger Good GoodMachine TypedRegisters KeepingAction)
open Script (Step StepError Machine)
open Symbols (Act performAll)

/-- The machines are at the same point, and what they have recorded satisfies the judgements. -/
structure Paired (machine : Machine) (model : Reference.Machine) : Prop where
  same : SameMachine machine model
  good : GoodMachine model

/-- At the start both have recorded nothing. -/
theorem paired_start : Paired .start .start :=
  ⟨Refinement.start_same, [], Recording.good_start, by intro register hm; cases hm⟩

/-! ## One act -/

/-- What an act that led from one pair of machines to another has done. -/
structure Performed (machine : Machine) (model : Reference.Machine) (answer : Except StepError Script.Reply × Machine)
    (model' : Reference.Machine) : Prop where
  paired : Paired answer.2 model'
  later : Later machine.session model.session answer.2.session model'.session
  advance : Advance model.session model'.session
  refused : ∀ error, answer.1 = .error error → SameProgram model.session model'.session ∧
    ∀ e, error ≠ .trace (.arena e)

/-- What an action of a machine leaves behind, whether its registers were found or not. -/
theorem act_outcome {model : Reference.Machine} {action : Except StepError Reference.Action}
    (h : Found (Behaved model.session) action) : Advance model.session (model.act action).2.session ∧
      ∀ error, (model.act action).1 = .error error →
        SameProgram model.session (model.act action).2.session ∧ ∀ e, error ≠ .trace (.arena e) := by
  cases action with
  | error error =>
    refine ⟨.refl _, ?_⟩
    rintro _ ⟨⟩
    exact ⟨.refl _, h⟩
  | ok action =>
    have hout := h model.registers
    simp only [Reference.Machine.act, EStateM.run]
    cases hx : action model.registers model.session with
    | ok answer session =>
      rw [hx] at hout
      exact ⟨hout.1, by rintro _ ⟨⟩⟩
    | error error session =>
      rw [hx] at hout
      refine ⟨hout.1, ?_⟩
      rintro _ ⟨⟩
      refine ⟨hout.2.1, ?_⟩
      rintro e ⟨⟩
      exact hout.2.2 e rfl

/-- An action that has a counterpart by value, which keeps the judgements and behaves as an action does. -/
theorem performed_of_same {machine : Machine} {model : Reference.Machine} (h : Paired machine model)
    {action : Except StepError Script.Action} {other : Except StepError Reference.Action}
    (hs : SameResult (SameAction machine.session model.session) action other)
    (hk : ∀ Γ, Good Γ model.session → TypedRegisters Γ model.registers → Found (KeepingAction Γ model.session) other)
    (hb : Found (Behaved model.session) other) :
    Performed machine model (machine.act action) (model.act other).2 := by
  have hacted := Refinement.act_same h.same hs
  obtain ⟨hadvance, hrefused⟩ := act_outcome hb
  obtain ⟨Γ, hgood, htyped⟩ := h.good
  refine ⟨⟨hacted.same, Recording.act_good hgood htyped (hk Γ hgood htyped)⟩, hacted.later, hadvance, ?_⟩
  intro error he
  have hout := hacted.outcome
  rw [he] at hout
  generalize hr : (model.act other).1 = result at hout
  cases hout with
  | error => exact hrefused error hr

/-- Closes the innermost open block, if it is the one to be closed. -/
def closing (closes : Prop) [Decidable closes] (kind : NodeKind) : Reference.Recorder Unit := do
  let top ← Reference.current
  if ¬closes then throw (.blockMismatch kind top.kind)
  Reference.exit

/-- To leave a block by its number agrees with closing the innermost one if it is meant. -/
theorem leave_closing_agree {session : Session} {model : Reference.Session} (h : Related session model) (block : OpenBlock) :
    Agree session model Refinement.anyAnswers (Recorder.leave block session)
      (closing (session.current.id = block.id) block.kind model) := by
  refine Agree.current (Agree.guard Iff.rfl ?_ h fun _ => ?_)
  · rw [h.kind]
  · exact (Refinement.exit_agree h).mapLeft fun _ _ _ _ => trivial

/-- What an act does, by value. -/
def counterpart (machine : Machine) (model : Reference.Machine) : Act → Except StepError Reference.Action
  | .call call result => Reference.callAction call result model.registers
  | .opening opening result => Reference.openingAction opening result model.registers
  | .leave block => .ok (Reference.answers .done (closing (machine.session.current.id = block.id) block.kind))

section Acts

variable {machine : Machine} {model : Reference.Machine}

/-- Every act has the same result as its counterpart by value. -/
theorem counterpart_same (h : Paired machine model) (act : Act) :
    SameResult (SameAction machine.session model.session) (act.action machine.registers) (counterpart machine model act) := by
  cases act with
  | call call result => exact Refinement.call_same h.same.session h.same.registers call result
  | opening opening result => exact Refinement.opening_same h.same.session h.same.registers opening result
  | leave block => exact .ok (Refinement.silent_same (leave_closing_agree h.same.session block))

/-- The counterpart of an act behaves as an action does. -/
theorem counterpart_behaved (machine : Machine) (model : Reference.Machine) (act : Act) :
    Found (Behaved model.session) (counterpart machine model act) := by
  cases act with
  | call call result => exact call_outcome _ call result
  | opening opening result => exact opening_behaved _ opening result
  | leave block =>
    have hout : ActionOutcome model.session (fun _ => SameProgram model.session)
        (closing (machine.session.current.id = block.id) block.kind model.session) :=
      current_quiet.then fun _ => .guard (by rintro _ ⟨⟩) fun _ => exit_outcome
    exact hout.behaved fun _ _ _ => ⟨_, rfl⟩

/-- Every act is performed beside its counterpart. -/
theorem performed_counterpart (h : Paired machine model) (act : Act) :
    Performed machine model (act.perform machine) (model.act (counterpart machine model act)).2 := by
  refine performed_of_same h (counterpart_same h act) (fun Γ hg hr => ?_) (counterpart_behaved machine model act)
  cases act with
  | call call result => exact Recording.call_keeping hg hr call result
  | opening opening result => exact Recording.opening_keeping hg hr opening result
  | leave block =>
    have hkeep : Keeping Good Γ anything (closing (machine.session.current.id = block.id) block.kind model.session) :=
      Keeping.guard hg fun _ => Recording.exit_keeping hg
    exact Recording.answers_keeping .done hkeep

/-- Whatever an act is, there is a machine by value that it leads to as well. -/
theorem exists_performed (h : Paired machine model) (act : Act) : ∃ model', Performed machine model (act.perform machine) model' :=
  ⟨_, performed_counterpart h act⟩

end Acts

/-! ## Rows of acts -/

/-- Where a row of acts leads to, on both sides. -/
structure ReachedBoth (machine : Machine) (model : Reference.Machine) (machine' : Machine) (model' : Reference.Machine) :
    Prop where
  paired : Paired machine' model'
  later : Later machine.session model.session machine'.session model'.session
  advance : Advance model.session model'.session

/-- Every row of acts leads somewhere by value too. -/
theorem exists_reached (acts : List Act) : ∀ {machine : Machine} {model : Reference.Machine}, Paired machine model →
    ∃ model', ReachedBoth machine model (performAll acts machine) model' := by
  induction acts with
  | nil =>
    intro machine model h
    exact ⟨model, h, Later.refl _ _, .refl _⟩
  | cons act acts ih =>
    intro machine model h
    obtain ⟨model₁, hp⟩ := exists_performed h act
    obtain ⟨model₂, hr⟩ := ih hp.paired
    exact ⟨model₂, hr.paired, hp.later.trans hr.later, hp.advance.trans hr.advance⟩

/-- A run that begins with nothing. -/
theorem exists_paired (acts : List Act) : ∃ model, Paired (performAll acts .start) model := by
  obtain ⟨model, hr⟩ := exists_reached acts paired_start
  exact ⟨model, hr.paired⟩

end ShaderTrace.Blocks
