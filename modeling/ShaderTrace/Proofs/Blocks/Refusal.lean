import ShaderTrace.Proofs.Blocks.Reached

/-!
# A call that is refused does no harm

A call may be refused after it has built nodes, used a symbol up or closed a branch. What has been recorded is the same
afterwards: the program, the names that are taken, every handle, and the expression behind every handle
(`refused_call_harmless`).
-/

namespace ShaderTrace.Blocks

open Refinement (SameRegisters SameHandle Stands)
open Script (Call StepError Machine)
open Symbols (Act performAll)

/-- An action that is refused sets no register. -/
theorem registers_of_refused {machine : Machine} {action : Except StepError Script.Action} {error : StepError}
    (h : (machine.act action).1 = .error error) : (machine.act action).2.registers = machine.registers := by
  cases action with
  | error e => rfl
  | ok action =>
    simp only [Machine.act, EStateM.run] at h ⊢
    cases hx : action machine.registers machine.session with
    | ok answer session =>
      rw [hx] at h
      cases h
    | error e session => rfl

/-- Behind the handle of an operation stands a tree that is no block. -/
theorem exists_tree_of_pending {machine : Machine} {model : Reference.Machine} (h : Paired machine model) {name : String}
    {type : ValueType} {node : NodeId} (hl : machine.registers.lookup name = some (.value ⟨type, .pending node⟩)) :
    ∃ tree : Tree, machine.session.arena.Holds tree ∧ tree.id = node ∧ tree.kind.isBlock = false := by
  have hhandle := h.same.registers.handle name
  rw [Script.Registers.handle, hl] at hhandle
  generalize model.registers.handle name = found at hhandle
  cases hhandle with
  | ok hsame =>
    cases hsame with
    | @value _ other hvalue =>
      obtain ⟨otherType, form⟩ := other
      obtain ⟨-, hform⟩ := hvalue
      cases hform with
      | pending hstands =>
        obtain ⟨tree, hholds, hid, -, hplain⟩ := hstands
        exact ⟨tree, hholds, hid, hplain⟩

/-- The sessions that go with a session and its counterpart by value hold the same program, if that is what is recorded by
value. -/
theorem term_eq_of_sameProgram {machine machine' : Machine} {model model' : Reference.Machine} (h : Paired machine model)
    (h' : Paired machine' model') (hs : SameProgram model.session model'.session) :
    (∃ tree tree', machine.session.arena.tree Session.root = .ok tree ∧
      machine'.session.arena.tree Session.root = .ok tree' ∧ tree'.term = tree.term) ∧
      machine'.session.names = machine.session.names := by
  obtain ⟨tree, htree, hterm⟩ := h.same.session.tree
  obtain ⟨tree', htree', hterm'⟩ := h'.same.session.tree
  obtain ⟨frame, frames, hm⟩ := h.same.session
  obtain ⟨frame', frames', hm'⟩ := h'.same.session
  refine ⟨⟨tree, tree', htree, htree', ?_⟩, ?_⟩
  · rw [hterm, hterm', hs.tree]
  · rw [hm.names, hm'.names, hs.names]

/-- A call that is refused leaves the program, the names, the handles and the expressions behind them as they were. -/
theorem refused_call_harmless (acts : List Act) (call : Call) (result : Option String) (error : StepError)
    (h : ((Act.call call result).perform (performAll acts .start)).1 = .error error) :
    (∃ tree tree', (performAll acts .start).session.arena.tree Session.root = .ok tree ∧
        ((Act.call call result).perform (performAll acts .start)).2.session.arena.tree Session.root = .ok tree' ∧
        tree'.term = tree.term) ∧
      ((Act.call call result).perform (performAll acts .start)).2.session.names = (performAll acts .start).session.names ∧
      ((Act.call call result).perform (performAll acts .start)).2.registers = (performAll acts .start).registers ∧
      ∀ name type node, (performAll acts .start).registers.lookup name = some (.value ⟨type, .pending node⟩) →
        ∃ tree, (performAll acts .start).session.arena.tree node = .ok tree ∧
          ((Act.call call result).perform (performAll acts .start)).2.session.arena.tree node = .ok tree := by
  obtain ⟨model, hpaired⟩ := exists_paired acts
  generalize performAll acts .start = machine at *
  obtain ⟨model', hperformed⟩ := exists_performed hpaired (.call call result)
  obtain ⟨hprogram, hnames⟩ := term_eq_of_sameProgram hpaired hperformed.paired (hperformed.refused error h).1
  refine ⟨hprogram, hnames, registers_of_refused h, ?_⟩
  intro name type node hl
  obtain ⟨tree, hholds, hid, hplain⟩ := exists_tree_of_pending hpaired hl
  obtain ⟨frame, frames, hm⟩ := hpaired.same.session
  obtain ⟨frame', frames', hm'⟩ := hperformed.paired.same.session
  have hkept := hperformed.later.keeps tree hholds hplain
  exact ⟨tree, hm.owned.tree_eq_ok_iff.2 ⟨hholds, hid⟩, hm'.owned.tree_eq_ok_iff.2 ⟨hkept, hid⟩⟩

/-- A branch is open; one condition has been used, and another has no value yet. -/
def branchActs : List Act :=
  [.opening (.enter .main) none,
    .call (.express (.binary .lt) [.literal (.int 1), .literal (.int 2)]) (some "test"),
    .call (.unbound .bool) (some "nothing"),
    .opening (.ifThen (.register "test")) none]

/-- An alternative whose condition cannot be read is refused after the branch before it was closed: one block less is open, but
the program and the expression of the other condition are the same. -/
theorem refused_call_harmless_branch :
    ((Act.call (.beginElseIf (.register "nothing")) none).perform (performAll branchActs .start)).1 =
        .error (.trace (.uninitializedRead .bool)) ∧
      ((Act.call (.beginElseIf (.register "nothing")) none).perform (performAll branchActs .start)).2.session.depth <
        (performAll branchActs .start).session.depth ∧
      (∃ tree tree', (performAll branchActs .start).session.arena.tree Session.root = .ok tree ∧
        ((Act.call (.beginElseIf (.register "nothing")) none).perform
          (performAll branchActs .start)).2.session.arena.tree Session.root = .ok tree' ∧ tree'.term = tree.term) ∧
      ∃ tree, (performAll branchActs .start).session.arena.tree ⟨2⟩ = .ok tree ∧
        ((Act.call (.beginElseIf (.register "nothing")) none).perform
          (performAll branchActs .start)).2.session.arena.tree ⟨2⟩ = .ok tree := by
  have h : ((Act.call (.beginElseIf (.register "nothing")) none).perform (performAll branchActs .start)).1 =
      .error (.trace (.uninitializedRead .bool)) := by decide +kernel
  have htest : (performAll branchActs .start).registers.lookup "test" = some (.value ⟨.bool, .pending ⟨2⟩⟩) := by
    decide +kernel
  obtain ⟨hprogram, -, -, hpending⟩ := refused_call_harmless branchActs _ none _ h
  exact ⟨h, by decide +kernel, hprogram, hpending "test" .bool ⟨2⟩ htest⟩

end ShaderTrace.Blocks
