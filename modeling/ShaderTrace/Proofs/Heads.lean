import ShaderTrace.Proofs.Copying

/-!
# What the nodes of an arena say

A node says what it was allocated with, or what the node says that it is a copy of. So what holds of every head that is
allocated holds of every node of the arena (`allHeads_editAll`).
-/

namespace ShaderTrace

/-- What every task keeps holds when no task is left. -/
theorem Worklist.run_keeps {σ τ ε : Type} {step : σ → τ → Except ε (σ × List τ)} {exhausted : ε} (good : σ → Prop)
    (hstep : ∀ {state task next}, good state → step state task = .ok next → good next.1) (bound : Nat) :
    ∀ {state state' : σ} {tasks : List τ}, good state → run step exhausted bound state tasks = .ok state' → good state' := by
  induction bound with
  | zero =>
    intro state state' tasks h hrun
    cases tasks with
    | nil => cases hrun; exact h
    | cons => cases hrun
  | succ bound ih =>
    intro state state' tasks h hrun
    cases tasks with
    | nil => cases hrun; exact h
    | cons task rest =>
      obtain ⟨next, hnext, hrun⟩ := bind_eq_ok_iff.1 hrun
      exact ih (hstep h hnext) hrun

namespace Arena

/-- What all nodes of an arena say. -/
def AllHeads (arena : Arena) (holds : Head → Prop) : Prop := ∀ id node, arena.get? id = some node → holds node.head

section Heads

variable {arena arena' : Arena} {holds : Head → Prop}

/-- A new node keeps what holds of every head, if it holds of the new one. -/
theorem AllHeads.alloc (h : arena.AllHeads holds) {head : Head} (hh : holds head) : (arena.alloc head).2.AllHeads holds := by
  intro id node hn
  rw [get?_alloc] at hn
  split at hn
  · cases hn; exact hh
  · exact h id node hn

/-- A link keeps what holds of every head. -/
theorem AllHeads.link (h : arena.AllHeads holds) (parent child : NodeId) : (arena.link parent child).AllHeads holds := by
  intro id node hn
  rw [get?_link] at hn
  obtain ⟨old, hold, rfl⟩ := Option.map_eq_some_iff.1 hn
  exact h id old hold

/-- A copy says what its original says. -/
theorem AllHeads.clone (h : arena.AllHeads holds) {root copy : NodeId} (hc : arena.clone root = .ok (copy, arena')) :
    arena'.AllHeads holds := by
  obtain ⟨node, hn, hc⟩ := bind_eq_ok_iff.1 hc
  obtain ⟨last, hrun, hc⟩ := bind_eq_ok_iff.1 hc
  cases hc
  refine Worklist.run_keeps (AllHeads · holds) ?_ _ (h.alloc (h root node (find_eq_ok_iff.1 hn))) hrun
  intro arena task next h hstep
  obtain ⟨source, parent⟩ := task
  obtain ⟨node, hn, hstep⟩ := bind_eq_ok_iff.1 hstep
  cases hstep
  exact (h.alloc (h source node (find_eq_ok_iff.1 hn))).link _ _

/-- An edit keeps what holds of every head, if it holds of the one that the edit adds. -/
theorem AllHeads.edit (h : arena.AllHeads holds) {edit : Edit} (hh : ∀ head, edit = .alloc head → holds head) :
    (arena.edit edit).2.AllHeads holds := by
  cases edit with
  | alloc head => exact h.alloc (hh head rfl)
  | attach parent child =>
    rw [Arena.edit]
    cases ha : arena.attach parent child with
    | error e => exact h
    | ok arena' =>
      obtain ⟨_, -, ha⟩ := bind_eq_ok_iff.1 ha
      cases ha
      exact h.link parent child
  | clone root =>
    rw [Arena.edit]
    cases hc : arena.clone root with
    | error e => exact h
    | ok result => exact h.clone hc

/-- What all allocated heads satisfy, all heads satisfy after a row of edits. -/
theorem allHeads_editAll (edits : List Edit) (hh : ∀ head, .alloc head ∈ edits → holds head) :
    (Arena.empty.editAll edits).AllHeads holds := by
  have h : ∀ arena : Arena, arena.AllHeads holds → (arena.editAll edits).AllHeads holds := by
    induction edits with
    | nil => exact fun _ h => h
    | cons edit edits ih =>
      intro arena h
      have hfirst : (arena.edit edit).2.AllHeads holds := h.edit fun head he => hh head (he ▸ List.mem_cons_self)
      exact ih (fun head hm => hh head (List.mem_cons_of_mem _ hm)) _ hfirst
  refine h Arena.empty ?_
  intro id node hn
  cases hn

/-- What holds of every head holds of the root of a tree in the arena. -/
theorem AllHeads.tree (h : arena.AllHeads holds) {tree : Tree} (ht : arena.Holds tree) : holds tree.head := by
  obtain ⟨node, hn, hhead, -⟩ := get?_of_content? ht.content
  rw [← hhead]
  exact h tree.id node hn

end Heads

end Arena

end ShaderTrace
