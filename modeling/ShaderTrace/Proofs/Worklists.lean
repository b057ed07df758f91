import ShaderTrace.Worklist

/-!
# Walks that end

A walk is given a bound on the number of its tasks. `Ends` is the walk without one: it does task after task until none is left or
one fails, and says which tasks were done. A walk that ends does the same under every bound that is large enough
(`Ends.run_eq`), and a walk whose answer does not depend on what an exhausted bound is answered with ends
(`exists_ends_of_run`).
-/

namespace ShaderTrace.Worklist

variable {σ τ ε κ : Type} {step : σ → τ → Except ε (σ × List τ)} {exhausted : ε}

theorem run_nil (bound : Nat) (state : σ) : run step exhausted bound state [] = .ok state := by
  cases bound <;> rfl

/-- A task that is done leaves its tasks on top of the rest. -/
theorem run_cons (bound : Nat) {state state' : σ} {task : τ} {next : List τ} (rest : List τ)
    (h : step state task = .ok (state', next)) :
    run step exhausted (bound + 1) state (task :: rest) = run step exhausted bound state' (next ++ rest) := by
  rw [run, h]
  rfl

/-- The walk without a bound ends with `result`. The tasks that were done are, in their order, about `marks`. -/
inductive Ends (step : σ → τ → Except ε (σ × List τ)) (mark : τ → κ) : σ → List τ → List κ → Except ε σ → Prop
  | done {state : σ} : Ends step mark state [] [] (.ok state)
  | failed {state : σ} {task : τ} {rest : List τ} {error : ε} (h : step state task = .error error) :
    Ends step mark state (task :: rest) [mark task] (.error error)
  | task {state state' : σ} {task : τ} {next rest : List τ} {marks : List κ} {result : Except ε σ}
    (h : step state task = .ok (state', next)) (hrest : Ends step mark state' (next ++ rest) marks result) :
    Ends step mark state (task :: rest) (mark task :: marks) result

section Ends

variable {mark : τ → κ} {state : σ} {tasks : List τ} {marks : List κ} {result : Except ε σ}

/-- A bound changes nothing if it allows as many tasks as the walk has. -/
theorem Ends.run_eq (h : Ends step mark state tasks marks result) (exhausted : ε) {bound : Nat} (hb : marks.length ≤ bound) :
    run step exhausted bound state tasks = result := by
  induction h generalizing bound with
  | done => exact run_nil bound _
  | failed h =>
    obtain ⟨bound, rfl⟩ : ∃ n, bound = n + 1 := ⟨bound - 1, by rw [List.length_singleton] at hb; omega⟩
    rw [run, h]
    rfl
  | task h _ ih =>
    rw [List.length_cons] at hb
    obtain ⟨bound, rfl⟩ : ∃ n, bound = n + 1 := ⟨bound - 1, by omega⟩
    rw [run_cons bound _ h]
    exact ih (by omega)

/-- A walk ends within its bound, or its answer is that the bound is exhausted. -/
theorem ends_or_exhausted (mark : τ → κ) (bound : Nat) : ∀ (state : σ) (tasks : List τ),
    (∃ marks result, marks.length ≤ bound ∧ Ends step mark state tasks marks result) ∨
      ∀ exhausted, run step exhausted bound state tasks = .error exhausted := by
  induction bound with
  | zero =>
    intro state tasks
    cases tasks with
    | nil => exact .inl ⟨[], _, Nat.le_refl 0, .done⟩
    | cons task rest => exact .inr fun _ => rfl
  | succ bound ih =>
    intro state tasks
    cases tasks with
    | nil => exact .inl ⟨[], _, Nat.zero_le _, .done⟩
    | cons task rest =>
      cases h : step state task with
      | error error => exact .inl ⟨[mark task], _, Nat.succ_le_succ (Nat.zero_le bound), .failed h⟩
      | ok next =>
        rcases ih next.1 (next.2 ++ rest) with ⟨marks, result, hlen, hends⟩ | hexhausted
        · exact .inl ⟨mark task :: marks, result, Nat.succ_le_succ hlen, .task h hends⟩
        · refine .inr fun exhausted => ?_
          rw [run_cons bound rest h]
          exact hexhausted exhausted

/-- A walk ends if its answer is the same whatever an exhausted bound is answered with. -/
theorem exists_ends_of_run (mark : τ → κ) {bound : Nat} {e e' : ε} (hne : e ≠ e')
    (h : ∀ exhausted, run step exhausted bound state tasks = result) :
    ∃ marks, marks.length ≤ bound ∧ Ends step mark state tasks marks result := by
  rcases ends_or_exhausted mark bound state tasks with ⟨marks, result', hlen, hends⟩ | hexhausted
  · rw [← h e, hends.run_eq e hlen]
    exact ⟨marks, hlen, hends⟩
  · have heq : Except.error e = (Except.error e' : Except ε σ) := by
      rw [← hexhausted e, h e, ← h e', hexhausted e']
    exact absurd (Except.error.inj heq) hne

/-- What is done is a part of what the tasks on the stack stand for, if every task stands for itself and for what it leaves. -/
theorem Ends.sublist {ι : Type} {note extent : τ → List ι} {done : List τ} (h : Ends step id state tasks done result)
    (hstep : ∀ {state task next}, step state task = .ok next → (note task ++ next.2.flatMap extent).Sublist (extent task))
    (hself : ∀ task, (note task).Sublist (extent task)) : (done.flatMap note).Sublist (tasks.flatMap extent) := by
  induction h with
  | done => exact List.Sublist.refl _
  | failed h =>
    rw [List.flatMap_cons, List.flatMap_cons, List.flatMap_nil]
    exact (hself _).append (List.nil_sublist _)
  | task h _ ih =>
    rw [List.flatMap_append] at ih
    rw [List.flatMap_cons, List.flatMap_cons]
    refine ((List.Sublist.refl _).append ih).trans ?_
    rw [← List.append_assoc]
    exact (hstep h).append (List.Sublist.refl _)

end Ends

end ShaderTrace.Worklist
