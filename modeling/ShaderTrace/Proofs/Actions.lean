import ShaderTrace.Recorder.Error

/-!
# What actions leave behind

An action of a recorder may be refused after it has changed the state, so a postcondition speaks of the state in both cases.
`Leaves good bad` is the postcondition of one action and `Together good bad` compares two; how a condition refuses an action and
how actions follow each other is proved here, once for each. The postconditions of the development are instances: they fix
`good` and `bad`, and their own rules only say what becomes of these.

`Keeping` is the instance for what is said under a ledger. The state that is left behind is good whether the action succeeded or
was refused, under a ledger that goes on from the one before. The ledger only grows, so what holds under it goes on to hold.
-/

namespace ShaderTrace

section Chains

variable {ε σ α β : Type} {x : EStateM ε σ α} {f : α → EStateM ε σ β} {s s' : σ}

/-- After an action that succeeds comes the next one, in the state that it left. -/
theorem bind_of_ok {a : α} (h : x s = .ok a s') : (x >>= f) s = f a s' := by
  show EStateM.bind x f s = _
  rw [EStateM.bind, h]

/-- After an action that is refused comes nothing. -/
theorem bind_of_error {e : ε} (h : x s = .error e s') : (x >>= f) s = .error e s' := by
  show EStateM.bind x f s = _
  rw [EStateM.bind, h]

end Chains

/-! ## One action -/

/-- The action succeeded as `good` says of the answer and of the state that it left behind, or it was refused as `bad` says of the
reason and of that state. -/
def Leaves {ε σ α : Type} (good : α → σ → Prop) (bad : ε → σ → Prop) : EStateM.Result ε σ α → Prop
  | .ok a s => good a s
  | .error e s => bad e s

/-- Nothing is said. -/
def anything {α β : Type} : α → β → Prop := fun _ _ => True

namespace Leaves

variable {ε σ α β : Type} {good : α → σ → Prop} {bad bad' : ε → σ → Prop} {next : β → σ → Prop} {x : EStateM ε σ α}
  {f : α → EStateM ε σ β} {s s' : σ} {e : ε}

/-- Less may be said of an answer and of a refusal. -/
theorem mono {good' : α → σ → Prop} {result : EStateM.Result ε σ α} (h : Leaves good bad result)
    (hgood : ∀ a s, good a s → good' a s) (hbad : ∀ e s, bad e s → bad' e s) : Leaves good' bad' result := by
  cases result with
  | ok a s => exact hgood a s h
  | error e s => exact hbad e s h

/-- An action follows another one: it is begun where the first one ends, and it need not be if the first one was refused. -/
theorem bind (h : Leaves good bad (x s)) (hbad : ∀ e s', bad e s' → bad' e s')
    (hf : ∀ a s', x s = .ok a s' → good a s' → Leaves next bad' (f a s')) : Leaves next bad' ((x >>= f) s) := by
  cases hx : x s with
  | ok a s' =>
    rw [hx] at h
    rw [bind_of_ok hx]
    exact hf a s' hx h
  | error e s' =>
    rw [hx] at h
    rw [bind_of_error hx]
    exact hbad e s' h

theorem then_ok {a : α} (hx : x s = .ok a s') (h : Leaves next bad (f a s')) : Leaves next bad ((x >>= f) s) := by
  rw [bind_of_ok hx]
  exact h

theorem then_error (hx : x s = .error e s') (h : bad e s') : Leaves next bad ((x >>= f) s) := by
  rw [bind_of_error hx]
  exact h

/-- A condition under which the action is refused. -/
theorem guard {c : Prop} [Decidable c] {g : Unit → EStateM ε σ α} (hbad : c → bad e s) (hx : ¬c → Leaves good bad (x s)) :
    Leaves good bad ((if c then throw e >>= g else x) s) := by
  by_cases hc : c
  · rw [if_pos hc]
    exact hbad hc
  · rw [if_neg hc]
    exact hx hc

/-- A check at the end of an action. -/
theorem check {c : Prop} [Decidable c] {good : Unit → σ → Prop} (hbad : c → bad e s) (hgood : ¬c → good () s) :
    Leaves good bad ((if c then throw e else (Pure.pure () : EStateM ε σ Unit)) s) := by
  by_cases hc : c
  · rw [if_pos hc]
    exact hbad hc
  · rw [if_neg hc]
    exact hgood hc

end Leaves

/-! ## Two actions -/

/-- Both actions succeeded, as `good` says of the answers and of the states that they left behind, or both were refused, as `bad`
says of the reasons and of those states. -/
def Together {ε σ τ α β : Type} (good : α → σ → β → τ → Prop) (bad : ε → σ → ε → τ → Prop) :
    EStateM.Result ε σ α → EStateM.Result ε τ β → Prop
  | .ok a s, .ok b t => good a s b t
  | .error e s, .error e' t => bad e s e' t
  | _, _ => False

namespace Together

variable {ε σ τ α β γ δ : Type} {good : α → σ → β → τ → Prop} {bad bad' : ε → σ → ε → τ → Prop} {x : EStateM ε σ α}
  {y : EStateM ε τ β} {s : σ} {t : τ}

/-- Less may be said of answers and of refusals. -/
theorem mono {good' : α → σ → β → τ → Prop} {result : EStateM.Result ε σ α} {result' : EStateM.Result ε τ β}
    (h : Together good bad result result') (hgood : ∀ a s b t, good a s b t → good' a s b t)
    (hbad : ∀ e s e' t, bad e s e' t → bad' e s e' t) : Together good' bad' result result' := by
  cases result with
  | ok a s =>
    cases result' with
    | ok b t => exact hgood a s b t h
    | error e t => exact h
  | error e s =>
    cases result' with
    | ok b t => exact h
    | error e' t => exact hbad e s e' t h

/-- Two actions follow two others: they are begun where these end, and neither is begun if these were refused. -/
theorem bind {next : γ → σ → δ → τ → Prop} {f : α → EStateM ε σ γ} {g : β → EStateM ε τ δ} (h : Together good bad (x s) (y t))
    (hbad : ∀ e s e' t, bad e s e' t → bad' e s e' t)
    (hf : ∀ a s b t, good a s b t → Together next bad' (f a s) (g b t)) :
    Together next bad' ((x >>= f) s) ((y >>= g) t) := by
  cases hx : x s with
  | ok a s' =>
    rw [hx] at h
    rw [bind_of_ok hx]
    cases hy : y t with
    | ok b t' =>
      rw [hy] at h
      rw [bind_of_ok hy]
      exact hf a s' b t' h
    | error e t' =>
      rw [hy] at h
      exact h.elim
  | error e s' =>
    rw [hx] at h
    rw [bind_of_error hx]
    cases hy : y t with
    | ok b t' =>
      rw [hy] at h
      exact h.elim
    | error e' t' =>
      rw [hy] at h
      rw [bind_of_error hy]
      exact hbad e s' e' t' h

section Conditions

variable {c c' : Prop} [Decidable c] [Decidable c'] {e e' : ε}

/-- A condition that refuses both, or neither. -/
theorem guard (hc : c ↔ c') {f : Unit → EStateM ε σ α} {g : Unit → EStateM ε τ β} (hbad : c → bad e s e' t)
    (hxy : ¬c → Together good bad (x s) (y t)) :
    Together good bad ((if c then throw e >>= f else x) s) ((if c' then throw e' >>= g else y) t) := by
  by_cases hcase : c
  · rw [if_pos hcase, if_pos (hc.1 hcase)]
    exact hbad hcase
  · rw [if_neg hcase, if_neg fun h' => hcase (hc.2 h')]
    exact hxy hcase

/-- A check that refuses both, or neither. -/
theorem check {good : Unit → σ → Unit → τ → Prop} (hc : c ↔ c') (hbad : c → bad e s e' t) (hgood : ¬c → good () s () t) :
    Together good bad ((if c then throw e else (Pure.pure () : EStateM ε σ Unit)) s)
      ((if c' then throw e' else (Pure.pure () : EStateM ε τ Unit)) t) := by
  by_cases hcase : c
  · rw [if_pos hcase, if_pos (hc.1 hcase)]
    exact hbad hcase
  · rw [if_neg hcase, if_neg fun h' => hcase (hc.2 h')]
    exact hgood hcase

end Conditions

end Together

/-! ## Actions that keep a ledger -/

/-- The action left a good state behind, with a ledger that goes on from `Γ`, and its answer is as `answer` says. -/
def Keeping {ι σ α : Type} (good : List ι → σ → Prop) (Γ : List ι) (answer : List ι → α → Prop) :
    EStateM.Result TraceError σ α → Prop :=
  Leaves (fun a s => ∃ Γ', Γ <+: Γ' ∧ good Γ' s ∧ answer Γ' a) fun _ s => ∃ Γ', Γ <+: Γ' ∧ good Γ' s

namespace Keeping

variable {ι σ α β : Type} {good : List ι → σ → Prop} {Γ Γ' : List ι} {s : σ} {answer : List ι → α → Prop}
  {answer' : List ι → β → Prop}

/-- An answer in a good state. -/
theorem pure (h : good Γ s) {a : α} (ha : answer Γ a) : Keeping good Γ answer (.ok a s) :=
  ⟨Γ, List.prefix_rfl, h, ha⟩

/-- A refusal in a good state. -/
theorem error (h : good Γ s) (e : TraceError) : Keeping good Γ answer (.error e s) := ⟨Γ, List.prefix_rfl, h⟩

/-- What is kept under a longer ledger is kept under the one that it goes on from. -/
theorem later (hp : Γ <+: Γ') {x : EStateM.Result TraceError σ α} (h : Keeping good Γ' answer x) :
    Keeping good Γ answer x := by
  refine Leaves.mono h ?_ ?_
  · rintro a s ⟨Δ, hΔ, hgood, ha⟩
    exact ⟨Δ, hp.trans hΔ, hgood, ha⟩
  · rintro e s ⟨Δ, hΔ, hgood⟩
    exact ⟨Δ, hp.trans hΔ, hgood⟩

/-- Less may be said of the answer. -/
theorem mono {answer₂ : List ι → α → Prop} (ha : ∀ Γ a, answer Γ a → answer₂ Γ a)
    {x : EStateM.Result TraceError σ α} (h : Keeping good Γ answer x) : Keeping good Γ answer₂ x := by
  refine Leaves.mono h ?_ fun _ _ => id
  rintro a s ⟨Γ', hp, hgood, hanswer⟩
  exact ⟨Γ', hp, hgood, ha Γ' a hanswer⟩

/-- The next action may rely on the state and on the answer that the first one leaves, under its ledger. -/
theorem bind {x : EStateM TraceError σ α} {f : α → EStateM TraceError σ β} (h : Keeping good Γ answer (x s))
    (hf : ∀ a Γ' s', Γ <+: Γ' → good Γ' s' → answer Γ' a → Keeping good Γ' answer' (f a s')) :
    Keeping good Γ answer' ((x >>= f) s) := by
  refine Leaves.bind h (fun _ _ => id) ?_
  rintro a s' - ⟨Γ', hp, hgood, ha⟩
  exact (hf a Γ' s' hp hgood ha).later hp

/-- A condition under which the action is refused. -/
theorem guard {c : Prop} [Decidable c] {e : TraceError} (h : good Γ s) {f : Unit → EStateM TraceError σ α}
    {x : EStateM TraceError σ α} (hx : ¬c → Keeping good Γ answer (x s)) :
    Keeping good Γ answer ((if c then throw e >>= f else x) s) :=
  Leaves.guard (fun _ => ⟨Γ, List.prefix_rfl, h⟩) hx

/-- A check at the end of an action. -/
theorem check {c : Prop} [Decidable c] {e : TraceError} (h : good Γ s) :
    Keeping good Γ (fun _ (_ : Unit) => ¬c) ((if c then throw e else (Pure.pure () : EStateM TraceError σ Unit)) s) :=
  Leaves.check (fun _ => ⟨Γ, List.prefix_rfl, h⟩) fun hc => ⟨Γ, List.prefix_rfl, h, hc⟩

end Keeping

end ShaderTrace
