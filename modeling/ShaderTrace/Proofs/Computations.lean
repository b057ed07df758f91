import Mathlib.Data.List.Forall2
import Mathlib.Data.List.Infix
import Mathlib.Data.List.Nodup

/-!
# Computations that may fail

What the library leaves open about `Except` and about rows: when a chain of computations succeeds and with what, and what a
postcondition of a computation says about a chain of them. `Yields good bad` is the one postcondition of this kind; the others
fix what is said of a failure.
-/

namespace ShaderTrace

/-- Nothing is said about the answer. -/
def anyAnswer {α : Type} : α → Prop := fun _ => True

/-! ## Results -/

section Results

variable {ε ε' α β : Type}

/-- A computation that may fail is done after another one exactly if both are. -/
theorem bind_eq_ok_iff {x : Except ε α} {f : α → Except ε β} {b : β} :
    x >>= f = .ok b ↔ ∃ a, x = .ok a ∧ f a = .ok b := by
  cases x with
  | error e => simp [bind, Except.bind]
  | ok a => simp [bind, Except.bind]

/-- The result of a computation is kept exactly if there is one. -/
theorem toOption_eq_some_iff {x : Except ε α} {a : α} : x.toOption = some a ↔ x = .ok a := by
  cases x <;> simp [Except.toOption]

/-- Errors may be translated in both parts of a chain. -/
theorem mapError_bind (g : ε → ε') (x : Except ε α) (f : α → Except ε β) :
    (x >>= f).mapError g = x.mapError g >>= fun a => (f a).mapError g := by
  cases x <;> rfl

@[simp] theorem mapError_ok (g : ε → ε') (a : α) : (Except.ok a).mapError g = .ok a := rfl

@[simp] theorem mapError_error (g : ε → ε') (e : ε) : (Except.error e : Except ε α).mapError g = .error (g e) := rfl

end Results

/-! ## Rows -/

section Rows

variable {ε α β γ : Type} {f : α → Except ε β} {as : List α} {bs : List β}

/-- The first of two rows in a relation is one whose elements all have a partner. -/
theorem exists_forall₂_iff {r : α → β → Prop} : (∃ bs, List.Forall₂ r as bs) ↔ ∀ a ∈ as, ∃ b, r a b := by
  induction as with
  | nil => simp
  | cons a as ih =>
    rw [List.forall_mem_cons, ← ih]
    constructor
    · rintro ⟨_, h⟩
      cases h with
      | cons hab hrest => exact ⟨⟨_, hab⟩, _, hrest⟩
    · rintro ⟨⟨b, hab⟩, bs, hrest⟩
      exact ⟨b :: bs, .cons hab hrest⟩

/-- A row of computations succeeds if the first one and the others do. -/
theorem mapM_cons_eq_ok_iff {a : α} :
    (a :: as).mapM f = .ok bs ↔ ∃ b rest, f a = .ok b ∧ as.mapM f = .ok rest ∧ bs = b :: rest := by
  simp only [List.mapM_cons, bind_eq_ok_iff]
  constructor
  · rintro ⟨b, hb, rest, hrest, h⟩
    cases h
    exact ⟨b, rest, hb, hrest, rfl⟩
  · rintro ⟨b, rest, hb, hrest, rfl⟩
    exact ⟨b, hb, rest, hrest, rfl⟩

/-- The results of a row of computations, one by one. -/
theorem mapM_eq_ok_iff : as.mapM f = .ok bs ↔ List.Forall₂ (fun a b => f a = .ok b) as bs := by
  induction as generalizing bs with
  | nil =>
    rw [List.forall₂_nil_left_iff]
    exact ⟨fun h => (Except.ok.inj h).symm, fun h => h ▸ rfl⟩
  | cons a as ih =>
    rw [mapM_cons_eq_ok_iff, List.forall₂_cons_left_iff]
    simp only [ih]

/-- A row of one computation gives the row of its result. -/
theorem mapM_singleton_eq_ok_iff {a : α} : [a].mapM f = .ok bs ↔ ∃ b, f a = .ok b ∧ bs = [b] := by
  rw [mapM_eq_ok_iff, List.forall₂_cons_left_iff]
  simp only [List.forall₂_nil_left_iff, ↓existsAndEq, true_and]

/-- A row of computations succeeds exactly if each of them does. -/
theorem exists_mapM_eq_ok_iff : (∃ bs, as.mapM f = .ok bs) ↔ ∀ a ∈ as, ∃ b, f a = .ok b := by
  simp only [mapM_eq_ok_iff]
  exact exists_forall₂_iff

/-- There are as many results as computations. -/
theorem length_of_mapM (h : as.mapM f = .ok bs) : bs.length = as.length := (mapM_eq_ok_iff.1 h).length_eq.symm

/-- Every result comes from a computation of the row. -/
theorem exists_of_mem_mapM (h : as.mapM f = .ok bs) {b : β} (hb : b ∈ bs) : ∃ a ∈ as, f a = .ok b := by
  replace h := mapM_eq_ok_iff.1 h
  induction h with
  | nil => cases hb
  | cons hfirst _ ih =>
    rcases List.mem_cons.1 hb with rfl | hb
    · exact ⟨_, List.mem_cons_self, hfirst⟩
    · obtain ⟨a, hm, ha⟩ := ih hb
      exact ⟨a, List.mem_cons_of_mem _ hm, ha⟩

/-- A row of computations that all succeed gives the row of their results. -/
theorem mapM_map_eq_ok (g : β → α) (h : ∀ b ∈ bs, f (g b) = .ok b) : (bs.map g).mapM f = .ok bs :=
  mapM_eq_ok_iff.2 (List.forall₂_map_left_iff.2 (List.forall₂_same.2 h))

/-- What holds of every result of a row of computations that succeeds. -/
theorem of_mapM_eq_ok {g : β → α} {p : β → Prop} (hf : ∀ a b, f a = .ok b → p b ∧ g b = a) (h : as.mapM f = .ok bs) :
    bs.map g = as ∧ ∀ b ∈ bs, p b := by
  refine ⟨?_, fun b hb => ?_⟩
  · replace h := mapM_eq_ok_iff.1 h
    induction h with
    | nil => rfl
    | cons hfirst _ ih => rw [List.map_cons, ih, (hf _ _ hfirst).2]
  · obtain ⟨a, -, ha⟩ := exists_of_mem_mapM h hb
    exact (hf a b ha).1

/-- Two rows of computations whose results look the same give rows that look the same. -/
theorem map_mapM {g : α → Except ε γ} {view : β → γ} (h : ∀ a ∈ as, (f a).map view = g a) :
    (as.mapM f).map (List.map view) = as.mapM g := by
  induction as with
  | nil => rfl
  | cons a as ih =>
    have hfirst := h a List.mem_cons_self
    have hrest := ih fun other hm => h other (List.mem_cons_of_mem _ hm)
    rw [List.mapM_cons, List.mapM_cons, ← hfirst, ← hrest]
    cases f a with
    | error error => rfl
    | ok b => cases as.mapM f <;> rfl

theorem mapM_some (as : List α) : as.mapM some = some as := by
  simpa using @List.mapM_pure Option α α _ _ as id

/-- Where no two elements have the same key, an element is found under its own. -/
theorem find?_eq_some_iff_of_nodup [BEq β] [LawfulBEq β] {keyOf : α → β} (hd : (as.map keyOf).Nodup) {key : β} {a : α} :
    as.find? (keyOf · == key) = some a ↔ a ∈ as ∧ keyOf a = key := by
  constructor
  · intro h
    exact ⟨List.mem_of_find?_eq_some h, by simpa using List.find?_some h⟩
  · rintro ⟨hm, rfl⟩
    have hsome : (as.find? (keyOf · == keyOf a)).isSome = true := List.find?_isSome.2 ⟨a, hm, beq_self_eq_true _⟩
    obtain ⟨b, hb⟩ := Option.isSome_iff_exists.1 hsome
    have hkey : keyOf b = keyOf a := by simpa using List.find?_some hb
    rw [hb, List.inj_on_of_nodup_map hd (List.mem_of_find?_eq_some hb) hm hkey]

/-- What a row ends with lies in its last part, or reaches into the part before. -/
theorem suffix_cases {a : α} {as front back : List α} (h : a :: as <:+ front ++ back) :
    a :: as <:+ back ∨ ∃ rest, a :: rest <:+ front ∧ as = rest ++ back := by
  rcases List.suffix_or_suffix_of_suffix h (List.suffix_append front back) with h' | ⟨rest, h'⟩
  · exact .inl h'
  · cases rest with
    | nil => exact .inl (by rw [List.nil_append] at h'; rw [h'])
    | cons b rest =>
      obtain ⟨rfl, rfl⟩ : b = a ∧ rest ++ back = as := by simpa using h'
      refine .inr ⟨rest, ?_, rfl⟩
      obtain ⟨start, hstart⟩ := h
      exact ⟨start, List.append_cancel_right (by simpa using hstart)⟩

end Rows

/-! ## Postconditions -/

/-- The computation gives what `good` says, or fails as `bad` says. -/
def Yields {ε α : Type} (good : α → Prop) (bad : ε → Prop) : Except ε α → Prop
  | .ok a => good a
  | .error e => bad e

namespace Yields

variable {ε α β : Type} {good : α → Prop} {bad : ε → Prop} {x : Except ε α}

/-- Less may be said of a result and of a failure. -/
theorem mono {good' : α → Prop} {bad' : ε → Prop} (h : Yields good bad x) (hgood : ∀ a, good a → good' a)
    (hbad : ∀ e, bad e → bad' e) : Yields good' bad' x := by
  cases x with
  | ok a => exact hgood a h
  | error e => exact hbad e h

/-- A chain of computations gives what the second one gives, and fails as both do. -/
theorem bind {next : β → Prop} {f : α → Except ε β} (h : Yields good bad x)
    (hf : ∀ a, x = .ok a → good a → Yields next bad (f a)) : Yields next bad (x >>= f) := by
  cases x with
  | ok a => exact hf a rfl h
  | error e => exact h

/-- What every computation of a row gives, holds of all that the row gives. -/
theorem mapM {good : β → Prop} {f : α → Except ε β} {as : List α} (h : ∀ a ∈ as, Yields good bad (f a)) :
    Yields (fun bs => ∀ b ∈ bs, good b) bad (as.mapM f) := by
  induction as with
  | nil => exact List.forall_mem_nil good
  | cons a as ih =>
    obtain ⟨hfirst, hrest⟩ := List.forall_mem_cons.1 h
    rw [List.mapM_cons]
    exact hfirst.bind fun b _ hb => (ih hrest).bind fun bs _ hbs => List.forall_mem_cons.2 ⟨hb, hbs⟩

end Yields

end ShaderTrace
