import Mathlib.Data.List.Nodup
import ShaderTrace.Glsl.Scope

/-!
# Spellings are told apart

An input or an output is never spelled like a local variable, and no two local variables are spelled alike. So where the inputs
and outputs of a scope have different spellings, every symbol has a spelling of its own (`Scope.symbol_eq_of_spelling_eq`).
-/

namespace ShaderTrace.Glsl

open Identifier

/-- The name of a variable of `main` is a letter and the digits of its symbol. -/
theorem toList_localName (symbol : SymbolId) : (localName symbol).toList = 'v' :: Nat.toDigits 10 symbol.index := by
  rw [localName, String.toList_append, show toString symbol.index = symbol.index.repr from rfl, Nat.toList_repr]
  rfl

/-- The digits of a number are digits. -/
theorem isDigit_of_mem_toDigits {n : Nat} {c : Char} (h : c ∈ Nat.toDigits 10 n) : isDigit c = true := by
  have hdigit := Nat.isDigit_of_mem_toDigits (by decide) (by decide) h
  rw [Char.isDigit, Bool.and_eq_true, decide_eq_true_eq, decide_eq_true_eq] at hdigit
  rw [isDigit, Bool.and_eq_true, decide_eq_true_eq, decide_eq_true_eq]
  exact hdigit

/-- The name of a variable of `main` looks like one. -/
theorem isLocal_localName (symbol : SymbolId) : isLocal (localName symbol) = true := by
  rw [isLocal, toList_localName, isLocalChars, Bool.and_eq_true, List.all_eq_true]
  refine ⟨?_, fun c hc => isDigit_of_mem_toDigits hc⟩
  rw [Bool.not_eq_true', List.isEmpty_eq_false_iff]
  exact Nat.toDigits_ne_nil

/-- Different symbols have different names in `main`. -/
theorem localName_injective {a b : SymbolId} (h : localName a = localName b) : a = b := by
  have hdigits : Nat.toDigits 10 a.index = Nat.toDigits 10 b.index := by
    have hlist := congrArg String.toList h
    rw [toList_localName, toList_localName] at hlist
    exact (List.cons.inj hlist).2
  have hindex : a.index = b.index := by
    rw [← @Nat.ofDigitChars_toDigits 10 a.index (by decide) (by decide), hdigits,
      Nat.ofDigitChars_toDigits (by decide) (by decide)]
  obtain ⟨_⟩ := a
  obtain ⟨_⟩ := b
  exact congrArg SymbolId.mk hindex

/-- With an underscore at its end, a name is not that of a local variable. -/
theorem isLocalChars_append_underscore (cs : List Char) : isLocalChars (cs ++ ['_']) = false := by
  cases cs with
  | nil => rfl
  | cons c cs =>
    rw [List.cons_append]
    unfold isLocalChars
    split
    · rename_i rest heq
      obtain ⟨-, rfl⟩ := List.cons.inj heq
      simp [isDigit]
    · rfl

/-- No identifier looks like a variable of `main`. -/
theorem isLocal_identFor (name : String) : isLocal (identFor name) = false := by
  unfold identFor
  split
  · rw [isLocal, String.toList_append]
    exact isLocalChars_append_underscore name.toList
  · rename_i h
    exact (Bool.or_eq_false_iff.1 (Bool.not_eq_true _ ▸ h)).2

/-- No input or output is spelled as a reserved word that does not end with an underscore. -/
theorem identFor_ne {word : String} (hr : isReserved word = true) (he : word.toList.getLast? ≠ some '_') (name : String) :
    identFor name ≠ word := by
  unfold identFor
  split
  · rintro rfl
    refine he ?_
    rw [String.toList_append]
    exact List.getLast?_concat
  · rename_i h
    rintro rfl
    rw [hr] at h
    exact h rfl

theorem mem_of_lookup {globals : Globals} {symbol : SymbolId} {ident : String} (h : globals.lookup symbol = some ident) :
    (symbol, ident) ∈ globals := by
  obtain ⟨before, after, rfl, -⟩ := List.lookup_eq_some_iff.1 h
  simp

/-- In a scope whose inputs and outputs are told apart, symbols that are spelled alike are the same. -/
theorem Scope.symbol_eq_of_spelling_eq {scope : Scope} (hn : (scope.globals.map Prod.snd).Nodup)
    (hl : ∀ ident ∈ scope.globals.map Prod.snd, isLocal ident = false) {a b : SymbolId}
    (h : (scope.variableOf a).spelling = (scope.variableOf b).spelling) : a = b := by
  have clash : ∀ {symbol other : SymbolId} {ident : String}, scope.globals.lookup symbol = some ident →
      ident ≠ localName other := by
    rintro symbol other _ hlookup rfl
    have hglobal := hl _ (List.mem_map_of_mem (mem_of_lookup hlookup))
    rw [isLocal_localName] at hglobal
    cases hglobal
  unfold Scope.variableOf at h
  simp only at h
  cases ha : scope.globals.lookup a with
  | none =>
    cases hb : scope.globals.lookup b with
    | none =>
      rw [ha, hb] at h
      exact localName_injective h
    | some j =>
      rw [ha, hb] at h
      exact absurd h.symm (clash hb)
  | some i =>
    cases hb : scope.globals.lookup b with
    | none =>
      rw [ha, hb] at h
      exact absurd h (clash ha)
    | some j =>
      rw [ha, hb] at h
      have hsame := List.inj_on_of_nodup_map hn (mem_of_lookup ha) (mem_of_lookup hb) h
      exact congrArg Prod.fst hsame

end ShaderTrace.Glsl
