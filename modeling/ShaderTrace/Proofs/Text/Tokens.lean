import ShaderTrace.Proofs.Generator.Naming

/-!
# Tokens

A text of the target language is cut into tokens from left to right, and every token is as long as it can be. So whether a
piece of text keeps its tokens when more text follows depends on one character, the first of what follows: `Spelled after
text tokens` says that `text` is cut into `tokens` whatever follows it, as long as that begins with a character of `after`.
The texts of expressions are put together from such pieces (`Spelled.append`).
-/

namespace ShaderTrace.Glsl.Grammar

open Identifier

/-- A constant as the language reads it. No number has a sign, and a number with a fraction or an exponent is what it is
spelled as. -/
inductive Constant where
  | bool (value : Bool)
  | int (value : Nat)
  | uint (value : Nat)
  | float (spelling : String)
deriving DecidableEq

inductive Token where
  | word (name : String)
  | constant (value : Constant)
  /-- An operator or a mark of punctuation. -/
  | sign (text : String)
deriving DecidableEq

/-- The operators and marks of the language, those included that no expression here has. -/
def signs : List (List Char) :=
  ["(", ")", "[", "]", ".", ",", ";", ":", "?", "=", "+", "-", "*", "/", "%", "<", ">", "!", "~", "&", "|", "^", "++", "--",
    "<<", ">>", "<=", ">=", "==", "!=", "&&", "||", "^^", "+=", "-=", "*=", "/=", "%=", "&=", "|=", "^=", "<<=",
    ">>="].map String.toList

/-- How far a token has been read. -/
inductive TokenForm where
  | word
  | sign
  /-- Digits only. -/
  | whole
  /-- Digits and the letter of a number without sign. -/
  | unsigned
  /-- Digits with a point, and perhaps more digits. -/
  | fraction
  /-- The letter before an exponent has been read, -/
  | mark
  /-- then the sign of the exponent, -/
  | markSign
  /-- then digits of it. -/
  | power
  /-- A number with a fraction or an exponent, and the letter after it. -/
  | single
  /-- A comment, which no expression has. -/
  | comment
deriving DecidableEq

/-- A token that may not be complete, and what has been read of it. -/
structure Lexeme where
  form : TokenForm
  text : List Char
deriving DecidableEq

/-- What a number of a form becomes with one more character. -/
def nextOfNumber? (form : TokenForm) (c : Char) : Option TokenForm :=
  if isDigit c then
    match form with
    | .whole => some .whole
    | .fraction => some .fraction
    | .mark | .markSign | .power => some .power
    | _ => none
  else
    match form with
    | .whole =>
      if c = '.' then some .fraction else if c ∈ ['e', 'E'] then some .mark
      else if c ∈ ['u', 'U'] then some .unsigned else none
    | .fraction => if c ∈ ['e', 'E'] then some .mark else if c ∈ ['f', 'F'] then some .single else none
    | .mark => if c ∈ ['+', '-'] then some .markSign else none
    | .power => if c ∈ ['f', 'F'] then some .single else none
    | _ => none

/-- What a sign becomes with one more character: a longer sign, a number that begins with its point, or a comment. -/
def nextOfSign? (text : List Char) (c : Char) : Option TokenForm :=
  if text = ['.'] ∧ isDigit c then some .fraction
  else if text = ['/'] ∧ c ∈ ['/', '*'] then some .comment
  else if text ++ [c] ∈ signs then some .sign else none

namespace Lexeme

def next? (lexeme : Lexeme) (c : Char) : Option TokenForm :=
  match lexeme.form with
  | .word => if isContinue c then some .word else none
  | .sign => nextOfSign? lexeme.text c
  | .comment => some .comment
  | form => nextOfNumber? form c

/-- The token with one more character, if it can have that. -/
def grow? (lexeme : Lexeme) (c : Char) : Option Lexeme :=
  (lexeme.next? c).map fun form => ⟨form, lexeme.text ++ [c]⟩

/-- The token that begins with a character. -/
def begin? (c : Char) : Option Lexeme :=
  if isStart c then some ⟨.word, [c]⟩
  else if isDigit c then some ⟨.whole, [c]⟩
  else if [c] ∈ signs then some ⟨.sign, [c]⟩ else none

/-- The value of a numeral. One that begins with a zero and goes on is octal, which no expression here has. -/
def value? (digits : List Char) : Option Nat :=
  if digits.head? = some '0' ∧ 1 < digits.length then none else some (Nat.ofDigitChars 10 digits 0)

/-- What has been read is a token. -/
def token? (lexeme : Lexeme) : Option Token :=
  match lexeme.form with
  | .word =>
    if lexeme.text = "true".toList then some (.constant (.bool true))
    else if lexeme.text = "false".toList then some (.constant (.bool false))
    else some (.word (String.ofList lexeme.text))
  | .sign => some (.sign (String.ofList lexeme.text))
  | .whole => (value? lexeme.text).map fun n => .constant (.int n)
  | .unsigned => (value? lexeme.text.dropLast).map fun n => .constant (.uint n)
  | .fraction | .power | .single => some (.constant (.float (String.ofList lexeme.text)))
  | .mark | .markSign | .comment => none

end Lexeme

/-- What a character begins that belongs to no token before it: nothing if it is blank. -/
def start? (c : Char) : Option (Option Lexeme) :=
  if c ∈ [' ', '\t', '\n'] then some none else (Lexeme.begin? c).map some

/-- The tokens of a text of which `pending` is read already. A character goes to the token before it if that can have it. -/
def lexFrom : (pending : Option Lexeme) → List Char → Option (List Token)
  | pending, [] => pending.toList.mapM Lexeme.token?
  | pending, c :: cs =>
    match pending.bind (·.grow? c) with
    | some lexeme => lexFrom (some lexeme) cs
    | none => do
      let done ← pending.toList.mapM Lexeme.token?
      let next ← start? c
      return done ++ (← lexFrom next cs)

def lex (text : String) : Option (List Token) := lexFrom none text.toList

example : lex "a<=-1.5e-3f" =
    some [.word "a", .sign "<=", .sign "-", .constant (.float "1.5e-3f")] := by decide +kernel

/-! ## Pieces of text -/

/-- A character that a lexeme takes joins it. -/
theorem lexFrom_of_grow {lexeme lexeme' : Lexeme} {c : Char} (h : lexeme.grow? c = some lexeme') (cs : List Char) :
    lexFrom (some lexeme) (c :: cs) = lexFrom (some lexeme') cs := by
  rw [lexFrom, Option.bind_some, h]

/-- Characters that a lexeme takes one by one join it. -/
theorem lexFrom_of_grows {lexeme lexeme' : Lexeme} {text : List Char} (h : text.foldlM Lexeme.grow? lexeme = some lexeme')
    (rest : List Char) : lexFrom (some lexeme) (text ++ rest) = lexFrom (some lexeme') rest := by
  induction text generalizing lexeme with
  | nil =>
    cases h
    rfl
  | cons c cs ih =>
    rw [List.foldlM_cons] at h
    obtain ⟨grown, hgrown, h⟩ := Option.bind_eq_some_iff.1 h
    rw [List.cons_append, lexFrom_of_grow hgrown]
    exact ih h

/-- A token that cannot have the next character is complete. -/
theorem lexFrom_of_stop {lexeme : Lexeme} {token : Token} {rest : List Char} (ht : lexeme.token? = some token)
    (h : ∀ c ∈ rest.head?, lexeme.next? c = none) :
    lexFrom (some lexeme) rest = (lexFrom none rest).map (token :: ·) := by
  have hdone : (some lexeme).toList.mapM Lexeme.token? = some [token] := by simp [ht]
  cases rest with
  | nil => rw [lexFrom, hdone]; rfl
  | cons c cs =>
    have hgrow : lexeme.grow? c = none := by rw [Lexeme.grow?, h c rfl, Option.map_none]
    rw [lexFrom, lexFrom, Option.bind_some, hgrow, hdone]
    cases hnext : start? c with
    | none => rfl
    | some next => cases hrest : lexFrom next cs <;> simp [hrest]

/-- The text is cut into the tokens if what follows begins with a character of `after`, or if nothing follows. -/
def Spelled (after : Char → Prop) (text : List Char) (tokens : List Token) : Prop :=
  ∀ rest : List Char, (∀ c ∈ rest.head?, after c) → lexFrom none (text ++ rest) = (lexFrom none rest).map (tokens ++ ·)

section Pieces

variable {after after' : Char → Prop} {text text' : List Char} {tokens tokens' : List Token}

/-- A spelling stays one if fewer characters may follow. -/
theorem Spelled.mono (h : Spelled after text tokens) (hafter : ∀ c, after' c → after c) : Spelled after' text tokens :=
  fun rest hrest => h rest fun c hc => hafter c (hrest c hc)

/-- Two pieces of text, of which the second begins with a character that may follow the first. -/
theorem Spelled.append (h : Spelled after text tokens) (h' : Spelled after' text' tokens')
    (hhead : ∃ c ∈ text'.head?, after c) : Spelled after' (text ++ text') (tokens ++ tokens') := by
  intro rest hrest
  have hfollow : ∀ c ∈ (text' ++ rest).head?, after c := by
    obtain ⟨c, hc, hafter⟩ := hhead
    rw [List.head?_append, hc, Option.some_or]
    rintro _ ⟨⟩
    exact hafter
  rw [List.append_assoc, h _ hfollow, h' rest hrest, Option.map_map]
  simp only [Function.comp_def, List.append_assoc]

/-- The same where anything may follow the first piece. -/
theorem Spelled.append_any (h : Spelled (fun _ => True) text tokens) (h' : Spelled after' text' tokens') :
    Spelled after' (text ++ text') (tokens ++ tokens') := by
  intro rest hrest
  rw [List.append_assoc, h _ fun _ _ => trivial, h' rest hrest, Option.map_map]
  simp only [Function.comp_def, List.append_assoc]

theorem spelled_nil : Spelled (fun _ => True) [] [] := by
  intro rest _
  simp

theorem spelled_blank : Spelled (fun _ => True) [' '] [] := by
  intro rest _
  have hstart : start? ' ' = some none := by decide
  rw [List.singleton_append, lexFrom, Option.bind_none, hstart]
  cases h : lexFrom none rest <;> simp [h]

/-- What is spelled is what the text is broken up into. -/
theorem lex_of_spelled {text : String} (h : Spelled after text.toList tokens) : lex text = some tokens := by
  rw [lex, ← List.append_nil text.toList, h [] (by simp)]
  simp [lexFrom]

/-- A token is read from its first character on. -/
theorem spelled_token {first last : Lexeme} {c : Char} {cs : List Char} {token : Token} (hbegin : Lexeme.begin? c = some first)
    (hgrows : cs.foldlM Lexeme.grow? first = some last) (ht : last.token? = some token) :
    Spelled (last.next? · = none) (c :: cs) [token] := by
  intro rest hrest
  have hstart : start? c = some (some first) := by
    have hblank : [' ', '\t', '\n'].all (Lexeme.begin? · = none) = true := by decide
    have hc : c ∉ [' ', '\t', '\n'] := by
      intro hc
      rw [of_decide_eq_true (List.all_eq_true.1 hblank c hc)] at hbegin
      cases hbegin
    rw [start?, if_neg hc, hbegin, Option.map_some]
  rw [List.cons_append, lexFrom, Option.bind_none, hstart]
  show (lexFrom (some first) (cs ++ rest)).bind (fun tokens => some tokens) = _
  rw [Option.bind_fun_some, lexFrom_of_grows hgrows, lexFrom_of_stop ht hrest]
  rfl

end Pieces

/-! ## Words and signs -/

/-- A token of a form takes the text and is then of another form. -/
def Takes (form : TokenForm) (text : List Char) (form' : TokenForm) : Prop :=
  ∀ before : List Char, text.foldlM Lexeme.grow? ⟨form, before⟩ = some ⟨form', before ++ text⟩

theorem takes_nil (form : TokenForm) : Takes form [] form := by
  intro before
  rw [List.append_nil]
  rfl

/-- A form takes a text in two parts. -/
theorem Takes.append {form form' form'' : TokenForm} {text text' : List Char} (h : Takes form text form')
    (h' : Takes form' text' form'') : Takes form (text ++ text') form'' := by
  intro before
  rw [List.foldlM_append, h before]
  exact (h' _).trans (by rw [List.append_assoc])

/-- A form takes a character. -/
theorem takes_one {form form' : TokenForm} {c : Char} (h : ∀ text, Lexeme.next? ⟨form, text⟩ c = some form') :
    Takes form [c] form' := by
  intro before
  rw [List.foldlM_cons, Lexeme.grow?, h before]
  rfl

/-- A form takes any number of the characters that leave it as it is. -/
theorem takes_all {form : TokenForm} {text : List Char} (h : ∀ c ∈ text, Takes form [c] form) : Takes form text form := by
  induction text with
  | nil => exact takes_nil form
  | cons c cs ih =>
    have hrest := ih fun d hd => h d (List.mem_cons_of_mem c hd)
    exact (h c List.mem_cons_self).append hrest

/-- The text is a word that stands for something, and no constant. -/
def IsName (name : String) : Prop := isIdentifier name = true ∧ name ≠ "true" ∧ name ≠ "false"

instance (name : String) : Decidable (IsName name) := inferInstanceAs (Decidable (_ ∧ _))

/-- A name is a word, if it does not go on. -/
theorem spelled_word {name : String} (h : IsName name) :
    Spelled (isContinue · = false) name.toList [.word name] := by
  obtain ⟨hident, htrue, hfalse⟩ := h
  have ht : Lexeme.token? ⟨.word, name.toList⟩ = some (.word name) := by
    rw [Lexeme.token?, if_neg (String.toList_inj.not.2 htrue), if_neg (String.toList_inj.not.2 hfalse), String.ofList_toList]
  rw [isIdentifier] at hident
  cases hname : name.toList with
  | nil =>
    rw [hname] at hident
    cases hident
  | cons c cs =>
    rw [hname] at hident ht
    rw [isIdentifierChars, Bool.and_eq_true, List.all_eq_true] at hident
    have htakes : Takes .word cs .word := takes_all fun d hd => takes_one fun text => if_pos (hident.2 d hd)
    refine (spelled_token (if_pos hident.1) (htakes [c]) ht).mono fun d hd => ?_
    rw [Lexeme.next?, hd]
    rfl

/-- A truth value is a constant, if it does not go on. -/
theorem spelled_bool (value : Bool) :
    Spelled (isContinue · = false) (toString value).toList [.constant (.bool value)] := by
  have hnext : ∀ text c, isContinue c = false → Lexeme.next? ⟨.word, text⟩ c = none := by
    intro text c hc
    rw [Lexeme.next?, hc]
    rfl
  cases value with
  | true => exact (@spelled_token ⟨.word, ['t']⟩ ⟨.word, "true".toList⟩ 't' "rue".toList _ rfl rfl rfl).mono (hnext _)
  | false => exact (@spelled_token ⟨.word, ['f']⟩ ⟨.word, "false".toList⟩ 'f' "alse".toList _ rfl rfl rfl).mono (hnext _)

/-- Every beginning of a sign is a sign, so a sign is read as a whole. -/
theorem spelled_sign {sign : String} (h : sign.toList ∈ signs) :
    Spelled (nextOfSign? sign.toList · = none) sign.toList [.sign sign] := by
  have hall : ∀ text ∈ signs, ((text.head?.bind Lexeme.begin?).bind fun first => text.tail.foldlM Lexeme.grow? first) =
      some ⟨.sign, text⟩ := by decide
  obtain ⟨first, hfirst, hgrows⟩ := Option.bind_eq_some_iff.1 (hall _ h)
  obtain ⟨c, hc, hbegin⟩ := Option.bind_eq_some_iff.1 hfirst
  have ht : Lexeme.token? ⟨.sign, sign.toList⟩ = some (.sign sign) := by
    rw [Lexeme.token?, String.ofList_toList]
  have htext : c :: sign.toList.tail = sign.toList := List.cons_head?_tail hc
  have hspelled := spelled_token hbegin hgrows ht
  rw [htext] at hspelled
  exact hspelled

/-- A mark that no longer sign begins with does not grow, but for the point of a number. -/
theorem nextOfSign?_mark {mark c : Char} (h : mark ∈ ['(', ')', ',', '.']) (hpoint : mark = '.' → isDigit c = false) :
    nextOfSign? [mark] c = none := by
  have hlonger : ['(', ')', ',', '.'].all (fun mark => mark ≠ '/' ∧
      ∀ sign ∈ signs, sign.head? = some mark → sign.length = 1) = true := by decide
  obtain ⟨hslash, hlone⟩ := of_decide_eq_true (List.all_eq_true.1 hlonger mark h)
  rw [nextOfSign?, if_neg, if_neg, if_neg]
  · intro hmem
    exact absurd (hlone _ hmem rfl) (by simp)
  · rintro ⟨heq, -⟩
    exact hslash (List.cons.inj heq).1
  · rintro ⟨heq, hdigit⟩
    rw [hpoint (List.cons.inj heq).1] at hdigit
    cases hdigit

/-- A parenthesis or a comma is a sign, whatever follows. -/
theorem spelled_mark {mark : String} (h : mark ∈ ["(", ")", ","]) : Spelled (fun _ => True) mark.toList [.sign mark] := by
  simp only [List.mem_cons, List.not_mem_nil, or_false] at h
  rcases h with rfl | rfl | rfl <;>
    exact (spelled_sign (by decide)).mono fun _ _ => nextOfSign?_mark (by decide) fun heq => absurd heq (by decide)

/-- A point is a sign, if no digit follows. -/
theorem spelled_point : Spelled (isDigit · = false) ".".toList [.sign "."] :=
  (@spelled_sign "." (by decide)).mono fun _ hc => nextOfSign?_mark (by decide) fun _ => hc

/-! ## Numerals -/

/-- A character that may follow any expression. -/
def IsBreak (c : Char) : Prop := c ∈ [' ', ')', ',']

instance (c : Char) : Decidable (IsBreak c) := inferInstanceAs (Decidable (_ ∈ _))

def decimalDigits : List Char := ['0', '1', '2', '3', '4', '5', '6', '7', '8', '9']

/-- What is checked digit by digit holds of every digit. -/
theorem forall_digits {p : Char → Prop} [DecidablePred p] (h : decimalDigits.all (fun c => p c) = true) {c : Char}
    (hc : isDigit c = true) : p c := by
  have hall : ∀ n < 58, 48 ≤ n → Char.ofNat n ∈ decimalDigits := by decide
  rw [isDigit, Bool.and_eq_true, decide_eq_true_eq, decide_eq_true_eq] at hc
  have hmem := hall c.toNat (Nat.lt_succ_of_le hc.2) hc.1
  rw [Char.ofNat_toNat] at hmem
  exact of_decide_eq_true (List.all_eq_true.1 h c hmem)

/-- Each part of a numeral takes digits. -/
theorem takes_digits {form : TokenForm} {digits : List Char} (hform : form ∈ [.whole, .fraction, .power])
    (h : ∀ c ∈ digits, isDigit c = true) : Takes form digits form := by
  refine takes_all fun c hc => takes_one fun text => ?_
  rw [List.mem_cons, List.mem_cons, List.mem_singleton] at hform
  rcases hform with rfl | rfl | rfl <;> exact if_pos (h c hc)

/-- A number is read from its first digit on, and no break belongs to it. -/
theorem spelled_number {form : TokenForm} {digit : Char} {text : List Char} {token : Token}
    (hform : form ∈ [.whole, .unsigned, .fraction, .power]) (hdigit : isDigit digit = true) (htakes : Takes .whole text form)
    (ht : Lexeme.token? ⟨form, digit :: text⟩ = some token) : Spelled IsBreak (digit :: text) [token] := by
  have hbegin : Lexeme.begin? digit = some ⟨.whole, [digit]⟩ :=
    forall_digits (by decide : decimalDigits.all fun c => Lexeme.begin? c = some ⟨.whole, [c]⟩) hdigit
  have hnext : ∀ form ∈ [TokenForm.whole, .unsigned, .fraction, .power],
      [' ', ')', ','].all (nextOfNumber? form · = none) = true := by decide
  refine (spelled_token hbegin (htakes [digit]) ht).mono fun c hc => ?_
  have hnone := of_decide_eq_true (List.all_eq_true.1 (hnext form hform) c hc)
  simp only [List.mem_cons, List.not_mem_nil, or_false] at hform
  rcases hform with rfl | rfl | rfl | rfl <;> exact hnone

end ShaderTrace.Glsl.Grammar
