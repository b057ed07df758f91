import Mathlib.Data.List.TakeWhile
import ShaderTrace.Proofs.Text.Grammar

/-!
# Texts that stand for operator trees

`Written category after text es` says that a text is cut into tokens that stand for `es`, whatever follows it, as long as that
begins with a character of `after`. The texts of expressions keep to it part by part: each lemma puts a text together in one of
the ways in which expressions are spelled. The constants are spelled so that they keep to it too (`written_literal`): a number
has digits around its point and after the letter of its exponent, and one with a minus sign is an operand as a whole.
-/

namespace ShaderTrace

/-! ## Shortest decimals have digits -/

/-- A numeral begins with a zero only if it is that of zero. -/
theorem head?_toDigits {n : Nat} (h : 0 < n) : (Nat.toDigits 10 n).head? ≠ some '0' := by
  induction n using Nat.strongRecOn with
  | ind n ih =>
    by_cases hlt : n < 10
    · have hdigit : ∀ n < 10, 0 < n → n.digitChar ≠ '0' := by decide
      rw [Nat.toDigits_of_lt_base hlt]
      simpa using hdigit n hlt h
    · have hrest := ih (n / 10) (by omega) (by omega)
      rw [Nat.toDigits_of_base_le (by decide) (by omega), List.head?_append_of_ne_nil _ Nat.toDigits_ne_nil]
      exact hrest

namespace Interval

variable {interval : Interval} {decimal : Decimal}

/-- Nothing that is not above zero lies in an interval that is. -/
theorem digits_pos_of_holds (hlower : 0 < interval.lower) (h : interval.holds decimal = true) : 0 < decimal.digits := by
  rcases Nat.eq_zero_or_pos decimal.digits with hzero | hpos
  · have hbelow : decimal.compareFraction interval.lower interval.denominator = .lt := by
      rw [Decimal.compareFraction, hzero, Nat.compare_eq_lt, Nat.zero_mul, Nat.zero_mul]
      exact Nat.mul_pos hlower (Nat.pow_pos (by decide))
    simp [holds, hbelow] at h
  · exact hpos

/-- The nearest decimal passes the test of the interval. -/
theorem holds_of_nearest? {exponent : Int} (h : interval.nearest? exponent = some decimal) : interval.holds decimal = true := by
  unfold nearest? at h
  simp only at h
  split at h
  · rename_i hbelow habove
    split at h <;> cases h
    · exact hbelow
    · exact habove
  · rename_i hbelow _
    cases h
    exact hbelow
  · rename_i _ habove
    cases h
    exact habove
  · cases h

/-- The shortest decimal is positive if the interval is. -/
theorem digits_shortest_pos (hlower : 0 < interval.lower) (hvalue : 0 < interval.value) (highest : Int) (range places : Nat) :
    0 < (interval.shortest highest range places).digits := by
  unfold shortest
  simp only
  cases h : (List.range places).findSome? fun (i : Nat) =>
      interval.nearest? (interval.leadingExponent highest range - i) with
  | none => exact Nat.mul_pos hvalue (Nat.pow_pos (by decide))
  | some found =>
    obtain ⟨_, -, hnearest⟩ := List.exists_of_findSome?_eq_some h
    exact digits_pos_of_holds hlower (holds_of_nearest? hnearest)

end Interval

/-- The decimal of a number that is not zero is not zero. -/
theorem Binary32.digits_decimal_pos {x : Binary32} (h : x.magnitude ≠ 0) : 0 < x.decimal.digits := by
  have hgap : 0 < x.gap := Nat.pow_pos (by decide)
  have hle : x.gap ≤ x.magnitude := by
    have hsignificand : 0 < x.significand := Nat.pos_of_ne_zero fun hzero => h (by rw [magnitude, hzero, Nat.zero_mul])
    exact Nat.le_mul_of_pos_left _ hsignificand
  have hlower : 0 < x.interval.lower := by
    show 0 < 4 * x.magnitude - (if x.isNarrowBelow then x.gap else 2 * x.gap)
    split <;> omega
  exact Interval.digits_shortest_pos hlower (Nat.mul_pos (by decide) (Nat.pos_of_ne_zero h)) 38 84 9

/-- Without the zeros at its end, the numeral of a number other than zero still has digits. -/
theorem Decimal.written_ne_nil {decimal : Decimal} (h : 0 < decimal.digits) : decimal.written.1 ≠ [] := by
  intro hnil
  rw [written, List.reverse_eq_nil_iff, List.dropWhile_eq_nil_iff] at hnil
  have hzeros : Nat.toDigits 10 decimal.digits = List.replicate (Nat.toDigits 10 decimal.digits).length '0' :=
    List.eq_replicate_of_mem fun c hc => beq_iff_eq.1 (hnil c (List.mem_reverse.2 hc))
  refine head?_toDigits h ?_
  rw [hzeros, List.head?_replicate, if_neg]
  rw [List.length_eq_zero_iff]
  exact Nat.toDigits_ne_nil

/-- A decimal is written in digits. -/
theorem Decimal.isDigit_written {decimal : Decimal} {c : Char} (h : c ∈ decimal.written.1) : Identifier.isDigit c = true := by
  have hmem := (List.dropWhile_sublist _).subset (List.mem_reverse.1 h)
  exact Glsl.isDigit_of_mem_toDigits (List.mem_reverse.1 hmem)

namespace Glsl.Grammar

open Identifier

def Written (category : Category) (after : Char → Prop) (text : String) (es : List Phrase) : Prop :=
  ∃ tokens, Spelled after text.toList tokens ∧ Derives category tokens es

/-- No name goes on with a break. -/
theorem isContinue_of_isBreak {c : Char} (h : IsBreak c) : isContinue c = false := by
  have hall : [' ', ')', ','].all (isContinue · = false) = true := by decide
  exact of_decide_eq_true (List.all_eq_true.1 hall c h)

section Parts

variable {after : Char → Prop} {text left right : String} {e l r : Phrase} {es : List Phrase}

/-- What needs no parentheses may be an operand, if a break may follow it. -/
theorem Written.operand (h : Written .simple after text [e]) (hafter : ∀ c, IsBreak c → after c) :
    Written .operand IsBreak text [e] := by
  obtain ⟨tokens, hspelled, hderives⟩ := h
  exact ⟨tokens, hspelled.mono hafter, .simple hderives⟩

/-- What is written as an operand is read as it. -/
theorem Written.reads (h : Written .operand after text [e]) : Reads text e := by
  obtain ⟨tokens, hspelled, hderives⟩ := h
  exact ⟨tokens, lex_of_spelled hspelled, .operand hderives 0⟩

/-- A name is written as it. -/
theorem written_name {name : String} (h : IsName name) : Written .simple (isContinue · = false) name [.name name] :=
  ⟨_, spelled_word h, .name name⟩

/-- What stands in parentheses, with anything after it. -/
theorem written_group {tokens : List Token} (h : Spelled IsBreak text.toList tokens)
    (hderives : Derives (.operation 0) tokens [e]) : Written .simple (fun _ => True) ("(" ++ text ++ ")") [e] := by
  have hopen := (@spelled_mark "(" (by decide)).append_any h
  have hclose := hopen.append (@spelled_mark ")" (by decide)) ⟨')', rfl, by decide⟩
  refine ⟨_, ?_, .group hderives⟩
  simpa using hclose

/-- A sign before parentheses is written as an operation. -/
theorem written_unary (op : UnaryOp) (h : Written .operand IsBreak text [e]) :
    Written .operand IsBreak (op.sign ++ "(" ++ text ++ ")") [.unary op e] := by
  obtain ⟨tokens, hspelled, hderives⟩ := h
  obtain ⟨group, hgroup, hoperand⟩ := (written_group hspelled (.operand hderives 0)).operand fun _ _ => trivial
  have hsign : op.sign.toList ∈ signs ∧ nextOfSign? op.sign.toList '(' = none := by cases op <;> decide
  have happend := (spelled_sign hsign.1).append hgroup ⟨'(', by simp, hsign.2⟩
  refine ⟨_, ?_, .unary op hoperand⟩
  simpa using happend

/-- A sign between operands, all in parentheses, is written as an operation. -/
theorem written_binary (op : BinaryOp) (hl : Written .operand IsBreak left [l]) (hr : Written .operand IsBreak right [r]) :
    Written .simple (fun _ => True) ("(" ++ left ++ " " ++ op.sign ++ " " ++ right ++ ")") [.binary op l r] := by
  obtain ⟨leftTokens, hleft, hl⟩ := hl
  obtain ⟨rightTokens, hright, hr⟩ := hr
  have hsign : op.sign.toList ∈ signs ∧ nextOfSign? op.sign.toList ' ' = none := by cases op <;> decide
  -- the blanks keep the operator apart from the signs that its operands may begin with
  have hoperator := (spelled_sign hsign.1).append (spelled_blank.append_any hright) ⟨' ', rfl, hsign.2⟩
  have hall := hleft.append (spelled_blank.append_any hoperator) ⟨' ', rfl, by decide⟩
  have hderives := Derives.binary op (Nat.zero_le _) (.operand hl _) (.operand hr _)
  have hgroup := @written_group (left ++ " " ++ op.sign ++ " " ++ right) _ _ (by simpa using hall) hderives
  simpa [String.append_assoc] using hgroup

/-- A name does not begin as a number does. -/
theorem exists_head_of_isName {name : String} (h : IsName name) : ∃ c ∈ name.toList.head?, isDigit c = false := by
  have hident := h.1
  rw [isIdentifier] at hident
  cases hname : name.toList with
  | nil =>
    rw [hname] at hident
    cases hident
  | cons c cs =>
    rw [hname, isIdentifierChars, Bool.and_eq_true] at hident
    refine ⟨c, rfl, Bool.eq_false_iff.2 fun hdigit => ?_⟩
    rw [forall_digits (by decide : decimalDigits.all (isStart · = false)) hdigit] at hident
    cases hident.1

/-- A lane after a point is written as a field. -/
theorem written_field (h : Written .simple after text [e]) (hpoint : after '.') {lanes : String} (hlanes : IsName lanes) :
    Written .simple (isContinue · = false) (text ++ "." ++ lanes) [.field e lanes] := by
  obtain ⟨tokens, hspelled, hderives⟩ := h
  have hobject := hspelled.append spelled_point ⟨'.', rfl, hpoint⟩
  have hfield := hobject.append (spelled_word hlanes) (exists_head_of_isName hlanes)
  refine ⟨_, ?_, .field hderives lanes⟩
  simpa using hfield

/-- A name before arguments in parentheses is written as a call. -/
theorem written_call {function : String} (hname : IsName function) (h : Written .arguments IsBreak text es) :
    Written .simple (fun _ => True) (function ++ "(" ++ text ++ ")") [.call function es] := by
  obtain ⟨tokens, hspelled, hderives⟩ := h
  have hopen := (spelled_word hname).append (@spelled_mark "(" (by decide)) ⟨'(', rfl, by decide⟩
  have hclose := (hopen.append_any hspelled).append (@spelled_mark ")" (by decide)) ⟨')', rfl, by decide⟩
  refine ⟨_, ?_, .call function hderives⟩
  simpa using hclose

/-- An operand is written as an argument. -/
theorem written_argument (h : Written .operand after text [e]) : Written .arguments after text [e] := by
  obtain ⟨tokens, hspelled, hderives⟩ := h
  exact ⟨tokens, hspelled, .argument (.operand hderives 0)⟩

/-- Operands between commas are written as arguments. -/
theorem written_arguments {rest : String} {next : Phrase} (h : Written .operand IsBreak text [e])
    (hrest : Written .arguments after rest (next :: es)) :
    Written .arguments after (text ++ ", " ++ rest) (e :: next :: es) := by
  obtain ⟨tokens, hspelled, hderives⟩ := h
  obtain ⟨restTokens, hspelledRest, hderivesRest⟩ := hrest
  have hcomma := (@spelled_mark "," (by decide)).append_any (spelled_blank.append_any hspelledRest)
  have hall := hspelled.append hcomma ⟨',', rfl, by decide⟩
  refine ⟨_, ?_, .arguments (.operand hderives 0) hderivesRest⟩
  simpa using hall

end Parts

/-! ## Whole numbers -/

/-- The digits of a number have its value. -/
theorem value?_toDigits (n : Nat) : Lexeme.value? (Nat.toDigits 10 n) = some n := by
  have hoctal : ¬((Nat.toDigits 10 n).head? = some '0' ∧ 1 < (Nat.toDigits 10 n).length) := by
    rintro ⟨hhead, hlen⟩
    rcases Nat.eq_zero_or_pos n with rfl | hpos
    · exact absurd hlen (by decide)
    · exact head?_toDigits hpos hhead
  rw [Lexeme.value?, if_neg hoctal, Nat.ofDigitChars_toDigits (by decide) (by decide)]

/-- A number has a first digit. -/
theorem exists_cons_toDigits (n : Nat) : ∃ digit digits, Nat.toDigits 10 n = digit :: digits ∧ isDigit digit = true ∧
    ∀ c ∈ digits, isDigit c = true := by
  obtain ⟨digit, digits, h⟩ := List.exists_cons_of_ne_nil (@Nat.toDigits_ne_nil n 10)
  have hall : ∀ c ∈ digit :: digits, isDigit c = true := fun c hc => isDigit_of_mem_toDigits (h ▸ hc)
  exact ⟨digit, digits, h, hall digit List.mem_cons_self, fun c hc => hall c (List.mem_cons_of_mem digit hc)⟩

/-- The digits of a number spell it. -/
theorem spelled_int (n : Nat) : Spelled IsBreak (Nat.toDigits 10 n) [.constant (.int n)] := by
  obtain ⟨digit, digits, h, hdigit, hdigits⟩ := exists_cons_toDigits n
  have ht : Lexeme.token? ⟨.whole, digit :: digits⟩ = some (.constant (.int n)) := by
    rw [Lexeme.token?, ← h, value?_toDigits, Option.map_some]
  rw [h]
  exact spelled_number (by decide) hdigit (takes_digits (by decide) hdigits) ht

/-- The digits of a number with a `u` after them spell it without a sign. -/
theorem spelled_uint (n : Nat) : Spelled IsBreak (Nat.toDigits 10 n ++ ['u']) [.constant (.uint n)] := by
  obtain ⟨digit, digits, h, hdigit, hdigits⟩ := exists_cons_toDigits n
  have htakes : Takes .whole (digits ++ ['u']) .unsigned :=
    (takes_digits (by decide) hdigits).append (takes_one fun _ => rfl)
  have ht : Lexeme.token? ⟨.unsigned, digit :: (digits ++ ['u'])⟩ = some (.constant (.uint n)) := by
    rw [Lexeme.token?, ← List.cons_append, List.dropLast_concat, ← h, value?_toDigits, Option.map_some]
  rw [h, List.cons_append]
  exact spelled_number (by decide) hdigit htakes ht

/-! ## Numbers with a fraction or an exponent -/

/-- The text is that of one number with a fraction or an exponent. -/
def IsFloat (text : List Char) : Prop :=
  ∃ digit rest form, text = digit :: rest ∧ isDigit digit = true ∧ form ∈ [TokenForm.fraction, .power] ∧ Takes .whole rest form

/-- What has the form of a float spells it. -/
theorem spelled_float {text : List Char} (h : IsFloat text) :
    Spelled IsBreak text [.constant (.float (String.ofList text))] := by
  obtain ⟨digit, rest, form, rfl, hdigit, hform, htakes⟩ := h
  have hnumber : ∀ form ∈ [TokenForm.fraction, .power], form ∈ [TokenForm.whole, .unsigned, .fraction, .power] := by decide
  have ht : Lexeme.token? ⟨form, digit :: rest⟩ = some (.constant (.float (String.ofList (digit :: rest)))) := by
    rw [List.mem_cons, List.mem_singleton] at hform
    rcases hform with rfl | rfl <;> rfl
  exact spelled_number (hnumber form hform) hdigit htakes ht

/-- After the whole part a point starts the fraction. -/
theorem takes_point : Takes .whole ['.'] .fraction := takes_one fun _ => rfl

/-- Each part of a numeral takes zeros. -/
theorem takes_zeros (form : TokenForm) (hform : form ∈ [TokenForm.whole, .fraction, .power]) (count : Nat) :
    Takes form (List.replicate count '0') form :=
  takes_digits hform fun c hc => by rw [List.eq_of_mem_replicate hc]; rfl

/-- The digits of an exponent, after its letter or its sign. -/
theorem takes_toDigits {form : TokenForm} (hform : form ∈ [TokenForm.mark, .markSign]) (n : Nat) :
    Takes form (Nat.toDigits 10 n) .power := by
  obtain ⟨digit, digits, h, hdigit, hdigits⟩ := exists_cons_toDigits n
  have hfirst : Takes form [digit] .power := by
    rw [List.mem_cons, List.mem_singleton] at hform
    rcases hform with rfl | rfl <;> exact takes_one fun _ => if_pos hdigit
  rw [h]
  exact hfirst.append (takes_digits (by decide) hdigits)

/-- After its mark an exponent is taken, with its sign. -/
theorem takes_exponent (exponent : Int) : Takes .mark (toString exponent).toList .power := by
  cases exponent with
  | ofNat n =>
    have htext : (toString (Int.ofNat n)).toList = Nat.toDigits 10 n := Nat.toList_repr
    rw [htext]
    exact takes_toDigits (by decide) n
  | negSucc n =>
    have htext : (toString (Int.negSucc n)).toList = ['-'] ++ Nat.toDigits 10 (n + 1) := by
      show ("-" ++ (n + 1).repr).toList = _
      rw [String.toList_append, Nat.toList_repr]
      rfl
    have hsign : Takes .mark ['-'] .markSign := takes_one fun _ => rfl
    rw [htext]
    exact hsign.append (takes_toDigits (by decide) (n + 1))

/-- Digits are laid out as one number, wherever the point is. -/
theorem isFloat_layOut {digits : List Char} (hne : digits ≠ []) (hdigits : ∀ c ∈ digits, isDigit c = true) (point : Int) :
    IsFloat (Binary32.layOut digits point) := by
  obtain ⟨first, rest, rfl⟩ := List.exists_cons_of_ne_nil hne
  have hfirst := hdigits first List.mem_cons_self
  have hrest : ∀ c ∈ rest, isDigit c = true := fun c hc => hdigits c (List.mem_cons_of_mem first hc)
  have hmark : ∀ form ∈ [TokenForm.whole, .fraction], Takes form ('e' :: (toString (point - 1)).toList) .power := by
    intro form hform
    have hletter : Takes form ['e'] .mark := by
      rw [List.mem_cons, List.mem_singleton] at hform
      rcases hform with rfl | rfl <;> exact takes_one fun _ => rfl
    exact hletter.append (takes_exponent (point - 1))
  unfold Binary32.layOut
  split
  · split
    · -- the point stands before all digits
      refine ⟨'0', '.' :: (List.replicate (-point).toNat '0' ++ first :: rest), .fraction, by simp, rfl, by decide, ?_⟩
      exact takes_point.append ((takes_zeros .fraction (by decide) _).append (takes_digits (by decide) hdigits))
    · split
      · -- the point stands after all digits
        refine ⟨first, rest ++ List.replicate (point - (first :: rest).length).toNat '0' ++ ['.', '0'], .fraction,
          by simp, hfirst, by decide, ?_⟩
        have hwhole : Takes .whole rest .whole := takes_digits (by decide) hrest
        have hend := takes_point.append (takes_zeros .fraction (by decide) 1)
        exact (hwhole.append (takes_zeros .whole (by decide) _)).append hend
      · -- the point stands between digits
        obtain ⟨place, hplace⟩ : ∃ place, point.toNat = place + 1 := ⟨point.toNat - 1, by omega⟩
        refine ⟨first, rest.take place ++ '.' :: rest.drop place, .fraction, by simp [hplace], hfirst, by decide, ?_⟩
        have hwhole : Takes .whole (rest.take place) .whole :=
          takes_digits (by decide) fun c hc => hrest c (List.mem_of_mem_take hc)
        have hfraction : Takes .fraction (rest.drop place) .fraction :=
          takes_digits (by decide) fun c hc => hrest c (List.mem_of_mem_drop hc)
        exact hwhole.append (takes_point.append hfraction)
  · cases rest with
    | nil => exact ⟨first, _, .power, rfl, hfirst, by decide, hmark .whole (by decide)⟩
    | cons next more =>
      have hfraction : Takes .fraction (next :: more) .fraction := takes_digits (by decide) hrest
      refine ⟨first, _, .power, rfl, hfirst, by decide, ?_⟩
      exact takes_point.append (hfraction.append (hmark .fraction (by decide)))

/-! ## Constants -/

/-- The text of a number without its sign. -/
def sizeText (x : Binary32) : String := String.ofList (if x.isNegative then x.chars.tail else x.chars)

/-- A number is written with its sign before its size. -/
theorem text_eq_signed {x : Binary32} (hnan : x.isNaN = false) :
    x.text = (if x.isNegative then "-" else "") ++ sizeText x := by
  rw [← String.toList_inj, Binary32.text, sizeText]
  cases hsign : x.isNegative <;> simp [Binary32.chars, hnan, hsign]

/-- The size of a finite number is written as zero or as its decimal laid out. -/
theorem toList_sizeText {x : Binary32} (hnan : x.isNaN = false) (hinfinite : x.isInfinite = false) : (sizeText x).toList =
    if x.magnitude = 0 then "0.0".toList else Binary32.layOut x.decimal.written.1 x.decimal.written.2 := by
  unfold sizeText
  rw [String.toList_ofList]
  cases hsign : x.isNegative <;> simp [Binary32.chars, hnan, hinfinite, hsign]

/-- The size of a finite number has the form of a float. -/
theorem isFloat_sizeText {x : Binary32} (hnan : x.isNaN = false) (hinfinite : x.isInfinite = false) :
    IsFloat (sizeText x).toList := by
  rw [toList_sizeText hnan hinfinite]
  split
  · exact ⟨'0', ['.', '0'], .fraction, rfl, rfl, by decide, takes_point.append (takes_zeros .fraction (by decide) 1)⟩
  · rename_i hmagnitude
    exact isFloat_layOut (Decimal.written_ne_nil (Binary32.digits_decimal_pos hmagnitude))
      (fun c hc => Decimal.isDigit_written hc) _

/-- A number of either sign: a minus sign is an operator over the number. -/
def signed (negative : Bool) (value : Constant) : Phrase :=
  if negative then .unary .neg (.constant value) else .constant value

/-- The constant expression that a literal is. -/
def constantOf : Literal → Phrase
  | .bool value => .constant (.bool value)
  | .int value =>
    -- no literal is as great as the size of the least integer
    if value = Int32.minValue then .binary .sub (signed true (.int 2147483647)) (.constant (.int 1))
    else signed (value.toInt < 0) (.int value.toInt.natAbs)
  | .uint value => .constant (.uint value.toNat)
  | .float value =>
    if value.isNaN then .binary .div (.constant (.float "0.0")) (.constant (.float "0.0"))
    else if value.isInfinite then .binary .div (signed value.isNegative (.float "1.0")) (.constant (.float "0.0"))
    else signed value.isNegative (.float (sizeText value))

/-- The minus sign of a number is followed by a digit, so it is a token of its own. -/
theorem written_signed {text : String} {value : Constant} (h : Spelled IsBreak text.toList [.constant value])
    (hhead : ∃ c ∈ text.toList.head?, isDigit c = true) (negative : Bool) :
    Written .operand IsBreak ((if negative then "-" else "") ++ text) [signed negative value] := by
  have hvalue : Derives .operand [.constant value] [.constant value] := .simple (.constant value)
  cases negative with
  | false => exact ⟨_, by simpa using h, hvalue⟩
  | true =>
    have hnext : decimalDigits.all (nextOfSign? UnaryOp.neg.sign.toList · = none) = true := by decide
    obtain ⟨c, hc, hdigit⟩ := hhead
    have hsign := (@spelled_sign UnaryOp.neg.sign (by decide)).append h ⟨c, hc, forall_digits hnext hdigit⟩
    exact ⟨_, by simpa [UnaryOp.sign] using hsign, .unary .neg hvalue⟩

/-- An integer is written as a signed constant. -/
theorem written_int (negative : Bool) (n : Nat) :
    Written .operand IsBreak ((if negative then "-" else "") ++ n.repr) [signed negative (.int n)] := by
  have hspelled := spelled_int n
  have hhead : ∃ c ∈ (Nat.toDigits 10 n).head?, isDigit c = true := by
    obtain ⟨digit, digits, h, hdigit, -⟩ := exists_cons_toDigits n
    exact ⟨digit, by rw [h]; rfl, hdigit⟩
  rw [← Nat.toList_repr] at hspelled hhead
  exact written_signed hspelled hhead negative

/-- A float is written as a signed constant. -/
theorem written_float (negative : Bool) {text : String} (h : IsFloat text.toList) :
    Written .operand IsBreak ((if negative then "-" else "") ++ text) [signed negative (.float text)] := by
  have hspelled := spelled_float h
  rw [String.ofList_toList] at hspelled
  obtain ⟨digit, rest, _, htext, hdigit, -, -⟩ := h
  exact written_signed hspelled ⟨digit, by rw [htext]; rfl, hdigit⟩ negative

/-- One digit, a point and a zero. -/
theorem isFloat_tenths {digit : Char} (h : isDigit digit = true) : IsFloat [digit, '.', '0'] :=
  ⟨digit, ['.', '0'], .fraction, rfl, h, by decide, takes_point.append (takes_zeros .fraction (by decide) 1)⟩

/-- An integer is written with its sign before its size. -/
theorem toString_eq_signed (n : Int) : toString n = (if n < 0 then "-" else "") ++ n.natAbs.repr := by
  cases n with
  | ofNat n => rw [if_neg (by simp), String.empty_append]; rfl
  | negSucc n => rw [if_pos (Int.negSucc_lt_zero n)]; rfl

/-- A literal is spelled as the constant expression that it is. -/
theorem written_literal (value : Literal) : Written .operand IsBreak (literalText value) [constantOf value] := by
  cases value with
  | bool value =>
    have htext : literalText (.bool value) = toString value := by cases value <;> rfl
    rw [htext]
    exact ⟨_, (spelled_bool value).mono fun c => isContinue_of_isBreak, .simple (.constant _)⟩
  | int value =>
    rw [literalText, constantOf]
    split
    · exact (written_binary .sub (written_int true 2147483647) (written_int false 1)).operand fun _ _ => trivial
    · rw [toString_eq_signed]
      simpa using written_int (decide (value.toInt < 0)) value.toInt.natAbs
  | uint value =>
    have htext : (literalText (.uint value)).toList = Nat.toDigits 10 value.toNat ++ ['u'] := by
      show (toString value.toNat ++ "u").toList = _
      rw [String.toList_append, show toString value.toNat = value.toNat.repr from rfl, Nat.toList_repr]
      rfl
    exact ⟨_, htext ▸ spelled_uint value.toNat, .simple (.constant _)⟩
  | float value =>
    have hzero := @written_float false "0.0" (isFloat_tenths (by decide))
    rw [literalText, constantOf]
    split
    · exact (written_binary .div hzero hzero).operand fun _ _ => trivial
    · rename_i hnan
      split
      · have hone := @written_float value.isNegative "1.0" (isFloat_tenths (by decide))
        have hdivision := (written_binary .div hone hzero).operand fun _ _ => trivial
        cases hsign : value.isNegative <;> rw [hsign] at hdivision <;> exact hdivision
      · rename_i hinfinite
        rw [text_eq_signed (Bool.eq_false_iff.2 hnan)]
        exact written_float value.isNegative (isFloat_sizeText (Bool.eq_false_iff.2 hnan) (Bool.eq_false_iff.2 hinfinite))

end Glsl.Grammar

/-! ## Characters that a text does not have -/

section Absent

variable {c : Char}

/-- A character in neither of two texts is not in both together. -/
theorem not_mem_append {left right : String} (h : c ∉ left.toList) (h' : c ∉ right.toList) : c ∉ (left ++ right).toList := by
  rw [String.toList_append, List.mem_append, not_or]
  exact ⟨h, h'⟩

/-- A character that fails a test is in no text that passes it. -/
theorem not_mem_of_all {text : String} {test : Char → Bool} (h : ∀ d ∈ text.toList, test d = true) (hc : test c = false) :
    c ∉ text.toList := by
  intro hm
  rw [h c hm] at hc
  cases hc

/-- Words with spaces between them have no characters of their own but spaces. -/
theorem not_mem_intercalate (hc : c ≠ ' ') {words : List String} (h : ∀ word ∈ words, c ∉ word.toList) :
    c ∉ (" ".intercalate words).toList := by
  induction words with
  | nil => simp
  | cons word words ih =>
    have hrest := ih fun other hm => h other (List.mem_cons_of_mem _ hm)
    have hfirst := h word List.mem_cons_self
    cases words with
    | nil => rwa [String.intercalate_singleton]
    | cons next words =>
      rw [String.intercalate_cons_cons]
      exact not_mem_append (not_mem_append hfirst (by simpa using hc)) hrest

end Absent

/-! ## Characters of constants -/

/-- The characters that constants are written with. -/
def isConstantChar (c : Char) : Bool := Identifier.isDigit c || "-.einfNaNtruls".toList.contains c

section Characters

variable {c : Char}

theorem isConstantChar_of_isDigit (h : Identifier.isDigit c = true) : isConstantChar c = true := by
  rw [isConstantChar, h, Bool.true_or]

theorem isConstantChar_of_mem {text : String} (h : text.toList.all isConstantChar = true) (hc : c ∈ text.toList) :
    isConstantChar c = true :=
  List.all_eq_true.1 h c hc

/-- Each character of an integer may stand in a constant. -/
theorem isConstantChar_toString {n : Int} (h : c ∈ (toString n).toList) : isConstantChar c = true := by
  rw [Glsl.Grammar.toString_eq_signed, String.toList_append, Nat.toList_repr, List.mem_append] at h
  rcases h with h | h
  · split at h
    · rw [List.mem_singleton.1 h]
      rfl
    · cases h
  · exact isConstantChar_of_isDigit (Glsl.isDigit_of_mem_toDigits h)

namespace Binary32

/-- Each character of digits that are laid out may stand in a constant. -/
theorem isConstantChar_layOut {digits : List Char} (hdigits : ∀ c ∈ digits, Identifier.isDigit c = true) {point : Int}
    (h : c ∈ layOut digits point) : isConstantChar c = true := by
  have hlaid : c ∈ digits ∨ c ∈ ['0', '.', 'e'] ∨ c ∈ (toString (point - 1)).toList := by
    unfold layOut at h
    split at h
    · split at h
      · simp [List.mem_replicate] at h ⊢
        tauto
      · split at h
        · simp [List.mem_replicate] at h ⊢
          tauto
        · have htake : c ∈ digits.take point.toNat → c ∈ digits := List.mem_of_mem_take
          have hdrop : c ∈ digits.drop point.toNat → c ∈ digits := List.mem_of_mem_drop
          simp at h ⊢
          tauto
    · simp only [List.mem_append, List.mem_cons] at h ⊢
      split at h
      · simp at h ⊢
        tauto
      · tauto
  rcases hlaid with h | h | h
  · exact isConstantChar_of_isDigit (hdigits c h)
  · exact @isConstantChar_of_mem c "0.e" (by decide) h
  · exact isConstantChar_toString h

/-- Each character of a number may stand in a constant. -/
theorem isConstantChar_chars {x : Binary32} (h : c ∈ x.chars) : isConstantChar c = true := by
  have hsize : c ∈ (if x.isInfinite then "inf".toList else if x.magnitude == 0 then "0.0".toList
      else layOut x.decimal.written.1 x.decimal.written.2) → isConstantChar c = true := by
    intro h
    split at h
    · exact @isConstantChar_of_mem c "inf" (by decide) h
    · split at h
      · exact @isConstantChar_of_mem c "0.0" (by decide) h
      · exact isConstantChar_layOut (fun _ => Decimal.isDigit_written) h
  unfold chars at h
  split at h
  · exact @isConstantChar_of_mem c "NaN" (by decide) h
  · simp only at h
    split at h
    · rcases List.mem_cons.1 h with rfl | h
      · rfl
      · exact hsize h
    · exact hsize h

end Binary32

/-- Each character of a literal may stand in a constant. -/
theorem isConstantChar_text {value : Literal} (h : c ∈ value.text.toList) : isConstantChar c = true := by
  cases value with
  | bool value => cases value <;> exact isConstantChar_of_mem (by decide) h
  | int value => exact isConstantChar_toString h
  | uint value =>
    rw [show (Literal.uint value).text = toString value.toNat ++ "u" from rfl, String.toList_append, List.mem_append] at h
    rcases h with h | h
    · exact @isConstantChar_toString c value.toNat h
    · exact isConstantChar_of_mem (by decide) h
  | float value => exact Binary32.isConstantChar_chars (String.toList_ofList ▸ h)

/-- The numbers without a literal of their own are put in parentheses. -/
theorem literalText_cases (value : Literal) :
    Glsl.literalText value ∈ ["(-2147483647 - 1)", "(0.0 / 0.0)", "(-1.0 / 0.0)", "(1.0 / 0.0)"] ∨
      Glsl.literalText value = value.text := by
  cases value with
  | bool | uint => exact .inr rfl
  | int value =>
    rw [Glsl.literalText]
    split
    · exact .inl (by decide)
    · exact .inr rfl
  | float value =>
    rw [Glsl.literalText]
    split
    · exact .inl (by decide)
    · split
      · split <;> exact .inl (by decide)
      · exact .inr rfl

/-- Constant expressions have spaces, parentheses and divisions too. -/
theorem isConstantChar_literalText {value : Literal} (h : c ∈ (Glsl.literalText value).toList) :
    isConstantChar c = true ∨ c ∈ [' ', '(', ')', '/'] := by
  have hfixed : ∀ text ∈ ["(-2147483647 - 1)", "(0.0 / 0.0)", "(-1.0 / 0.0)", "(1.0 / 0.0)"],
      text.toList.all (fun c => isConstantChar c || [' ', '(', ')', '/'].contains c) = true := by decide
  rcases literalText_cases value with htext | htext
  · simpa using List.all_eq_true.1 (hfixed _ htext) c h
  · rw [htext] at h
    exact .inl (isConstantChar_text h)

end Characters

end ShaderTrace
