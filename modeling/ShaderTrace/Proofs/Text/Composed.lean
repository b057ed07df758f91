import ShaderTrace.Proofs.Text.ReadBack

/-!
# What expressions are put together from

The text of an expression consists of spellings without parentheses: names, constants and operators. They stand one after the
other, or in parentheses. So what holds of such spellings, and is kept when texts are joined and when they are put in parentheses,
holds of every expression (`Composed.expression`).
-/

namespace ShaderTrace.Glsl

/-- The characters of names, of constants and of operators, and those that stand between them. -/
def isPlainChar (c : Char) : Bool :=
  Identifier.isContinue c || isConstantChar c || " .,~!+-*/%<>=&|^".toList.contains c

/-- A property of texts that spellings without parentheses have, and that is kept by what is put together from texts with it. -/
structure Composed (P : String → Prop) : Prop where
  plain : ∀ {text : String}, (∀ c ∈ text.toList, isPlainChar c = true) → P text
  append : ∀ {left right : String}, P left → P right → P (left ++ right)
  wrap : ∀ {text : String}, P text → P ("(" ++ text ++ ")")

namespace Composed

variable {P : String → Prop} {es : List Expr}

/-- A fixed text of plain characters has the property. -/
theorem fixed (hP : Composed P) {text : String} (h : text.toList.all isPlainChar = true) : P text :=
  hP.plain (List.all_eq_true.1 h)

/-- Names have the property. -/
theorem name (hP : Composed P) {text : String} (h : Grammar.IsName text) : P text := by
  refine hP.plain fun c hc => ?_
  rw [isPlainChar, isContinue_of_isIdentifierChars h.1 hc, Bool.true_or, Bool.true_or]

/-- Constants have the property. -/
theorem literal (hP : Composed P) (value : Literal) : P (literalText value) := by
  have hfixed : ∀ text ∈ ["(-2147483647 - 1)", "(0.0 / 0.0)", "(-1.0 / 0.0)", "(1.0 / 0.0)"], P text := by
    intro text hm
    simp only [List.mem_cons, List.not_mem_nil, or_false] at hm
    rcases hm with rfl | rfl | rfl | rfl
    · exact @wrap P hP "-2147483647 - 1" (hP.fixed (by decide))
    · exact @wrap P hP "0.0 / 0.0" (hP.fixed (by decide))
    · exact @wrap P hP "-1.0 / 0.0" (hP.fixed (by decide))
    · exact @wrap P hP "1.0 / 0.0" (hP.fixed (by decide))
  rcases literalText_cases value with htext | htext
  · exact hfixed _ htext
  · rw [htext]
    refine hP.plain fun c hc => ?_
    rw [isPlainChar, isConstantChar_text hc, Bool.or_true, Bool.true_or]

/-- Arguments have the property if each has it. -/
theorem textAll (hP : Composed P) (h : ∀ e ∈ es, P e.text) : P (Expr.textAll es) := by
  induction es with
  | nil => exact hP.fixed (by decide)
  | cons e es ih =>
    rw [List.forall_mem_cons] at h
    cases es with
    | nil => exact h.1
    | cons next es => exact hP.append (hP.append h.1 (hP.fixed (by decide))) (ih h.2)

/-- A call has the property if its function and its arguments have it. -/
theorem call (hP : Composed P) {function : String} (hf : P function) (h : ∀ e ∈ es, P e.text) :
    P (Expr.call function es).text := by
  have htext := hP.append hf (hP.wrap (hP.textAll h))
  rwa [← String.append_assoc, ← String.append_assoc] at htext

/-- A lane has the property if its vector has it. -/
theorem field (hP : Composed P) {object : Expr} {lanes : String} (h : P object.text) (hl : P lanes) :
    P (Expr.field object lanes).text :=
  hP.append (hP.append h (hP.fixed (by decide))) hl

/-- An operation on two operands has the property if both have it. -/
theorem binary (hP : Composed P) (op : BinaryOp) {left right : Expr} (hl : P left.text) (hr : P right.text) :
    P (Expr.binary op left right).text := by
  have hsign : P op.sign := by cases op <;> exact hP.fixed (by decide)
  have hspace : P " " := hP.fixed (by decide)
  have htext := hP.wrap (hP.append (hP.append (hP.append (hP.append hl hspace) hsign) hspace) hr)
  simpa only [Expr.text, String.append_assoc] using htext

/-- An operation on one operand has the property if the operand has it. -/
theorem unary (hP : Composed P) (op : UnaryOp) {operand : Expr} (h : P operand.text) : P (Expr.unary op operand).text := by
  have hsign : P op.sign := by cases op <;> exact hP.fixed (by decide)
  have htext := hP.append hsign (hP.wrap h)
  rwa [← String.append_assoc, ← String.append_assoc] at htext

/-- The coordinates are no calls, but they are put together like them. -/
theorem builtin (hP : Composed P) (function : Builtin) (h : ∀ e ∈ es, P e.text) : P (Expr.builtin function es).text := by
  have hcoordinate : P (Expr.field (.name fragCoord) "xy").text := hP.field (hP.fixed (by decide)) (hP.fixed (by decide))
  unfold Expr.builtin
  split
  · exact hP.call (hP.fixed (by decide)) (List.forall_mem_singleton.2 hcoordinate)
  · exact hP.binary .div hcoordinate (hP.call (hP.fixed (by decide)) (List.forall_mem_singleton.2 (hP.fixed (by decide))))
  · rename_i hi hn
    exact hP.call (hP.name (Grammar.isName_functionName hi hn)) h

/-- A texel has the property if what is fetched has it. -/
theorem texel (hP : Composed P) (type : ValueType) {fetched : Expr} (h : P fetched.text) : P (Expr.texel type fetched).text := by
  have hlanes : ∀ count ∈ List.range 5, ∀ lanes ∈ texelLanes? count, lanes.toList.all isPlainChar = true := by decide
  unfold Expr.texel
  split
  · rename_i lanes htexel
    have hlt : type.lanes < 5 := Nat.lt_succ_of_le type.lanes_le_four
    exact hP.field h (hP.fixed (hlanes _ (List.mem_range.2 hlt) lanes htexel))
  · exact h

/-- Every expression that is rendered has the property if the variables have it. -/
theorem expression (hP : Composed P) {scope : Scope} (hscope : ∀ symbol, P (scope.variableOf symbol).spelling) {tree : Tree}
    {expr : Expr} (h : Glsl.expression scope tree = .ok expr) : P expr.text := by
  refine @expression_induction scope (fun expr => P expr.text) (fun rendered below belowAll => ?_) tree expr h
  cases rendered with
  | var => exact hscope _
  | literal => exact hP.literal _
  | @member owner ownerType lane =>
    have hlane : lane.accessor.toList.all isPlainChar = true := by cases lane <;> decide
    exact hP.field (hscope owner) (hP.fixed hlane)
  | index => exact hP.builtin .index (List.forall_mem_nil _)
  | normalizedIndex => exact hP.builtin .normalizedIndex (List.forall_mem_nil _)
  | unary op _ hc he => exact hP.unary op (below (by simp [hc]) he)
  | binary op _ hc hl hr => exact hP.binary op (below (by simp [hc]) hl) (below (by simp [hc]) hr)
  | convert _ ht _ hes => exact hP.call (hP.name (Grammar.isName_typeName ht)) (belowAll (List.Subset.refl _) hes)
  | call _ hc _ _ _ hes => exact hP.builtin _ (belowAll (by simp [hc]) hes)
  | sample1d _ hc _ _ hb hi =>
    refine hP.texel _ (hP.call (hP.fixed (by decide)) ?_)
    rw [List.forall_mem_cons, List.forall_mem_singleton]
    exact ⟨below (by simp [hc]) hb, below (by simp [hc]) hi⟩
  | sample2d _ hc _ _ hb hx hy =>
    refine hP.texel _ (hP.call (hP.fixed (by decide)) ?_)
    rw [List.forall_mem_cons, List.forall_mem_singleton]
    refine ⟨below (by simp [hc]) hb, hP.call (hP.fixed (by decide)) ?_⟩
    rw [List.forall_mem_cons, List.forall_mem_singleton]
    exact ⟨below (by simp [hc]) hx, below (by simp [hc]) hy⟩

end Composed

end ShaderTrace.Glsl
