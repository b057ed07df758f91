import ShaderTrace.Proofs.Text.Rows
import ShaderTrace.Proofs.Text.Written

/-!
# Texts that name the extent

The extent of the computation has a name that stands in a text as a word of its own (`Mentions`). A text that needs the extent
has the relative coordinate somewhere, and one that does not need it does not name it (`Shows`). What is put together from such
texts, with a break between them, is such a text again: so it is for expressions, and for the lines of a shader.
-/

namespace ShaderTrace.Glsl

open Identifier

/-! ## Words of a text -/

/-- The words of a text: what stands between characters that no identifier has. -/
def wordsOf (cs : List Char) : List (List Char) := cs.splitOnP fun c => !isContinue c

/-- The text names the extent of the computation. -/
def Mentions (cs : List Char) : Prop := dispatchSize.toList ∈ wordsOf cs

instance (cs : List Char) : Decidable (Mentions cs) := inferInstanceAs (Decidable (_ ∈ _))

section Words

variable {cs ds : List Char} {c : Char}

/-- A text that is broken up between words names the extent if one of its parts does. -/
theorem mentions_append_cons (hc : isContinue c = false) : Mentions (cs ++ c :: ds) ↔ Mentions cs ∨ Mentions ds := by
  rw [Mentions, wordsOf, List.splitOnP_append_cons cs ds (by rw [hc]; rfl), List.mem_append]
  rfl

/-- A word names the extent exactly if it is that word. -/
theorem mentions_of_word (h : ∀ c ∈ cs, isContinue c = true) : Mentions cs ↔ cs = dispatchSize.toList := by
  rw [Mentions, wordsOf, List.splitOnP_eq_singleton fun c hc => by rw [h c hc]; rfl, List.mem_singleton, eq_comm]

/-- The words of a text consist of its characters. -/
theorem mem_of_mem_wordsOf {word : List Char} (h : word ∈ wordsOf cs) : ∀ c ∈ word, c ∈ cs := by
  induction cs generalizing word with
  | nil => simp_all [wordsOf]
  | cons first rest ih =>
    have hword : wordsOf (first :: rest) =
        if isContinue first then (wordsOf rest).modifyHead (List.cons first) else [] :: wordsOf rest := by
      rw [wordsOf, List.splitOnP_cons_eq_if_modifyHead]
      cases isContinue first <;> rfl
    intro c hc
    rw [hword] at h
    split at h
    · cases hrest : wordsOf rest with
      | nil =>
        rw [hrest] at h
        cases h
      | cons head words =>
        rw [hrest, List.modifyHead_cons, List.mem_cons] at h
        rw [hrest] at ih
        rcases h with rfl | h
        · rcases List.mem_cons.1 hc with rfl | hc
          · exact List.mem_cons_self
          · exact List.mem_cons_of_mem _ (ih List.mem_cons_self c hc)
        · exact List.mem_cons_of_mem _ (ih (List.mem_cons_of_mem _ h) c hc)
    · rcases List.mem_cons.1 h with rfl | h
      · cases hc
      · exact List.mem_cons_of_mem _ (ih h c hc)

/-- Only a text with an underscore can name the extent. -/
theorem not_mentions_of_plain (h : '_' ∉ cs) : ¬Mentions cs :=
  fun hm => h (mem_of_mem_wordsOf hm '_' (by decide))

end Words

/-! ## Texts that show what is needed -/

/-- The text has the relative coordinate if it is needed, and does not name the extent if it is not. -/
def Shows : (needed : Bool) → List Char → Prop
  | true, cs => Expr.normalizedIndex.text.toList <:+: cs
  | false, cs => ¬Mentions cs

section Shows

variable {a b : Bool} {cs ds : List Char} {c : Char}

/-- Without an underscore the extent is not named. -/
theorem shows_of_plain (h : '_' ∉ cs) : Shows false cs := not_mentions_of_plain h

/-- A text that is broken up between words shows what its parts show. -/
theorem Shows.append_cons (h : Shows a cs) (hc : isContinue c = false) (h' : Shows b ds) : Shows (a || b) (cs ++ c :: ds) := by
  cases a with
  | true => exact h.trans (List.prefix_append cs (c :: ds)).isInfix
  | false =>
    cases b with
    | true => exact h'.trans ((List.suffix_cons c ds).trans (List.suffix_append cs (c :: ds))).isInfix
    | false => exact fun hm => ((mentions_append_cons hc).1 hm).elim h h'

/-- A break before a text that shows what is needed. -/
theorem Shows.cons (hc : isContinue c = false) (h : Shows a cs) : Shows a (c :: cs) :=
  (shows_of_plain (by simp : '_' ∉ [])).append_cons hc h

/-- A break after a text that shows what is needed. -/
theorem Shows.concat (h : Shows a cs) (hc : isContinue c = false) : Shows a (cs ++ [c]) := by
  have := h.append_cons hc (shows_of_plain (by simp : '_' ∉ []))
  rwa [Bool.or_false] at this

/-- Blanks before a text. -/
theorem Shows.indent (n : Nat) (h : Shows a cs) : Shows a (List.replicate n ' ' ++ cs) := by
  induction n with
  | zero => exact h
  | succ n ih => exact Shows.cons (by decide) ih

/-- The relative coordinate names the extent. -/
theorem mentions_of_infix (h : Expr.normalizedIndex.text.toList <:+: cs) : Mentions cs := by
  obtain ⟨before, after, rfl⟩ := h
  have htext : Expr.normalizedIndex.text.toList =
      "(gl_FragCoord.xy / vec2".toList ++ '(' :: (dispatchSize.toList ++ ')' :: [')']) := by decide
  have hsplit : before ++ Expr.normalizedIndex.text.toList ++ after = (before ++ "(gl_FragCoord.xy / vec2".toList) ++
      '(' :: (dispatchSize.toList ++ ')' :: (')' :: after)) := by
    rw [htext]
    simp only [List.append_assoc, List.cons_append, List.nil_append]
  rw [hsplit]
  refine (mentions_append_cons (by decide)).2 (.inr ((mentions_append_cons (by decide)).2 (.inl ?_)))
  decide

/-- A text either stays, or loses the parentheses around it and has none left that are not closed. -/
theorem stripParensChars_cases (cs : List Char) :
    stripParensChars cs = cs ∨ cs = '(' :: (stripParensChars cs ++ [')']) ∧ parenDepth? 0 (stripParensChars cs) = some 0 := by
  unfold stripParensChars
  split
  · rename_i rest
    split
    · rename_i h
      refine .inr ⟨?_, h.2⟩
      rw [List.dropLast_append_getLast? _ h.1]
    · exact .inl rfl
  · exact .inl rfl

/-- A condition in the parentheses of a header, without its own if it has any. -/
theorem Shows.header (h : Shows a cs) : Shows a ('(' :: (stripParensChars cs ++ [')'])) := by
  rcases stripParensChars_cases cs with heq | ⟨heq, -⟩
  · rw [heq]
    exact Shows.cons (by decide) (h.concat (by decide))
  · rwa [← heq]

end Shows

/-! ## Literals -/

/-- No constant has an underscore. -/
theorem underscore_literal (value : Literal) : '_' ∉ (literalText value).toList :=
  fun h => absurd (isConstantChar_literalText h) (by decide)

/-! ## Expressions -/

/-- No name of a type has an underscore. -/
theorem underscore_typeName {type : ValueType} {name : String} (h : typeName? type = some name) : '_' ∉ name.toList := by
  unfold typeName? at h
  split at h
  · cases h
  · split at h
    · obtain ⟨kind, -, hsampler⟩ := Option.bind_eq_some_iff.1 h
      have hall : ∀ oneDimensional : Bool, ∀ kind ∈ [ScalarKind.bool, .int, .uint, .float],
          ∀ name ∈ samplerName? oneDimensional kind, '_' ∉ name.toList := by decide
      exact hall _ kind (by cases kind <;> decide) name hsampler
    · obtain ⟨before, after, hlist, -⟩ := List.lookup_eq_some_iff.1 h
      have hall : ∀ entry ∈ plainTypeNames, '_' ∉ entry.2.toList := by decide
      exact hall (type, name) (by rw [hlist]; simp)

/-- No name of a function has an underscore but that of the relative coordinate. -/
theorem underscore_functionName {builtin : Builtin} (hn : builtin ≠ .normalizedIndex) :
    '_' ∉ (Expr.functionName builtin).toList := by
  cases builtin with
  | normalizedIndex => exact absurd rfl hn
  | _ => decide

section Expressions

variable {a b : Bool} {e l r : Expr}

/-- A lane shows what its vector shows. -/
theorem Shows.field (h : Shows a e.text.toList) {lanes : String} (hl : '_' ∉ lanes.toList) :
    Shows a (Expr.field e lanes).text.toList := by
  have htext : (Expr.field e lanes).text.toList = e.text.toList ++ '.' :: lanes.toList := by simp [Expr.text]
  rw [htext, ← Bool.or_false a]
  exact h.append_cons (by decide) (shows_of_plain hl)

/-- An operation on one operand shows what the operand shows. -/
theorem Shows.unary (op : UnaryOp) (h : Shows a e.text.toList) : Shows a (Expr.unary op e).text.toList := by
  have htext : (Expr.unary op e).text.toList = op.sign.toList ++ '(' :: (e.text.toList ++ [')']) := by simp [Expr.text]
  have hsign : '_' ∉ op.sign.toList := by cases op <;> decide
  rw [htext]
  exact (shows_of_plain hsign).append_cons (by decide) (h.concat (by decide))

/-- An operation on two operands shows what one of them shows. -/
theorem Shows.binary (op : BinaryOp) (hl : Shows a l.text.toList) (hr : Shows b r.text.toList) :
    Shows (a || b) (Expr.binary op l r).text.toList := by
  have htext : (Expr.binary op l r).text.toList =
      '(' :: (l.text.toList ++ ' ' :: (op.sign.toList ++ ' ' :: (r.text.toList ++ [')']))) := by simp [Expr.text]
  have hsign : '_' ∉ op.sign.toList := by cases op <;> decide
  have hright : Shows b (op.sign.toList ++ ' ' :: (r.text.toList ++ [')'])) :=
    (shows_of_plain hsign).append_cons (by decide) (hr.concat (by decide))
  rw [htext]
  exact Shows.cons (by decide) (hl.append_cons (by decide) hright)

/-- A call shows what its arguments show. -/
theorem Shows.call {function : String} {arguments : List Expr} (hf : '_' ∉ function.toList)
    (h : Shows a (Expr.textAll arguments).toList) : Shows a (Expr.call function arguments).text.toList := by
  have htext : (Expr.call function arguments).text.toList =
      function.toList ++ '(' :: ((Expr.textAll arguments).toList ++ [')']) := by simp [Expr.text]
  rw [htext]
  exact (shows_of_plain hf).append_cons (by decide) (h.concat (by decide))

/-- Arguments show what one of them shows. -/
theorem Shows.comma {es : List Expr} (h : Shows a e.text.toList) (hes : Shows b (Expr.textAll es).toList) :
    Shows (a || b) (Expr.textAll (e :: es)).toList := by
  cases es with
  | nil =>
    -- no comma stands before nothing, and nothing needs nothing
    cases b with
    | false => simpa [Expr.textAll] using h
    | true => exact absurd hes.length_le (by decide)
  | cons next rest =>
    have htext : (Expr.textAll (e :: next :: rest)).toList =
        e.text.toList ++ ',' :: (' ' :: (Expr.textAll (next :: rest)).toList) := by simp [Expr.textAll]
    rw [htext]
    exact h.append_cons (by decide) (Shows.cons (by decide) hes)

/-- A texel shows what is fetched. -/
theorem Shows.texel (h : Shows a e.text.toList) (type : ValueType) : Shows a (Expr.texel type e).text.toList := by
  have hlanes : ∀ n lanes, texelLanes? n = some lanes → '_' ∉ lanes.toList := by
    intro n lanes hn
    unfold texelLanes? at hn
    split at hn <;> cases hn <;> decide
  unfold Expr.texel
  split
  · exact h.field (hlanes _ _ ‹_›)
  · exact h

end Expressions

/-! ## Lines -/

section Rows

variable {a b : Bool} {target : Variable} {value : Expr} {type : String} (ht : Shows false target.spelling.toList)
  (hv : Shows a value.text.toList)

/-- What is assigned to a variable or to a lane of it. -/
theorem Shows.assigned {name : List Char} (hn : Shows false name) (hv : Shows a value.text.toList) :
    Shows a (name ++ ' ' :: '=' :: ' ' :: (value.text.toList ++ [';'])) :=
  hn.append_cons (by decide) (Shows.cons (by decide) (Shows.cons (by decide) (hv.concat (by decide))))

include ht

include hv in
/-- An assignment shows what its value shows, and so do the clauses below. -/
theorem shows_assign : Shows a (Clause.assign target value).text.toList := by
  have htext : (target.spelling ++ " = " ++ value.text ++ ";").toList =
      target.spelling.toList ++ ' ' :: '=' :: ' ' :: (value.text.toList ++ [';']) := by simp
  show Shows a (target.spelling ++ " = " ++ value.text ++ ";").toList
  rw [htext]
  exact ht.assigned hv

include hv in
theorem shows_define (hs : '_' ∉ type.toList) : Shows a (Clause.define type target value).text.toList := by
  have htext : (type ++ " " ++ target.spelling ++ " = " ++ value.text ++ ";").toList =
      type.toList ++ ' ' :: (target.spelling.toList ++ ' ' :: '=' :: ' ' :: (value.text.toList ++ [';'])) := by simp
  show Shows a (type ++ " " ++ target.spelling ++ " = " ++ value.text ++ ";").toList
  rw [htext]
  exact (shows_of_plain hs).append_cons (by decide) (ht.assigned hv)

include hv in
theorem shows_assignLane (lane : Lane) : Shows a (Clause.assignLane target lane value).text.toList := by
  have htext : (target.spelling ++ "." ++ lane.accessor ++ " = " ++ value.text ++ ";").toList =
      (target.spelling.toList ++ '.' :: lane.accessor.toList) ++ ' ' :: '=' :: ' ' :: (value.text.toList ++ [';']) := by simp
  have hlane : '_' ∉ lane.accessor.toList := by cases lane <;> decide
  show Shows a (target.spelling ++ "." ++ lane.accessor ++ " = " ++ value.text ++ ";").toList
  rw [htext]
  exact (ht.append_cons (by decide) (shows_of_plain hlane)).assigned hv

theorem shows_declare (hs : '_' ∉ type.toList) : Shows false (Clause.declare type target).text.toList := by
  have htext : (type ++ " " ++ target.spelling ++ ";").toList = type.toList ++ ' ' :: (target.spelling.toList ++ [';']) := by
    simp
  show Shows false (type ++ " " ++ target.spelling ++ ";").toList
  rw [htext]
  exact (shows_of_plain hs).append_cons (by decide) (ht.concat (by decide))

/-- A counting loop shows what its bounds show. -/
theorem shows_count {start stop : Expr} (hstart : Shows a start.text.toList) (hstop : Shows b stop.text.toList) :
    Shows (a || b) (Clause.count target start stop).text.toList := by
  have htext : ("for (int " ++ target.spelling ++ " = " ++ start.text ++ "; " ++ target.spelling ++ " < " ++ stop.text ++ "; "
      ++ target.spelling ++ "++)").toList =
        "for (int".toList ++ ' ' :: (target.spelling.toList ++ ' ' :: '=' :: ' ' :: (start.text.toList ++ [';'])
          ++ ' ' :: (target.spelling.toList ++ ' ' :: '<' :: ' ' :: (stop.text.toList
            ++ ';' :: ' ' :: (target.spelling.toList ++ '+' :: ['+', ')'])))) := by simp
  have hnext : Shows false (target.spelling.toList ++ '+' :: ['+', ')']) :=
    ht.append_cons (by decide) (shows_of_plain (by decide))
  have hlimit : Shows (b || false) (stop.text.toList ++ ';' :: ' ' :: (target.spelling.toList ++ '+' :: ['+', ')'])) :=
    hstop.append_cons (by decide) (Shows.cons (by decide) hnext)
  have hcheck := ht.append_cons (by decide : isContinue ' ' = false)
    (Shows.cons (by decide : isContinue '<' = false) (Shows.cons (by decide : isContinue ' ' = false) hlimit))
  rw [Bool.or_false, Bool.false_or] at hcheck
  show Shows (a || b) ("for (int " ++ target.spelling ++ " = " ++ start.text ++ "; " ++ target.spelling ++ " < " ++ stop.text
    ++ "; " ++ target.spelling ++ "++)").toList
  rw [htext]
  exact (shows_of_plain (by decide)).append_cons (by decide) ((ht.assigned hstart).append_cons (by decide) hcheck)

omit ht in
/-- A branch or a loop shows what its condition shows. -/
theorem shows_guarded (keyword : Keyword) (hv : Shows a value.text.toList) :
    Shows a (Clause.guarded keyword value).text.toList := by
  have htext : (keyword.text ++ " (" ++ stripParens value.text ++ ")").toList =
      keyword.text.toList ++ ' ' :: '(' :: (stripParensChars value.text.toList ++ [')']) := by simp [stripParens]
  have hkeyword : '_' ∉ keyword.text.toList := by cases keyword <;> decide
  show Shows a (keyword.text ++ " (" ++ stripParens value.text ++ ")").toList
  rw [htext]
  exact (shows_of_plain hkeyword).append_cons (by decide) hv.header

end Rows

end ShaderTrace.Glsl
