import ShaderTrace.Proofs.Text.Composed
import ShaderTrace.Proofs.Text.Extent
import ShaderTrace.Proofs.Text.Layout

/-!
# Clauses keep to their lines

Where inputs and outputs are named by identifiers, nothing that a shader spells has an end of a line in it, expressions included
(`inline_expression`). So the lines of a text that was put together from such lines are these lines again (`linesOf_unlines`), and
the rows before main are lines of their own (`Front.inline`).
-/

namespace ShaderTrace.Glsl

open Identifier
open Grammar (IsName Named)

/-- The text has no end of a line in it. -/
def Inline (text : String) : Prop := '\n' ∉ text.toList

instance (text : String) : Decidable (Inline text) := inferInstanceAs (Decidable (_ ∉ _))

section Texts

variable {left right text : String}

/-- Two texts without an end of a line make one without it. -/
theorem Inline.append (h : Inline left) (h' : Inline right) : Inline (left ++ right) := not_mem_append h h'

/-- A name is in one line. -/
theorem inline_name (h : IsName text) : Inline text :=
  not_mem_of_all (fun _ => isContinue_of_isIdentifierChars h.1) (by decide)

/-- A number is in one line. -/
theorem inline_nat (n : Nat) : Inline (toString n) :=
  not_mem_of_all (fun _ hc => @isConstantChar_toString _ n hc) (by decide)

theorem inline_lane (lane : Lane) : Inline lane.accessor := by cases lane <;> decide

/-- A text in one line is so without its parentheses. -/
theorem inline_stripParens (h : Inline text) : Inline (stripParens text) := by
  intro hm
  rw [stripParens, String.toList_ofList] at hm
  refine h ?_
  rcases stripParensChars_cases text.toList with heq | ⟨heq, -⟩
  · exact heq ▸ hm
  · rw [heq]
    exact List.mem_cons_of_mem _ (List.mem_append_left _ hm)

end Texts

/-- Inline texts are put together from inline texts. -/
theorem composed_inline : Composed Inline where
  plain h := not_mem_of_all h (by decide)
  append := Inline.append
  wrap h := ((by decide : Inline "(").append h).append (by decide)

/-- No expression has an end of a line in it, if variables are spelled as names. -/
theorem inline_expression {scope : Scope} (hscope : Named scope) {tree : Tree} {expr : Expr}
    (h : expression scope tree = .ok expr) : Inline expr.text :=
  composed_inline.expression (fun symbol => inline_name (hscope.isName symbol)) h

/-! ## Lines -/

/-- Lines that are written are read back, with an empty one after the last end of a line. -/
theorem linesOf_unlines {lines : List String} (h : ∀ line ∈ lines, Inline line) :
    linesOf (unlines lines) = lines.map String.toList ++ [[]] := by
  induction lines with
  | nil => rfl
  | cons line lines ih =>
    rw [List.forall_mem_cons] at h
    rw [unlines, List.map_cons, String.join_cons, linesOf_line, linesOf_of_not_mem h.1, ← unlines, ih h.2]
    rfl

section Shader

variable {config : Config} {root main : Tree} {shader : Shader} {row : Row}

/-- The inputs and outputs of a shader are identifiers if those of its program are. -/
theorem identified_of_program (h : ∀ name ∈ (shader.program config).inputs.map (·.name) ++
    (shader.program config).outputs.map (·.name), isIdentifier name = true) : Identified shader := by
  have hinputs : (shader.program config).inputs.map (·.name) = shader.inputs.map (·.name) := map_numbered fun _ _ _ => rfl
  have houtputs : (shader.program config).outputs.map (·.name) = shader.outputs.map (·.name) := map_numbered fun _ _ _ => rfl
  rw [hinputs, houtputs, ← List.map_append] at h
  exact List.forall_mem_map.1 h

/-- The inputs and outputs of a shader are spelled as names. -/
theorem Made.named (hm : Made root main shader) (hn : Identified shader) : Named shader.scope := by
  intro global hglobal
  obtain ⟨d, hd, rfl⟩ : ∃ d ∈ shader.inputs ++ shader.outputs, (d.symbol, d.ident) = global := by
    rw [← List.mem_map, List.map_append]
    exact hglobal
  rw [hm.ident_eq hd]
  exact Grammar.isName_identFor (hn d hd)

/-- Each clause before `main` is in one line. -/
theorem Front.inline (hm : Made root main shader) (hn : Identified shader) (h : Front config shader row) :
    Inline row.clause.text := by
  have hdeclared : ∀ d ∈ shader.inputs ++ shader.outputs, Inline d.spelling ∧ Inline d.ident := by
    intro d hd
    refine ⟨inline_name (Grammar.isName_typeName (hm.typeName?_eq hd)), inline_name ?_⟩
    rw [hm.ident_eq hd]
    exact Grammar.isName_identFor (hn d hd)
  cases h with
  | version => exact (by decide : Inline "#version ").append (inline_nat _)
  | blank | extent => decide
  | input hd =>
    obtain ⟨hspelling, hident⟩ := hdeclared _ (List.mem_append_left _ hd)
    have htype := ((by decide : Inline "uniform ").append hspelling).append (by decide : Inline " ")
    exact (htype.append hident).append (by decide : Inline ";")
  | output hd location =>
    obtain ⟨hspelling, hident⟩ := hdeclared _ (List.mem_append_right _ hd)
    have hlayout := ((by decide : Inline "layout(location = ").append (inline_nat location)).append (by decide : Inline ") out ")
    have htype := (hlayout.append hspelling).append (by decide : Inline " ")
    exact (htype.append hident).append (by decide : Inline ";")

end Shader

end ShaderTrace.Glsl
