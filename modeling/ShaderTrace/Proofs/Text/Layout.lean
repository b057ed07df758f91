import ShaderTrace.Proofs.Generator.Failures
import ShaderTrace.Proofs.Text.Scoping

/-!
# What the configuration decides

The configuration comes in when a shader has been made, and then it decides two things only: the first line, which is the version,
and how far the other lines are indented. Without their indentation the lines of a text are those of its rows, whatever their
depth (`flush_textOf`), and the rows after the first do not depend on the configuration. The main statement is
`config_sets_layout`.
-/

namespace ShaderTrace.Glsl

/-! ## Lines without their indentation -/

/-- The lines of a text, without the ends of lines. -/
def linesOf (text : String) : List (List Char) := text.toList.splitOn '\n'

/-- A line without the spaces that it begins with. -/
def flush (line : List Char) : List Char := line.dropWhile (· == ' ')

/-- The text without its first line, and the other lines without the spaces that they begin with. -/
def withoutLayout (text : String) : List (List Char) := (linesOf text).tail.map flush

/-- A text without an end of a line is one line. -/
theorem linesOf_of_not_mem {text : String} (h : '\n' ∉ text.toList) : linesOf text = [text.toList] := by
  rw [linesOf, List.splitOn_eq_splitOnP, List.splitOnP_eq_singleton]
  intro c hc
  refine beq_false_of_ne ?_
  rintro rfl
  exact h hc

/-- The lines of a text after a line are that line and the lines of the text. -/
theorem linesOf_line (line text : String) : linesOf (line ++ "\n" ++ text) = linesOf line ++ linesOf text := by
  have htext : (line ++ "\n" ++ text).toList = line.toList ++ '\n' :: text.toList := by simp
  rw [linesOf, htext, List.splitOn_append_cons_self]
  rfl

/-- Spaces before a text go to its first line, where they are taken away again. -/
theorem flush_spaces (count : Nat) (cs : List Char) :
    ((List.replicate count ' ' ++ cs).splitOn '\n').map flush = (cs.splitOn '\n').map flush := by
  induction count with
  | zero => rfl
  | succ count ih =>
    rw [← ih, List.replicate_succ, List.cons_append, List.splitOn_cons_eq_if_modifyHead, if_neg (by decide)]
    obtain ⟨first, rest, hsplit⟩ := List.exists_cons_of_ne_nil
      (List.splitOn_ne_nil '\n' (List.replicate count ' ' ++ cs))
    rw [hsplit, List.modifyHead_cons, List.map_cons, List.map_cons]
    rfl

/-- How far a level is indented does not matter once the indentation is taken away. -/
theorem flush_textOf (indent indent' : Nat) (rows : List Row) :
    (linesOf (textOf indent rows)).map flush = (linesOf (textOf indent' rows)).map flush := by
  have hline : ∀ (width : Nat) (row : Row) (text : String),
      (linesOf (row.line.render width ++ text)).map flush = (linesOf row.line.text).map flush ++ (linesOf text).map flush := by
    intro width row text
    rw [Line.render, linesOf_line, List.map_append, linesOf, String.toList_append, String.toList_ofList, flush_spaces]
    rfl
  induction rows with
  | nil => rfl
  | cons row rows ih => rw [textOf_cons, textOf_cons, hline, hline, ih]

/-! ## Two configurations -/

/-- The rows of a shader after its version. -/
def Shader.restRows (shader : Shader) : List Row :=
  spaced shader.uniformRows ++ spaced shader.targetRows ++ [⟨0, .blank⟩, ⟨0, .main⟩] ++
    bracedRows 0 (Stmt.rowsAll 1 shader.body)

/-- The rows of a shader start with the version, and the rest does not depend on the configuration. -/
theorem rows_eq_cons (config : Config) (shader : Shader) :
    shader.rows config = ⟨0, .version config.version⟩ :: shader.restRows := by
  rw [Shader.rows, Shader.headerRows, Shader.restRows, List.cons_append]

/-- The version is one line. -/
theorem linesOf_version (number : Nat) :
    linesOf (Clause.version number).text = [(Clause.version number).text.toList] := by
  refine linesOf_of_not_mem fun hc => ?_
  have htext : (Clause.version number).text.toList = "#version ".toList ++ Nat.toDigits 10 number := by
    show ("#version " ++ number.repr).toList = _
    rw [String.toList_append, Nat.toList_repr]
  rcases List.mem_append.1 (htext ▸ hc) with hc | hc
  · revert hc
    decide
  · cases isDigit_of_mem_toDigits hc

/-- The first line is the version; the others are those of rows that do not depend on the configuration. -/
theorem linesOf_text (config : Config) (shader : Shader) : linesOf (shader.text config) =
    (Clause.version config.version).text.toList :: linesOf (textOf config.indent shader.restRows) := by
  rw [Shader.text_eq, rows_eq_cons, textOf_cons, render_outermost, linesOf_line, linesOf_version, List.singleton_append]

/-- The texts of one shader are the same but for the version and the indentation. -/
theorem withoutLayout_text (config config' : Config) (shader : Shader) :
    withoutLayout (shader.text config') = withoutLayout (shader.text config) := by
  rw [withoutLayout, withoutLayout, linesOf_text, linesOf_text, List.tail_cons, List.tail_cons]
  exact flush_textOf config'.indent config.indent shader.restRows

/-- The shader is made before the configuration comes in. -/
theorem exists_generate_eq_map (source : Source) : ∃ made : Except GenerateError Shader,
    ∀ config, source.generate config = made.map (Shader.program config) := by
  cases htree : source.arena.tree Session.root with
  | error error =>
    refine ⟨.error (.noTree error), fun config => ?_⟩
    rw [Source.generate, generate, htree]
    rfl
  | ok tree =>
    refine ⟨shaderOf tree, fun config => ?_⟩
    rw [Source.generate, generate, htree]
    show (shaderOf tree >>= fun shader => _) = _
    cases shaderOf tree <;> rfl

/-- The configuration sets the layout and nothing else. With two configurations, the same sources can be compiled, the errors of the
others are the same, and the programs have the same manifest. Their texts are the same without the first line, which is the version,
and without the spaces that the other lines begin with. -/
theorem config_sets_layout (source : Source) (config config' : Config) :
    ((∃ program, source.generate config = .ok program) ↔ ∃ program, source.generate config' = .ok program) ∧
    (∀ error error', source.generate config = .error error → source.generate config' = .error error' → error' = error) ∧
    ∀ program program', source.generate config = .ok program → source.generate config' = .ok program' →
      program'.inputs = program.inputs ∧ program'.outputs = program.outputs ∧
      (linesOf program.source).head? = some ("#version " ++ toString config.version).toList ∧
      withoutLayout program'.source = withoutLayout program.source := by
  obtain ⟨made, hmade⟩ := exists_generate_eq_map source
  rw [hmade, hmade]
  cases made with
  | error error =>
    refine ⟨⟨?_, ?_⟩, ?_, ?_⟩
    · rintro ⟨program, ⟨⟩⟩
    · rintro ⟨program, ⟨⟩⟩
    · rintro error₁ error₂ ⟨⟩ ⟨⟩
      rfl
    · rintro program program' ⟨⟩
  | ok shader =>
    refine ⟨⟨fun _ => ⟨_, rfl⟩, fun _ => ⟨_, rfl⟩⟩, ?_, ?_⟩
    · rintro error error' ⟨⟩
    · intro program program' h h'
      obtain rfl : shader.program config = program := Except.ok.inj h
      obtain rfl : shader.program config' = program' := Except.ok.inj h'
      have hfirst : (linesOf (shader.text config)).head? = some (Clause.version config.version).text.toList := by
        rw [linesOf_text, List.head?_cons]
      exact ⟨rfl, rfl, hfirst, withoutLayout_text config config' shader⟩

/-- Branches in a loop: with the usual configuration, and with another version and no indentation. -/
theorem config_sets_layout_nested : ∃ program program' : Program,
    (Recording.sourceOf nestedSteps).generate {} = .ok program ∧
      (Recording.sourceOf nestedSteps).generate ⟨400, 0⟩ = .ok program' ∧
      program'.inputs = program.inputs ∧ program'.outputs = program.outputs ∧
      (linesOf program.source).head? = some "#version 330".toList ∧
      (linesOf program'.source).head? = some "#version 400".toList ∧
      withoutLayout program'.source = withoutLayout program.source := by
  have hok : ((Recording.sourceOf nestedSteps).generate {}).isOk = true := by decide +kernel
  obtain ⟨program, hprogram⟩ := exists_program_of_isOk hok
  obtain ⟨hiff, -, hall⟩ := config_sets_layout (Recording.sourceOf nestedSteps) {} ⟨400, 0⟩
  obtain ⟨-, -, hall'⟩ := config_sets_layout (Recording.sourceOf nestedSteps) ⟨400, 0⟩ {}
  obtain ⟨program', hprogram'⟩ := hiff.1 ⟨program, hprogram⟩
  obtain ⟨hinputs, houtputs, hfirst, htext⟩ := hall program program' hprogram hprogram'
  obtain ⟨-, -, hfirst', -⟩ := hall' program' program hprogram' hprogram
  exact ⟨program, program', hprogram, hprogram', hinputs, houtputs, hfirst.trans (by decide +kernel),
    hfirst'.trans (by decide +kernel), htext⟩

end ShaderTrace.Glsl
