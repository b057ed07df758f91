import ShaderTrace.Proofs.Generator.Acceptance
import ShaderTrace.Proofs.Text.Rows

/-!
# The manifest and the text agree

A program tells a host what to bind: its inputs and outputs, in the order of their declarations and numbered from zero. No two
of them have the same name or the same spelling, so that a name finds the one that was declared under it. And the text declares
exactly these, in the same order and with the same spellings, types and numbers. The main statement is `manifest_matches_text`.
-/

namespace ShaderTrace

/-- The line that declares an input; there is none if its type has no spelling. -/
def InputBinding.line? (binding : InputBinding) : Option String :=
  (Glsl.typeName? binding.type).map fun type => "uniform " ++ type ++ " " ++ binding.ident ++ ";"

/-- The line that declares an output. -/
def OutputBinding.line? (binding : OutputBinding) : Option String :=
  (Glsl.typeName? binding.type).map fun type =>
    "layout(location = " ++ toString binding.location ++ ") out " ++ type ++ " " ++ binding.ident ++ ";"

namespace Glsl

/-! ## Numbered declarations -/

/-- What a node declares: its name, the spelling of the name, and its type. -/
def DeclaredAs (node : Term) (name ident : String) (type : ValueType) : Prop :=
  node.head.name = some name ∧ ident = identFor name ∧ node.type = type

section Numbered

variable {kind : NodeKind} {spelling : String → ValueType → Except GenerateError String} {trees : List Tree}
  {ds : List Declaration}

/-- What a node declares it declares in its term. -/
theorem declaredAs_of_declares {tree : Tree} {d : Declaration} (h : Declares kind spelling tree d) :
    DeclaredAs tree.term d.name d.ident d.type :=
  ⟨by rw [Tree.term_head, h.name_eq], h.ident_eq, by rw [Tree.term_type, h.type_eq]⟩

/-- What holds of each declaration holds of it with its number. -/
theorem forall₂_numbered {α : Type} {related : Term → α → Prop} {numbered : Declaration × Nat → α}
    (hn : ∀ tree d n, Declares kind spelling tree d → related tree.term (numbered (d, n)))
    (h : List.Forall₂ (Declares kind spelling) trees ds) :
    ∀ first, List.Forall₂ related (trees.map Tree.term) ((ds.zipIdx first).map numbered) := by
  induction h with
  | nil => exact fun _ => .nil
  | cons hd _ ih => exact fun first => .cons (hn _ _ first hd) (ih (first + 1))

/-- What does not depend on the numbers. -/
theorem map_numbered {α β : Type} {numbered : Declaration × Nat → α} {view : α → β} {shown : Declaration → β}
    (h : ∀ d ∈ ds, ∀ n, view (numbered (d, n)) = shown d) : (ds.zipIdx.map numbered).map view = ds.map shown := by
  have hds : ds.map shown = ds.zipIdx.map (shown ∘ Prod.fst) := by rw [← List.map_map, List.zipIdx_map_fst]
  rw [hds, List.map_map]
  exact List.map_congr_left fun entry hm => h entry.1 (List.fst_mem_of_mem_zipIdx hm) entry.2

/-- The numbers count from zero. -/
theorem map_number {α : Type} {numbered : Declaration × Nat → α} {number : α → Nat}
    (h : ∀ d n, number (numbered (d, n)) = n) (ds : List Declaration) :
    (ds.zipIdx.map numbered).map number = List.range (ds.zipIdx.map numbered).length := by
  have hnumber : number ∘ numbered = Prod.snd := funext fun entry => h entry.1 entry.2
  rw [List.map_map, hnumber, List.zipIdx_map_snd, List.length_map, List.length_zipIdx, List.range_eq_range']

end Numbered

/-! ## Texts as lines -/

/-- Lines, each with its end. -/
def unlines (lines : List String) : String := String.join (lines.map (· ++ "\n"))

/-- Lines in a row are written one after the other. -/
theorem unlines_append (lines lines' : List String) : unlines (lines ++ lines') = unlines lines ++ unlines lines' := by
  rw [unlines, List.map_append, String.join_append, unlines, unlines]

/-- Lines after an empty one, or nothing if there are none. -/
def paragraph (lines : List String) : List String := if lines = [] then [] else "" :: lines

/-- A group of lines is a paragraph of them. -/
theorem group_eq (lines : List String) : group lines = unlines (paragraph lines) := by
  cases lines with
  | nil => rfl
  | cons line lines =>
    rw [paragraph, if_neg (List.cons_ne_nil line lines), unlines, List.map_cons, String.join_cons]
    rfl

/-- The lines of a body between braces. -/
theorem join_braced (indent : Nat) (lines : List Line) :
    ∃ body, String.join ((braced 0 lines).map (Line.render indent)) = unlines (["\x7b"] ++ body ++ ["\x7d"]) := by
  refine ⟨lines.map fun line => String.ofList (List.replicate (indent * line.depth) ' ') ++ line.text, ?_⟩
  have hlines : lines.map (Line.render indent) =
      (lines.map fun line => String.ofList (List.replicate (indent * line.depth) ' ') ++ line.text).map (· ++ "\n") := by
    rw [List.map_map]
    rfl
  have hbrace : ∀ text : String, Line.render indent ⟨0, text⟩ = text ++ "\n" := by simp [Line.render]
  rw [braced, List.map_cons, List.map_append, hlines, unlines, List.map_append, List.map_append]
  simp only [List.map_cons, List.map_nil, hbrace, List.cons_append, List.nil_append]

/-- The text of a shader by its lines. -/
theorem Shader.text_eq_unlines (config : Config) (shader : Shader) :
    ∃ body, shader.text config = unlines (["#version " ++ toString config.version] ++ paragraph shader.uniformLines ++
      paragraph shader.targetLines ++ ["", "void main()", "\x7b"] ++ body ++ ["\x7d"]) := by
  obtain ⟨body, hbody⟩ := join_braced config.indent (Stmt.linesAll 1 shader.body)
  have hversion : "#version " ++ toString config.version ++ "\n" = unlines ["#version " ++ toString config.version] := by
    simp [unlines]
  have hmain : "\nvoid main()\n" = unlines ["", "void main()"] := rfl
  have hclose : unlines ["\x7d"] = "\x7d\n" := rfl
  refine ⟨body, ?_⟩
  rw [Shader.text, hbody, group_eq, group_eq, hversion, hmain, ← unlines_append, ← unlines_append, ← unlines_append,
    ← unlines_append, ← List.append_assoc, ← List.append_assoc, unlines_append _ ["\x7d"], hclose, endLine_of_brace, ← hclose,
    ← unlines_append]
  simp only [List.append_assoc, List.cons_append, List.nil_append]

/-- Different spellings are those of different names. -/
theorem Made.names {root main : Tree} {shader : Shader} (h : Made root main shader) :
    ((shader.inputs ++ shader.outputs).map (·.name)).Nodup := by
  have hidents : (shader.inputs ++ shader.outputs).map (·.ident) =
      ((shader.inputs ++ shader.outputs).map (·.name)).map identFor := by
    rw [List.map_map]
    exact List.map_congr_left fun d hd => h.ident_eq hd
  exact (hidents ▸ h.idents).of_map identFor

/-- The inputs in the manifest say how the uniforms are declared. -/
theorem Made.inputLines {root main : Tree} {shader : Shader} (h : Made root main shader) (config : Config) :
    (shader.program config).inputs.map InputBinding.line? =
      (shader.inputs.map fun d => "uniform " ++ d.spelling ++ " " ++ d.ident ++ ";").map some := by
  rw [List.map_map]
  refine map_numbered fun d hd n => ?_
  rw [InputBinding.line?, h.typeName?_eq (List.mem_append_left _ hd)]
  rfl

/-- The outputs in the manifest say how the targets are declared. -/
theorem Made.outputLines {root main : Tree} {shader : Shader} (h : Made root main shader) (config : Config) :
    (shader.program config).outputs.map OutputBinding.line? = shader.targetLines.map some := by
  rw [Shader.program, Shader.targetLines, List.map_map, List.map_map]
  refine List.map_congr_left fun entry hm => ?_
  have htype := h.typeName?_eq (List.mem_append_right _ (List.fst_mem_of_mem_zipIdx hm))
  rw [Function.comp_apply, OutputBinding.line?, htype]
  rfl

/-- The manifest of a program lists the declarations of its sections, in their order and numbered from zero, wherever the
sections stand. All names and all spellings are different, so that looking a name up gives the only declaration of that name.
Between the first line and the body of main, the text has the uniforms, of which the first may be the extent of the computation
and the others are the inputs, and then the outputs, both in the order of the manifest, each group after an empty line. -/
theorem manifest_matches_text (config : Config) (arena : Arena) (root : NodeId) (program : Program)
    (h : generate config arena root = .ok program) :
    (∃ tree, arena.tree root = .ok tree ∧
      List.Forall₂ (fun node (b : InputBinding) => DeclaredAs node b.name b.ident b.type) (below tree.term .constData)
        program.inputs ∧
      List.Forall₂ (fun node (b : OutputBinding) => DeclaredAs node b.name b.ident b.type) (below tree.term .outData)
        program.outputs) ∧
    (program.inputs.map (·.slot) = List.range program.inputs.length ∧
      program.outputs.map (·.location) = List.range program.outputs.length) ∧
    ((program.inputs.map (·.name) ++ program.outputs.map (·.name)).Nodup ∧
      (program.inputs.map (·.ident) ++ program.outputs.map (·.ident)).Nodup) ∧
    ((∀ name b, program.input? name = some b ↔ b ∈ program.inputs ∧ b.name = name) ∧
      ∀ name b, program.output? name = some b ↔ b ∈ program.outputs ∧ b.name = name) ∧
    ∃ extent uniforms targets body, extent ∈ [[], ["uniform ivec2 dispatch_size;"]] ∧
      program.inputs.map InputBinding.line? = uniforms.map some ∧
      program.outputs.map OutputBinding.line? = targets.map some ∧
      program.source = unlines (["#version " ++ toString config.version] ++ paragraph (extent ++ uniforms) ++
        paragraph targets ++ ["", "void main()", "\x7b"] ++ body ++ ["\x7d"]) := by
  obtain ⟨tree, shader, htree, hshader, rfl⟩ := generate_eq_ok_iff.1 h
  obtain ⟨main, hmade⟩ := shaderOf_eq_ok_iff.1 hshader
  obtain ⟨body, hbody⟩ := shader.text_eq_unlines config
  have hinputNames : (shader.program config).inputs.map (·.name) = shader.inputs.map (·.name) := map_numbered fun _ _ _ => rfl
  have houtputNames : (shader.program config).outputs.map (·.name) = shader.outputs.map (·.name) :=
    map_numbered fun _ _ _ => rfl
  have hinputIdents : (shader.program config).inputs.map (·.ident) = shader.inputs.map (·.ident) :=
    map_numbered fun _ _ _ => rfl
  have houtputIdents : (shader.program config).outputs.map (·.ident) = shader.outputs.map (·.ident) :=
    map_numbered fun _ _ _ => rfl
  have hnames := hmade.names
  have hidents := hmade.idents
  rw [List.map_append] at hnames hidents
  refine ⟨⟨tree, htree, ?_, ?_⟩, ⟨map_number (fun _ _ => rfl) _, map_number (fun _ _ => rfl) _⟩, ⟨?_, ?_⟩, ⟨?_, ?_⟩, ?_⟩
  · rw [below_term hmade.once]
    exact forall₂_numbered (fun _ _ _ => declaredAs_of_declares) hmade.inputs 0
  · rw [below_term hmade.once]
    exact forall₂_numbered (fun _ _ _ => declaredAs_of_declares) hmade.outputs 0
  · rwa [hinputNames, houtputNames]
  · rwa [hinputIdents, houtputIdents]
  · exact fun name b => find?_eq_some_iff_of_nodup (hinputNames ▸ hnames.of_append_left)
  · exact fun name b => find?_eq_some_iff_of_nodup (houtputNames ▸ hnames.of_append_right)
  · refine ⟨_, _, _, body, ?_, hmade.inputLines config, hmade.outputLines config, hbody⟩
    split <;> decide

/-- A program whose sections stand in another order than in its text, with an input that has the name of a function. -/
def reversedEdits : List Edit :=
  [.alloc { kind := .program, type := .void }, .alloc { kind := .main, type := .void },
    .alloc { kind := .outData, type := .void }, .alloc ((Head.ofSymbol .outVar .float4 ⟨0⟩).named "color"), .attach ⟨2⟩ ⟨3⟩,
    .alloc { kind := .constData, type := .void }, .alloc ((Head.ofSymbol .constVar .float ⟨1⟩).named "sin"), .attach ⟨4⟩ ⟨5⟩,
    .alloc ((Head.ofSymbol .constVar .int2 ⟨2⟩).named "size"), .attach ⟨4⟩ ⟨6⟩, .attach ⟨0⟩ ⟨1⟩, .attach ⟨0⟩ ⟨2⟩,
    .attach ⟨0⟩ ⟨4⟩]

def reversedProgram : Program where
  source := "#version 330\n\nuniform float sin_;\nuniform ivec2 size;\n\nlayout(location = 0) out vec4 color;\n\n" ++
    "void main()\n\x7b\n\x7d\n"
  inputs := [⟨"sin", "sin_", .float, 0⟩, ⟨"size", "size", .int2, 1⟩]
  outputs := [⟨"color", "color", .float4, 0⟩]

/-- An input named as a function is found by its own name, whatever the order of the sections. -/
theorem manifest_matches_text_reversed :
    generate {} (Arena.empty.editAll reversedEdits) ⟨0⟩ = .ok reversedProgram ∧
      reversedProgram.input? "sin" = some ⟨"sin", "sin_", .float, 0⟩ ∧
      ∀ binding, reversedProgram.output? "sin" ≠ some binding := by
  have h : generate {} (Arena.empty.editAll reversedEdits) ⟨0⟩ = .ok reversedProgram := by decide +kernel
  obtain ⟨-, -, -, ⟨hinput, houtput⟩, -⟩ := manifest_matches_text {} _ _ _ h
  refine ⟨h, (hinput _ _).2 ⟨List.mem_cons_self, rfl⟩, fun binding hfound => ?_⟩
  obtain ⟨hmem, hname⟩ := (houtput _ _).1 hfound
  obtain rfl := List.mem_singleton.1 hmem
  revert hname
  decide

end Glsl

end ShaderTrace
