import ShaderTrace.Glsl.Shader
import ShaderTrace.Proofs.Generator.Statements

/-!
# The sections of a program and their declarations

Which children a program may have, which declarations its sections may hold, and what the shader of a program is made of
(`shaderOf_eq_ok_iff`). Two declarations are apart if neither their symbols nor their spellings are the same.
-/

namespace ShaderTrace.Glsl

/-! ## Sections -/

/-- The first tree of a kind. -/
def firstOf (kind : NodeKind) (trees : List Tree) : Option Tree := trees.find? (·.kind == kind)

/-- A tree of the kind at the head of the row is the first one. -/
theorem firstOf_cons_of_eq {kind : NodeKind} {tree : Tree} (trees : List Tree) (h : tree.kind = kind) :
    firstOf kind (tree :: trees) = some tree :=
  List.find?_cons_of_pos (by simpa using h)

/-- A tree of another kind at the head of the row is passed over. -/
theorem firstOf_cons_of_ne {kind : NodeKind} {tree : Tree} (trees : List Tree) (h : tree.kind ≠ kind) :
    firstOf kind (tree :: trees) = firstOf kind trees :=
  List.find?_cons_of_neg (by simpa using h)

/-- If no kind occurs twice, the first tree of a kind is the one of that kind. -/
theorem firstOf_eq_some_iff {kind : NodeKind} {trees : List Tree} (hd : (trees.map Tree.kind).Nodup) {tree : Tree} :
    firstOf kind trees = some tree ↔ tree ∈ trees ∧ tree.kind = kind := find?_eq_some_iff_of_nodup hd

/-- What has been found after further children of a program. -/
def Sections.after (sections : Sections) (trees : List Tree) : Sections where
  inputs := sections.inputs.or (firstOf .constData trees)
  outputs := sections.outputs.or (firstOf .outData trees)
  main := sections.main.or (firstOf .main trees)

/-- The section of a kind. -/
def Sections.get? (sections : Sections) : NodeKind → Option Tree
  | .constData => sections.inputs
  | .outData => sections.outputs
  | .main => sections.main
  | _ => none

/-- After trees were gathered a section is the one it was, or else the first tree of its kind. -/
theorem Sections.get?_after (sections : Sections) (trees : List Tree) {kind : NodeKind} (h : kind.isSection = true) :
    (sections.after trees).get? kind = (sections.get? kind).or (firstOf kind trees) := by
  cases kind with
  | constData | outData | main => rfl
  | _ => cases h

/-- To gather one tree and then the rest is to gather them all. -/
theorem Sections.after_cons (sections : Sections) (tree : Tree) (trees : List Tree) :
    (sections.after [tree]).after trees = sections.after (tree :: trees) := by
  have h : ∀ kind, firstOf kind (tree :: trees) = (firstOf kind [tree]).or (firstOf kind trees) := by
    intro kind
    rw [← List.singleton_append, firstOf, List.find?_append]
    rfl
  simp only [Sections.after, h, Option.or_assoc]

/-- A tree is added exactly if it is a section of a kind that is not there yet. -/
theorem Sections.add_eq_ok_iff {sections sections' : Sections} {tree : Tree} :
    sections.add tree = .ok sections' ↔
      tree.kind.isSection = true ∧ sections.get? tree.kind = none ∧ sections' = sections.after [tree] := by
  obtain ⟨inputs, outputs, main⟩ := sections
  have hfirst : ∀ kind, firstOf kind [tree] = if tree.kind = kind then some tree else none := by
    intro kind
    split
    · exact firstOf_cons_of_eq [] ‹_›
    · exact firstOf_cons_of_ne [] ‹_›
  unfold Sections.add Sections.after Sections.get?
  simp only [hfirst]
  cases tree.kind with
  | constData => cases inputs <;> simp [NodeKind.isSection, eq_comm]
  | outData => cases outputs <;> simp [NodeKind.isSection, eq_comm]
  | main => cases main <;> simp [NodeKind.isSection, eq_comm]
  | _ => simp [NodeKind.isSection]

/-- Trees are gathered exactly if they are sections of different kinds, none of which is there yet. -/
theorem foldlM_add_eq_ok_iff {trees : List Tree} : ∀ {sections sections' : Sections},
    trees.foldlM Sections.add sections = .ok sections' ↔
      (∀ tree ∈ trees, tree.kind.isSection = true ∧ sections.get? tree.kind = none) ∧ (trees.map Tree.kind).Nodup ∧
        sections' = sections.after trees := by
  induction trees with
  | nil =>
    rintro ⟨inputs, outputs, main⟩ sections'
    show Except.ok _ = Except.ok _ ↔ _
    simp only [Sections.after, firstOf, List.find?_nil, Option.or_none, Except.ok.injEq, List.map_nil, List.nodup_nil,
      List.not_mem_nil, false_implies, implies_true, true_and]
    exact eq_comm
  | cons tree trees ih =>
    intro sections sections'
    have hget : ∀ other ∈ trees, other.kind.isSection = true →
        ((sections.after [tree]).get? other.kind = none ↔ sections.get? other.kind = none ∧ other.kind ≠ tree.kind) := by
      intro other _ hs
      rw [Sections.get?_after _ _ hs]
      by_cases hk : other.kind = tree.kind
      · rw [hk, firstOf_cons_of_eq [] rfl]
        simp
      · rw [firstOf_cons_of_ne [] (Ne.symm hk)]
        simp [firstOf, hk]
    rw [List.foldlM_cons, bind_eq_ok_iff]
    simp only [Sections.add_eq_ok_iff, ih]
    constructor
    · rintro ⟨_, ⟨hs, hnone, rfl⟩, hall, hd, rfl⟩
      have hne := fun other hm => (hget other hm (hall other hm).1).1 (hall other hm).2
      refine ⟨?_, ?_, Sections.after_cons _ _ _⟩
      · intro other hm
        rcases List.mem_cons.1 hm with rfl | hm
        · exact ⟨hs, hnone⟩
        · exact ⟨(hall other hm).1, (hne other hm).1⟩
      · refine List.nodup_cons.2 ⟨?_, hd⟩
        rw [List.mem_map]
        rintro ⟨other, hm, hk⟩
        exact (hne other hm).2 hk
    · rintro ⟨hall, hd, rfl⟩
      rw [List.map_cons, List.nodup_cons] at hd
      refine ⟨_, ⟨(hall tree List.mem_cons_self).1, (hall tree List.mem_cons_self).2, rfl⟩, ?_, hd.2,
        (Sections.after_cons _ _ _).symm⟩
      intro other hm
      obtain ⟨hs, hnone⟩ := hall other (List.mem_cons_of_mem _ hm)
      exact ⟨hs, (hget other hm hs).2 ⟨hnone, fun hk => hd.1 (List.mem_map.2 ⟨other, hm, hk⟩)⟩⟩

/-- The sections of a program: nothing else stands under it, and none twice. -/
theorem sectionsOf_eq_ok_iff {root : Tree} {sections : Sections} :
    sectionsOf root = .ok sections ↔ root.kind = .program ∧ (∀ tree ∈ root.children, tree.kind.isSection = true) ∧
      (root.children.map Tree.kind).Nodup ∧ sections = Sections.after {} root.children := by
  have hnone : ∀ kind, Sections.get? {} kind = none := by
    intro kind
    cases kind <;> rfl
  unfold sectionsOf
  split
  · rename_i hk
    simp [foldlM_add_eq_ok_iff, hk, hnone]
  · rename_i hk
    simp [hk]

/-! ## Declarations -/

/-- What a node declares. -/
structure Declares (kind : NodeKind) (spelling : String → ValueType → Except GenerateError String) (tree : Tree)
    (d : Declaration) : Prop where
  kind_eq : tree.kind = kind
  symbol_eq : tree.head.symbol? = some d.symbol
  name_eq : tree.head.name = some d.name
  spelling_eq : spelling d.name tree.type = .ok d.spelling
  ident_eq : d.ident = identFor d.name
  type_eq : d.type = tree.type

/-- The declaration takes neither the symbol nor the spelling of one that is there. -/
def Apart (globals : Globals) (d : Declaration) : Prop := ∀ taken ∈ globals, taken.1 ≠ d.symbol ∧ taken.2 ≠ d.ident

section Declarations

variable {kind : NodeKind} {place : Place} {spelling : String → ValueType → Except GenerateError String}
  {globals : Globals}

/-- The symbol or the identifier of a declaration is taken exactly if it is not apart from what was declared. -/
theorem any_taken_iff {d : Declaration} :
    (globals.any fun taken => taken.1 == d.symbol || taken.2 == d.ident) = true ↔ ¬Apart globals d := by
  unfold Apart
  simp only [List.any_eq_true, Bool.or_eq_true, beq_iff_eq, not_forall, not_and_or, not_not, exists_prop]

/-- What is read of a node that declares something, before it is compared with what is there. -/
theorem declaration_of_declares {tree : Tree} {d : Declaration} (h : Declares kind spelling tree d) :
    declaration kind place spelling globals tree =
      if globals.any fun taken => taken.1 == d.symbol || taken.2 == d.ident then .error (.duplicateName d.ident)
      else .ok d := by
  have hd : d = ⟨d.symbol, d.name, identFor d.name, tree.type, d.spelling⟩ := by rw [← h.ident_eq, ← h.type_eq]
  unfold declaration
  rw [hd]
  simp only [h.kind_eq, ne_eq, not_true_eq_false, if_false, symbolOf_eq_ok_iff.2 h.symbol_eq, h.name_eq]
  show (spelling d.name tree.type >>= _) = _
  rw [h.spelling_eq]
  show (if _ then _ else _) = _
  split <;> rfl

/-- A node gives a declaration exactly if it declares it, apart from what was declared. -/
theorem declaration_eq_ok_iff {tree : Tree} {d : Declaration} :
    declaration kind place spelling globals tree = .ok d ↔ Declares kind spelling tree d ∧ Apart globals d := by
  constructor
  · intro h
    have declares : Declares kind spelling tree d := by
      unfold declaration at h
      simp only at h
      split at h
      · cases h
      · rename_i hk
        obtain ⟨symbol, hs, h⟩ := bind_eq_ok_iff.1 h
        split at h
        · rename_i name hn
          obtain ⟨spelled, hsp, h⟩ := bind_eq_ok_iff.1 (show spelling name tree.type >>= _ = _ from h)
          split at h
          · cases h
          · cases h
            exact ⟨not_not.1 hk, symbolOf_eq_ok_iff.1 hs, hn, hsp, rfl, rfl⟩
        · cases h
    refine ⟨declares, ?_⟩
    rw [declaration_of_declares declares] at h
    split at h
    · cases h
    · rename_i hfree
      exact not_not.1 fun hapart => hfree (any_taken_iff.2 hapart)
  · rintro ⟨declares, hapart⟩
    rw [declaration_of_declares declares, if_neg fun htaken => any_taken_iff.1 htaken hapart]

/-- Each declaration is apart from those that are there and from those before it. -/
def ApartAll : Globals → List Declaration → Prop
  | _, [] => True
  | globals, d :: ds => Apart globals d ∧ ApartAll (globals ++ [(d.symbol, d.ident)]) ds

/-- Nodes give declarations exactly if each declares its own, apart from all that come before. -/
theorem declarations_eq_ok_iff {trees : List Tree} : ∀ {globals : Globals} {ds : List Declaration},
    declarations kind place spelling globals trees = .ok ds ↔
      List.Forall₂ (Declares kind spelling) trees ds ∧ ApartAll globals ds := by
  induction trees with
  | nil =>
    intro globals ds
    rw [declarations, List.forall₂_nil_left_iff]
    constructor
    · rintro ⟨⟩
      exact ⟨rfl, trivial⟩
    · rintro ⟨rfl, -⟩
      rfl
  | cons tree trees ih =>
    intro globals ds
    rw [declarations, bind_eq_ok_iff]
    constructor
    · rintro ⟨first, hfirst, h⟩
      obtain ⟨rest, hrest, h⟩ := bind_eq_ok_iff.1 h
      cases h
      obtain ⟨hd, ha⟩ := declaration_eq_ok_iff.1 hfirst
      obtain ⟨hds, has⟩ := ih.1 hrest
      exact ⟨.cons hd hds, ha, has⟩
    · rintro ⟨hds, has⟩
      cases hds with
      | cons hd hds =>
        exact ⟨_, declaration_eq_ok_iff.2 ⟨hd, has.1⟩, bind_eq_ok_iff.2 ⟨_, ih.2 ⟨hds, has.2⟩, rfl⟩⟩

/-- Nodes that declare something are only refused for what is taken. -/
theorem declarations_cases {trees : List Tree} {ds : List Declaration} (h : List.Forall₂ (Declares kind spelling) trees ds) :
    ∀ globals : Globals, declarations kind place spelling globals trees = .ok ds ∨
      ∃ name, declarations kind place spelling globals trees = .error (.duplicateName name) := by
  induction h with
  | nil => exact fun _ => .inl rfl
  | cons hd _ ih =>
    intro globals
    rw [declarations, declaration_of_declares hd]
    split
    · exact .inr ⟨_, rfl⟩
    · rename_i d _ _ _ _
      rcases ih (globals ++ [(d.symbol, d.ident)]) with hok | ⟨name, herror⟩
      · exact .inl (bind_eq_ok_iff.2 ⟨_, rfl, bind_eq_ok_iff.2 ⟨_, hok, rfl⟩⟩)
      · refine .inr ⟨name, ?_⟩
        show declarations kind place spelling _ _ >>= _ = _
        rw [herror]
        rfl

/-- Declarations are apart from one another exactly if no symbol and no identifier occurs twice. -/
theorem apartAll_iff {ds : List Declaration} : ∀ {globals : Globals}, (globals.map Prod.fst).Nodup →
    (globals.map Prod.snd).Nodup → (ApartAll globals ds ↔ ((globals ++ globalsOf ds).map Prod.fst).Nodup ∧
      ((globals ++ globalsOf ds).map Prod.snd).Nodup) := by
  induction ds with
  | nil => intro globals h₁ h₂; simp [ApartAll, globalsOf, h₁, h₂]
  | cons d ds ih =>
    intro globals h₁ h₂
    have hsplit : globals ++ globalsOf (d :: ds) = globals ++ [(d.symbol, d.ident)] ++ globalsOf ds := by
      simp [globalsOf]
    have hnew : Apart globals d ↔ ((globals ++ [(d.symbol, d.ident)]).map Prod.fst).Nodup ∧
        ((globals ++ [(d.symbol, d.ident)]).map Prod.snd).Nodup := by
      simp only [List.map_append, List.map_cons, List.map_nil, List.nodup_append, h₁, h₂, List.nodup_singleton,
        List.mem_map, List.mem_singleton, Apart]
      constructor
      · intro h
        refine ⟨⟨trivial, trivial, ?_⟩, trivial, trivial, ?_⟩
        · rintro _ ⟨taken, hm, rfl⟩ _ rfl
          exact (h taken hm).1
        · rintro _ ⟨taken, hm, rfl⟩ _ rfl
          exact (h taken hm).2
      · rintro ⟨⟨-, -, hs⟩, -, -, hi⟩ taken hm
        exact ⟨hs _ ⟨taken, hm, rfl⟩ _ rfl, hi _ ⟨taken, hm, rfl⟩ _ rfl⟩
    rw [ApartAll, hsplit]
    constructor
    · rintro ⟨ha, has⟩
      exact (ih (hnew.1 ha).1 (hnew.1 ha).2).1 has
    · intro hall
      have hfront : ((globals ++ [(d.symbol, d.ident)]).map Prod.fst).Nodup ∧
          ((globals ++ [(d.symbol, d.ident)]).map Prod.snd).Nodup := by
        obtain ⟨hs, hi⟩ := hall
        rw [List.map_append] at hs hi
        exact ⟨(List.nodup_append.1 hs).1, (List.nodup_append.1 hi).1⟩
      exact ⟨hnew.2 hfront, (ih hfront.1 hfront.2).2 hall⟩

end Declarations

theorem map_fst_globalsOf (ds : List Declaration) : (globalsOf ds).map Prod.fst = ds.map (·.symbol) := by
  simp [globalsOf]

theorem map_snd_globalsOf (ds : List Declaration) : (globalsOf ds).map Prod.snd = ds.map (·.ident) := by
  simp [globalsOf]

/-- The inputs are apart from each other, and the outputs from the inputs and from each other, exactly if no two have the same
symbol or the same spelling. -/
theorem apartAll_globalsOf_iff {inputs outputs : List Declaration} :
    ApartAll [] inputs ∧ ApartAll (globalsOf inputs) outputs ↔
      ((inputs ++ outputs).map (·.symbol)).Nodup ∧ ((inputs ++ outputs).map (·.ident)).Nodup := by
  have hglobals : globalsOf (inputs ++ outputs) = globalsOf inputs ++ globalsOf outputs := by simp [globalsOf]
  rw [@apartAll_iff inputs [] List.nodup_nil List.nodup_nil, List.nil_append, ← map_fst_globalsOf, ← map_snd_globalsOf, hglobals]
  constructor
  · rintro ⟨⟨hs, hi⟩, h⟩
    exact (apartAll_iff hs hi).1 h
  · intro h
    have hfront : ((globalsOf inputs).map Prod.fst).Nodup ∧ ((globalsOf inputs).map Prod.snd).Nodup := by
      rw [List.map_append, List.map_append] at h
      exact ⟨(List.nodup_append.1 h.1).1, (List.nodup_append.1 h.2).1⟩
    exact ⟨hfront, (apartAll_iff hfront.1 hfront.2).2 h⟩

/-- An input may have every type that has a name. -/
theorem inputSpelling_eq_ok_iff {name spelled : String} {type : ValueType} :
    inputSpelling name type = .ok spelled ↔ typeName? type = some spelled := by
  unfold inputSpelling
  cases h : typeName? type with
  | none => simp
  | some found =>
    have hvoid : type.isVoid = false := by
      rw [ValueType.isVoid, beq_eq_false_iff_ne]
      rintro rfl
      cases h
    simp [hvoid]

/-- An output may have every type that has a name, but no buffer and no truth value. -/
theorem outputSpelling_eq_ok_iff {name spelled : String} {type : ValueType} :
    outputSpelling name type = .ok spelled ↔ typeName? type = some spelled ∧ type.isBuffer = false ∧ type ≠ .bool := by
  unfold outputSpelling
  cases typeName? type with
  | none => simp
  | some found =>
    simp only
    by_cases h : type.isBuffer = true ∨ type = .bool
    · rw [if_pos h]
      rcases h with h | h <;> simp [h]
    · rw [if_neg h]
      rw [not_or] at h
      simp [h.1, h.2]

/-! ## Shaders -/

/-- The scope of the body of a shader. -/
def Shader.scope (shader : Shader) : Scope :=
  Scope.outermost (globalsOf shader.inputs ++ globalsOf shader.outputs) (shader.inputs.map (·.symbol))

/-- What a shader is made of. -/
structure Made (root main : Tree) (shader : Shader) : Prop where
  program : root.kind = .program
  sections : ∀ tree ∈ root.children, tree.kind.isSection = true
  once : (root.children.map Tree.kind).Nodup
  main_eq : firstOf .main root.children = some main
  inputs : List.Forall₂ (Declares .constVar inputSpelling) (childrenOf (firstOf .constData root.children)) shader.inputs
  outputs : List.Forall₂ (Declares .outVar outputSpelling) (childrenOf (firstOf .outData root.children)) shader.outputs
  symbols : ((shader.inputs ++ shader.outputs).map (·.symbol)).Nodup
  idents : ((shader.inputs ++ shader.outputs).map (·.ident)).Nodup
  body : statements shader.scope none main.children = .ok shader.body
  extent : shader.usesDispatchSize = main.any needsDispatchSize

/-- Every declaration is declared by one of the nodes. -/
theorem exists_declares {kind : NodeKind} {spelling : String → ValueType → Except GenerateError String} {trees : List Tree}
    {ds : List Declaration} (h : List.Forall₂ (Declares kind spelling) trees ds) {d : Declaration} (hd : d ∈ ds) :
    ∃ tree ∈ trees, Declares kind spelling tree d := by
  induction h with
  | nil => cases hd
  | @cons tree other trees ds hfirst _ ih =>
    rcases List.mem_cons.1 hd with rfl | hd
    · exact ⟨tree, List.mem_cons_self, hfirst⟩
    · obtain ⟨tree', hm, hdeclares⟩ := ih hd
      exact ⟨tree', List.mem_cons_of_mem _ hm, hdeclares⟩

/-- The identifier of a global is made from its name. -/
theorem Made.ident_eq {root main : Tree} {shader : Shader} (h : Made root main shader) {d : Declaration}
    (hd : d ∈ shader.inputs ++ shader.outputs) : d.ident = identFor d.name := by
  rcases List.mem_append.1 hd with hd | hd
  · obtain ⟨_, -, hdeclares⟩ := exists_declares h.inputs hd
    exact hdeclares.ident_eq
  · obtain ⟨_, -, hdeclares⟩ := exists_declares h.outputs hd
    exact hdeclares.ident_eq

/-- The type of a global is spelled by its name. -/
theorem Made.typeName?_eq {root main : Tree} {shader : Shader} (h : Made root main shader) {d : Declaration}
    (hd : d ∈ shader.inputs ++ shader.outputs) : typeName? d.type = some d.spelling := by
  rcases List.mem_append.1 hd with hd | hd
  · obtain ⟨_, -, hdeclares⟩ := exists_declares h.inputs hd
    rw [hdeclares.type_eq]
    exact inputSpelling_eq_ok_iff.1 hdeclares.spelling_eq
  · obtain ⟨_, -, hdeclares⟩ := exists_declares h.outputs hd
    rw [hdeclares.type_eq]
    exact (outputSpelling_eq_ok_iff.1 hdeclares.spelling_eq).1

/-- A shader comes out exactly if it is made from the tree as the rules say. -/
theorem shaderOf_eq_ok_iff {root : Tree} {shader : Shader} : shaderOf root = .ok shader ↔ ∃ main, Made root main shader := by
  unfold shaderOf
  rw [bind_eq_ok_iff]
  constructor
  · rintro ⟨sections, hsections, h⟩
    obtain ⟨hprogram, hkinds, honce, rfl⟩ := sectionsOf_eq_ok_iff.1 hsections
    simp only at h
    split at h
    · rename_i main hmain
      obtain ⟨inputs, hinputs, h⟩ := bind_eq_ok_iff.1 (show declarations .constVar _ _ _ _ >>= _ = _ from h)
      obtain ⟨outputs, houtputs, h⟩ := bind_eq_ok_iff.1 h
      obtain ⟨body, hbody, h⟩ := bind_eq_ok_iff.1 h
      cases h
      obtain ⟨hin, hapart⟩ := declarations_eq_ok_iff.1 hinputs
      obtain ⟨hout, hapart'⟩ := declarations_eq_ok_iff.1 houtputs
      obtain ⟨hsymbols, hidents⟩ := apartAll_globalsOf_iff.1 ⟨hapart, hapart'⟩
      exact ⟨main, hprogram, hkinds, honce, by simpa [Sections.after] using hmain, by simpa [Sections.after] using hin,
        by simpa [Sections.after] using hout, hsymbols, hidents, hbody, rfl⟩
    · cases h
  · rintro ⟨main, h⟩
    obtain ⟨usesDispatchSize, inputs, outputs, body⟩ := shader
    obtain ⟨hapart, hapart'⟩ := apartAll_globalsOf_iff.2 ⟨h.symbols, h.idents⟩
    refine ⟨_, sectionsOf_eq_ok_iff.2 ⟨h.program, h.sections, h.once, rfl⟩, ?_⟩
    have hmain : (Sections.after {} root.children).main = some main := by simpa [Sections.after] using h.main_eq
    simp only [hmain]
    have hinputs : declarations .constVar .inputDeclaration inputSpelling []
        (childrenOf (Sections.after {} root.children).inputs) = .ok inputs :=
      declarations_eq_ok_iff.2 ⟨by simpa [Sections.after] using h.inputs, hapart⟩
    have houtputs : declarations .outVar .outputDeclaration outputSpelling (globalsOf inputs)
        (childrenOf (Sections.after {} root.children).outputs) = .ok outputs :=
      declarations_eq_ok_iff.2 ⟨by simpa [Sections.after] using h.outputs, hapart'⟩
    show declarations _ _ _ _ _ >>= _ = _
    rw [hinputs]
    show declarations _ _ _ _ _ >>= _ = _
    rw [houtputs]
    show statements _ _ _ >>= _ = _
    refine bind_eq_ok_iff.2 ⟨body, h.body, ?_⟩
    rw [← show usesDispatchSize = main.any needsDispatchSize from h.extent]
    rfl

/-- A program comes out exactly if it is that of a shader made from the tree at the root. -/
theorem generate_eq_ok_iff {config : Config} {arena : Arena} {root : NodeId} {program : Program} :
    generate config arena root = .ok program ↔ ∃ tree shader, arena.tree root = .ok tree ∧ shaderOf tree = .ok shader ∧
      program = shader.program config := by
  unfold generate
  cases arena.tree root with
  | error e =>
    constructor
    · intro h
      cases h
    · rintro ⟨_, _, h, -⟩
      cases h
  | ok tree =>
    show shaderOf tree >>= (fun shader => .ok (shader.program config)) = .ok program ↔ _
    rw [bind_eq_ok_iff]
    constructor
    · rintro ⟨shader, hshader, h⟩
      exact ⟨tree, shader, rfl, hshader, (Except.ok.inj h).symm⟩
    · rintro ⟨_, shader, h, hshader, rfl⟩
      obtain rfl := Except.ok.inj h
      exact ⟨shader, hshader, rfl⟩

end ShaderTrace.Glsl
