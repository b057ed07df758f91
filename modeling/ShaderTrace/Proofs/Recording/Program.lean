import ShaderTrace.Proofs.Recording.Session

/-!
# Recorded programs

What the judgements say about a whole program: it holds sections, none twice; the two sections of declarations hold inputs and
outputs and nothing else; and nothing below main declares anything. So the names that were taken are those of the declarations,
and no two of the declarations have the same symbol.
-/

namespace ShaderTrace.Recording

/-! ## What fits where -/

/-- The kinds of statements. -/
def isStatement : NodeKind → Bool
  | .assignment | .block | .ifBranch | .elseIfBranch | .elseBranch | .whileLoop | .forRange => true
  | _ => false

/-- What fits where statements are accepted is a statement. -/
theorem isStatement_of_fits {parent kind : NodeKind} {before : List NodeKind} (hp : parent.acceptsStatements = true)
    (h : fits parent before kind = true) : isStatement kind = true := by
  cases kind with
  | assignment | block | ifBranch | elseIfBranch | elseBranch | whileLoop | forRange => rfl
  | constData | outData | main =>
    rw [beq_iff_eq.1 (Bool.and_eq_true_iff.1 h).1] at hp
    cases hp
  | constVar | outVar =>
    rw [beq_iff_eq.1 h] at hp
    cases hp
  | _ => cases h

/-- All that fits where statements are accepted is statements. -/
theorem isStatement_of_fitting {parent : NodeKind} (hp : parent.acceptsStatements = true) :
    ∀ {kinds before : List NodeKind}, Fitting parent before kinds → ∀ kind ∈ kinds, isStatement kind = true := by
  intro kinds
  induction kinds with
  | nil => intro before _ kind hm; cases hm
  | cons first kinds ih =>
    intro before h kind hm
    rcases List.mem_cons.1 hm with rfl | hm
    · exact isStatement_of_fits hp h.1
    · exact ih h.2 kind hm

/-- What fits into a program is its sections, each once at most. -/
theorem sections_of_fitting : ∀ {kinds before : List NodeKind}, Fitting .program before kinds →
    (∀ kind ∈ kinds, kind.isSection = true ∧ kind ∉ before) ∧ kinds.Nodup := by
  intro kinds
  induction kinds with
  | nil => intro before _; exact ⟨fun kind hm => absurd hm List.not_mem_nil, List.nodup_nil⟩
  | cons first kinds ih =>
    rintro before ⟨hfirst, hrest⟩
    obtain ⟨hall, hnodup⟩ := ih hrest
    have hnew : first.isSection = true ∧ first ∉ before := by
      cases first with
      | constData | outData | main => exact ⟨rfl, by simpa [fits] using hfirst⟩
      | _ => cases hfirst
    refine ⟨?_, List.nodup_cons.2 ⟨fun hm => (hall first hm).2 (by simp), hnodup⟩⟩
    intro kind hm
    rcases List.mem_cons.1 hm with rfl | hm
    · exact hnew
    · exact ⟨(hall kind hm).1, fun hb => (hall kind hm).2 (List.mem_append_left _ hb)⟩

/-- If but one kind ever fits, all that fits is of that kind. -/
theorem kind_of_fitting {parent kind : NodeKind} (h : ∀ before other, fits parent before other = true → other = kind) :
    ∀ {kinds before : List NodeKind}, Fitting parent before kinds → ∀ other ∈ kinds, other = kind := by
  intro kinds
  induction kinds with
  | nil => intro before _ other hm; cases hm
  | cons first kinds ih =>
    intro before hfit other hm
    rcases List.mem_cons.1 hm with rfl | hm
    · exact h before other hfit.1
    · exact ih hfit.2 other hm

/-- Nothing but inputs fits into the section of the inputs. -/
theorem eq_constVar_of_fits (before : List NodeKind) (kind : NodeKind) (h : fits .constData before kind = true) :
    kind = .constVar := by
  cases kind with
  | constVar => rfl
  | _ => cases h

/-- Nothing but outputs fits into the section of the outputs. -/
theorem eq_outVar_of_fits (before : List NodeKind) (kind : NodeKind) (h : fits .outData before kind = true) :
    kind = .outVar := by
  cases kind with
  | outVar => rfl
  | _ => cases h

/-! ## Sections -/

section Sections

variable {Γ : Ledger} {root term : Term}

/-- A block without a header holds items, each where it fits. -/
theorem Item.children_of_plain (h : Item Γ term) (hb : term.kind.isBlock = true) (hn : term.kind.headerLength = 0) :
    (∀ child ∈ term.children, Item Γ child) ∧ Fitting term.kind [] (term.children.map Term.kind) := by
  obtain ⟨head, children⟩ := term
  obtain ⟨header, body, -, hbody, -, hitems, hfit⟩ := Item.of_block h hb
  rw [show head.kind.headerLength = 0 from hn, List.drop_zero] at hbody
  subst hbody
  exact ⟨hitems, hfit⟩

/-- Only sections stand under a program, and none twice. -/
theorem Item.sections (h : Item Γ root) (hk : root.kind = .program) :
    (∀ child ∈ root.children, Item Γ child ∧ child.kind.isSection = true) ∧ (root.children.map Term.kind).Nodup := by
  obtain ⟨hitems, hfit⟩ := h.children_of_plain (by rw [hk]; rfl) (by rw [hk]; rfl)
  rw [hk] at hfit
  obtain ⟨hall, hnodup⟩ := sections_of_fitting hfit
  exact ⟨fun child hm => ⟨hitems child hm, (hall child.kind (List.mem_map_of_mem hm)).1⟩, hnodup⟩

/-- A declaration of an input. -/
def IsInput (Γ : Ledger) (term : Term) : Prop :=
  ∃ symbol type name, term = .node ((Head.ofSymbol .constVar type symbol).named name) [] ∧ Gives Γ symbol type true

/-- A declaration of an output. -/
def IsOutput (Γ : Ledger) (term : Term) : Prop :=
  ∃ symbol type name, term = .node ((Head.ofSymbol .outVar type symbol).named name) [] ∧ Gives Γ symbol type false ∧
    type.isNumeric = true

/-- An item of the kind of the inputs is an input. -/
theorem Item.isInput (h : Item Γ term) (hk : term.kind = .constVar) : IsInput Γ term := by
  cases h with
  | input hg => exact ⟨_, _, _, rfl, hg⟩
  | output => cases hk
  | assign => cases hk
  | @block head header body hh =>
    have hb := hh.shape.2
    rw [show head.kind = .constVar from hk] at hb
    cases hb

/-- An item of the kind of the outputs is an output. -/
theorem Item.isOutput (h : Item Γ term) (hk : term.kind = .outVar) : IsOutput Γ term := by
  cases h with
  | output hg ht => exact ⟨_, _, _, rfl, hg, ht⟩
  | input => cases hk
  | assign => cases hk
  | @block head header body hh =>
    have hb := hh.shape.2
    rw [show head.kind = .outVar from hk] at hb
    cases hb

/-- The section of the inputs holds inputs. -/
theorem Item.inputs (h : Item Γ term) (hk : term.kind = .constData) : ∀ child ∈ term.children, IsInput Γ child := by
  obtain ⟨hitems, hfit⟩ := h.children_of_plain (by rw [hk]; rfl) (by rw [hk]; rfl)
  rw [hk] at hfit
  exact fun child hm => (hitems child hm).isInput
    (kind_of_fitting eq_constVar_of_fits hfit child.kind (List.mem_map_of_mem hm))

/-- The section of the outputs holds outputs. -/
theorem Item.outputs (h : Item Γ term) (hk : term.kind = .outData) : ∀ child ∈ term.children, IsOutput Γ child := by
  obtain ⟨hitems, hfit⟩ := h.children_of_plain (by rw [hk]; rfl) (by rw [hk]; rfl)
  rw [hk] at hfit
  exact fun child hm => (hitems child hm).isOutput
    (kind_of_fitting eq_outVar_of_fits hfit child.kind (List.mem_map_of_mem hm))

/-- The statements of main. -/
theorem Item.statements (h : Item Γ term) (hk : term.kind = .main) :
    (∀ child ∈ term.children, Item Γ child) ∧ Fitting .main [] (term.children.map Term.kind) := by
  obtain ⟨hitems, hfit⟩ := h.children_of_plain (by rw [hk]; rfl) (by rw [hk]; rfl)
  rw [hk] at hfit
  exact ⟨hitems, hfit⟩

/-- The body of a statement that is a block holds statements. -/
theorem acceptsStatements_of_isStatement {kind : NodeKind} (h : isStatement kind = true) (hb : kind.isBlock = true) :
    kind.acceptsStatements = true := by
  cases kind with
  | block | ifBranch | elseIfBranch | elseBranch | whileLoop | forRange => rfl
  | assignment => cases hb
  | _ => cases h

/-- Nothing below a statement declares anything. -/
theorem Item.quiet (h : Item Γ term) (hk : isStatement term.kind = true) : ∀ head ∈ term.heads, head.declared? = none := by
  induction h with
  | input => cases hk
  | output => cases hk
  | assign ht hv hty =>
    intro head hm
    rw [Term.heads, List.mem_cons] at hm
    rcases hm with rfl | hm
    · rfl
    · obtain ⟨child, hchild, hhead⟩ := Term.mem_headsAll.1 hm
      rcases List.mem_pair.1 hchild with rfl | rfl
      · exact (ht.expression.heads head hhead).2.1
      · exact (hv.heads head hhead).2.1
  | @block blockHead header body hh _ hf ih =>
    have haccepts : blockHead.kind.acceptsStatements = true := acceptsStatements_of_isStatement hk hh.shape.2
    intro head hm
    rw [Term.heads, List.mem_cons, Term.headsAll_append, List.mem_append] at hm
    rcases hm with rfl | hm | hm
    · have hkind : isStatement head.kind = true := hk
      unfold Head.declared?
      split <;> simp_all [isStatement]
    · obtain ⟨child, hchild, hhead⟩ := Term.mem_headsAll.1 hm
      exact ((hh.expression child hchild).heads head hhead).2.1
    · obtain ⟨child, hchild, hhead⟩ := Term.mem_headsAll.1 hm
      exact ih child hchild (isStatement_of_fitting haccepts hf child.kind (List.mem_map_of_mem hchild)) head hhead

/-- Nothing in main declares anything. -/
theorem Item.quiet_of_main (h : Item Γ term) (hk : term.kind = .main) : ∀ head ∈ term.heads, head.declared? = none := by
  obtain ⟨hitems, hfit⟩ := h.statements hk
  obtain ⟨blockHead, children⟩ := term
  intro head hm
  rw [Term.heads, List.mem_cons] at hm
  rcases hm with rfl | hm
  · rw [Head.declared?, show head.kind = .main from hk]
  · obtain ⟨child, hchild, hhead⟩ := Term.mem_headsAll.1 hm
    exact (hitems child hchild).quiet (isStatement_of_fitting rfl hfit child.kind (List.mem_map_of_mem hchild)) head hhead

end Sections

/-! ## Declarations -/

/-- The declarations of a program, in the order in which they stand. -/
def declarationsOf (root : Term) : List Term :=
  (root.children.filter fun child => child.kind == .constData || child.kind == .outData).flatMap Term.children

section Declarations

variable {Γ : Ledger} {root term : Term}

/-- A declaration is a node without children that introduces its symbol and declares its name. -/
structure IsDeclaration (term : Term) : Prop where
  heads_eq : term.heads = [term.head]
  introduces_eq : term.head.introduces = true
  declared_eq : term.head.declared? = term.head.name
  mentions_eq : term.head.mentions? = term.head.symbol?

/-- An input is a declaration. -/
theorem IsInput.isDeclaration (h : IsInput Γ term) : IsDeclaration term := by
  obtain ⟨symbol, type, name, rfl, -⟩ := h
  exact ⟨rfl, rfl, rfl, rfl⟩

/-- An output is a declaration. -/
theorem IsOutput.isDeclaration (h : IsOutput Γ term) : IsDeclaration term := by
  obtain ⟨symbol, type, name, rfl, -⟩ := h
  exact ⟨rfl, rfl, rfl, rfl⟩

/-- Declarations have no children, and so their heads are all there is. -/
theorem headsAll_of_declarations {terms : List Term} (h : ∀ term ∈ terms, IsDeclaration term) :
    Term.headsAll terms = terms.map Term.head := by
  induction terms with
  | nil => rfl
  | cons term terms ih =>
    rw [Term.headsAll, (h term List.mem_cons_self).heads_eq, ih fun other hm => h other (List.mem_cons_of_mem _ hm)]
    rfl

/-- Both sections of declarations hold declarations. -/
theorem Item.isDeclaration (h : Item Γ term) (hk : term.kind = .constData ∨ term.kind = .outData) :
    ∀ child ∈ term.children, IsDeclaration child := by
  rcases hk with hk | hk
  · exact fun child hm => (h.inputs hk child hm).isDeclaration
  · exact fun child hm => (h.outputs hk child hm).isDeclaration

/-- The declarations of a program are declarations. -/
theorem isDeclaration_of_mem (h : Item Γ root) (hk : root.kind = .program) :
    ∀ term ∈ declarationsOf root, IsDeclaration term := by
  intro term hm
  obtain ⟨child, hchild, hterm⟩ := List.mem_flatMap.1 hm
  obtain ⟨hchild, hkind⟩ := List.mem_filter.1 hchild
  exact ((h.sections hk).1 child hchild).1.isDeclaration (by simpa using hkind) term hterm

/-- The section that holds no declarations is `main`. -/
theorem eq_main_of_isSection {kind : NodeKind} (hs : kind.isSection = true)
    (hd : ¬(kind == .constData || kind == .outData) = true) : kind = .main := by
  cases kind with
  | main => rfl
  | constData | outData => exact absurd rfl hd
  | _ => cases hs

/-- What a section declares: the names of its children if it is one of declarations, and nothing if it is main. -/
theorem filterMap_declared_of_section (h : Item Γ term) (hs : term.kind.isSection = true) :
    term.heads.filterMap Head.declared? =
      if term.kind == .constData || term.kind == .outData then term.children.filterMap (·.head.name) else [] := by
  by_cases hd : (term.kind == .constData || term.kind == .outData) = true
  · have hkind : term.kind = .constData ∨ term.kind = .outData := by simpa using hd
    have hall := h.isDeclaration hkind
    rw [if_pos hd]
    obtain ⟨head, children⟩ := term
    have hnone : head.declared? = none := by
      unfold Head.declared?
      rcases hkind with hk | hk <;> rw [show head.kind = _ from hk]
    rw [Term.children] at hall ⊢
    rw [Term.heads, List.filterMap_cons_none hnone, headsAll_of_declarations hall, List.filterMap_map]
    exact List.filterMap_congr fun child hm => (hall child hm).declared_eq
  · rw [if_neg hd, List.filterMap_eq_nil_iff]
    exact h.quiet_of_main (eq_main_of_isSection hs hd)

/-- The names that a program declares. -/
theorem filterMap_declared (h : Item Γ root) (hk : root.kind = .program) :
    root.heads.filterMap Head.declared? = (declarationsOf root).filterMap (·.head.name) := by
  have hsections := (h.sections hk).1
  obtain ⟨head, children⟩ := root
  have hnone : head.declared? = none := by rw [Head.declared?, show head.kind = .program from hk]
  rw [Term.heads, List.filterMap_cons_none hnone, declarationsOf]
  rw [Term.children] at hsections ⊢
  clear h hk hnone
  induction children with
  | nil => rfl
  | cons child children ih =>
    obtain ⟨hitem, hsection⟩ := hsections child List.mem_cons_self
    rw [Term.headsAll, List.filterMap_append, ih fun other hm => hsections other (List.mem_cons_of_mem _ hm),
      filterMap_declared_of_section hitem hsection, List.filter_cons]
    split
    · rw [List.flatMap_cons, List.filterMap_append]
    · rfl

/-- A node comes before those below it. -/
theorem map_head_sublist (terms : List Term) : (terms.map Term.head).Sublist (Term.headsAll terms) := by
  induction terms with
  | nil => exact List.Sublist.refl _
  | cons term terms ih =>
    obtain ⟨head, children⟩ := term
    rw [List.map_cons, Term.headsAll, Term.heads, List.cons_append]
    exact (ih.trans (List.sublist_append_right _ _)).cons_cons head

/-- The heads of the declarations are among those of the program, in that order. -/
theorem heads_declarationsOf_sublist (root : Term) : ((declarationsOf root).map Term.head).Sublist root.heads := by
  obtain ⟨head, children⟩ := root
  rw [declarationsOf, Term.heads, Term.children]
  refine List.Sublist.cons head ?_
  induction children with
  | nil => exact List.Sublist.refl _
  | cons child children ih =>
    rw [List.filter_cons, Term.headsAll]
    split
    · rw [List.flatMap_cons, List.map_append]
      refine List.Sublist.append ?_ ih
      obtain ⟨childHead, grandchildren⟩ := child
      exact (map_head_sublist grandchildren).cons childHead
    · exact ih.trans (List.sublist_append_right _ _)

/-- Symbols that are new where they are introduced are introduced once. -/
theorem Fresh.nodup : ∀ {heads before : List Head}, Fresh before heads →
    ((heads.filter Head.introduces).filterMap Head.mentions?).Nodup ∧
      ∀ symbol ∈ (heads.filter Head.introduces).filterMap Head.mentions?, ∀ head ∈ before, symbol ∉ head.mentions? := by
  intro heads
  induction heads with
  | nil => intro before _; simp
  | cons head heads ih =>
    rintro before ⟨hhead, hrest⟩
    obtain ⟨hnodup, hnew⟩ := ih hrest
    have hbefore : ∀ symbol ∈ (heads.filter Head.introduces).filterMap Head.mentions?, ∀ other ∈ before,
        symbol ∉ other.mentions? :=
      fun symbol hm other ho => hnew symbol hm other (List.mem_append_left _ ho)
    cases hi : head.introduces with
    | false =>
      rw [List.filter_cons_of_neg (by rw [hi]; exact Bool.false_ne_true)]
      exact ⟨hnodup, hbefore⟩
    | true =>
      rw [List.filter_cons_of_pos hi]
      cases hs : head.mentions? with
      | none =>
        rw [List.filterMap_cons_none hs]
        exact ⟨hnodup, hbefore⟩
      | some symbol =>
        rw [List.filterMap_cons_some hs]
        refine ⟨List.nodup_cons.2 ⟨fun hm => ?_, hnodup⟩, ?_⟩
        · exact hnew symbol hm head (by simp) hs
        · intro other hm
          rcases List.mem_cons.1 hm with rfl | hm
          · exact hhead hi other hs
          · exact hbefore other hm

/-- No two declarations of a program have the same symbol. -/
theorem nodup_symbols (h : Item Γ root) (hk : root.kind = .program) (hf : Fresh [] root.heads) :
    ((declarationsOf root).filterMap (·.head.symbol?)).Nodup := by
  have hall := isDeclaration_of_mem h hk
  have heq : (declarationsOf root).filterMap (·.head.symbol?) =
      (((declarationsOf root).map Term.head).filter Head.introduces).filterMap Head.mentions? := by
    rw [List.filter_eq_self.2, List.filterMap_map]
    · exact List.filterMap_congr fun term hm => (hall term hm).mentions_eq.symm
    · intro head hm
      obtain ⟨term, hterm, rfl⟩ := List.mem_map.1 hm
      exact (hall term hterm).introduces_eq
  rw [heq]
  exact (((heads_declarationsOf_sublist root).filter _).filterMap _).nodup hf.nodup.1

end Declarations

end ShaderTrace.Recording
