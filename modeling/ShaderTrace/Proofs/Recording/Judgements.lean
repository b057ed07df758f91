import ShaderTrace.Proofs.Reference.Recorder
import ShaderTrace.Proofs.Signatures

/-!
# What a recording is made of

The judgements that every recording satisfies. A ledger says what each symbol was given out for; `Expression` are the terms of
operations with operands of the right types; `Item` are declarations, assignments and blocks, each where it `fits`. The open
blocks of a recording form a `Spine`: each is an item as it stands, so the whole is one too (`Spine.plug`).
-/

namespace ShaderTrace

/-- What can be declared is an identifier. -/
theorem Identifier.isIdentifier_of_isDeclarable {name : String} (h : isDeclarable name = true) : isIdentifier name = true := by
  rw [isDeclarable, isDeclarableChars, Bool.and_eq_true, Bool.and_eq_true] at h
  exact h.1.1

namespace Term

mutual

/-- What the nodes of a term say, each before those below it. -/
def heads : Term → List Head
  | node head children => head :: headsAll children

def headsAll : List Term → List Head
  | [] => []
  | term :: terms => term.heads ++ headsAll terms

end

/-- The heads of terms in a row are those of its parts. -/
theorem headsAll_append (terms terms' : List Term) : headsAll (terms ++ terms') = headsAll terms ++ headsAll terms' := by
  induction terms with
  | nil => rfl
  | cons term terms ih => simp [headsAll, ih]

/-- A head of terms in a row is a head of one of them. -/
theorem mem_headsAll {terms : List Term} {head : Head} : head ∈ headsAll terms ↔ ∃ term ∈ terms, head ∈ term.heads := by
  induction terms with
  | nil => simp [headsAll]
  | cons term terms ih => simp [headsAll, ih]

end Term

namespace Head

/-- The symbol that a node mentions. -/
def mentions? (head : Head) : Option SymbolId :=
  match head.payload with
  | .symbol symbol => some symbol
  | .member owner _ _ => some owner
  | _ => none

/-- The node gives a symbol out: it declares an input or an output, or it counts with the symbol. -/
def introduces (head : Head) : Bool :=
  match head.kind with
  | .constVar | .outVar | .forRange => true
  | _ => false

/-- The name that a node declares. -/
def declared? (head : Head) : Option String :=
  match head.kind with
  | .constVar | .outVar => head.name
  | _ => none

end Head

namespace Recording

open Reference (Block)

/-! ## Symbols -/

/-- What a symbol was given out for. Inputs are never written. -/
structure Binding where
  type : ValueType
  readOnly : Bool
  nameable : type.isNameable = true

/-- The symbols that have been given out, in order. -/
abbrev Ledger := List Binding

/-- The symbol was given out for a variable of this type. -/
def Gives (Γ : Ledger) (symbol : SymbolId) (type : ValueType) (readOnly : Bool) : Prop :=
  ∃ binding : Binding, Γ[symbol.index]? = some binding ∧ binding.type = type ∧ binding.readOnly = readOnly

section Symbols

variable {Γ Γ' : Ledger} {symbol : SymbolId} {type type' : ValueType} {readOnly readOnly' : Bool}

/-- A symbol with an entry in the ledger is one of its symbols. -/
theorem Gives.lt_length (h : Gives Γ symbol type readOnly) : symbol.index < Γ.length := by
  obtain ⟨binding, hb, -⟩ := h
  exact (List.getElem?_eq_some_iff.1 hb).1

/-- The type of a symbol has a name. -/
theorem Gives.isNameable (h : Gives Γ symbol type readOnly) : type.isNameable = true := by
  obtain ⟨binding, -, rfl, -⟩ := h
  exact binding.nameable

/-- A symbol has one type, and is an input or not. -/
theorem Gives.unique (h : Gives Γ symbol type readOnly) (h' : Gives Γ symbol type' readOnly') :
    type = type' ∧ readOnly = readOnly' := by
  obtain ⟨binding, hb, rfl, rfl⟩ := h
  obtain ⟨binding', hb', rfl, rfl⟩ := h'
  rw [hb] at hb'
  cases hb'
  exact ⟨rfl, rfl⟩

/-- An entry of the ledger stays as the ledger grows. -/
theorem Gives.extend (hp : Γ <+: Γ') (h : Gives Γ symbol type readOnly) : Gives Γ' symbol type readOnly := by
  obtain ⟨binding, hb, ht, hr⟩ := h
  obtain ⟨rest, rfl⟩ := hp
  refine ⟨binding, ?_, ht, hr⟩
  rw [List.getElem?_append_left (List.getElem?_eq_some_iff.1 hb).1, hb]

/-- A new symbol has the entry that was added for it. -/
theorem gives_new (Γ : Ledger) (binding : Binding) :
    Gives (Γ ++ [binding]) ⟨Γ.length⟩ binding.type binding.readOnly :=
  ⟨binding, by simp, rfl, rfl⟩

end Symbols

/-! ## Expressions -/

/-- A lane of a vector type, and the type of the lane. -/
structure LaneOf (vector : ValueType) (lane : Lane) (type : ValueType) : Prop where
  isVector : vector.isVector = true
  index_lt : lane.index < vector.lanes
  type_eq : vector.lane? = some type

/-- A reference to a variable. -/
def reference (type : ValueType) (symbol : SymbolId) : Term := .node (.ofSymbol .var type symbol) []

/-- A constant. -/
def constant (value : Literal) : Term := .node (.ofLiteral value) []

/-- A lane of a variable. -/
def laneOf (type : ValueType) (owner : SymbolId) (ownerType : ValueType) (lane : Lane) : Term :=
  .node (.ofMember type owner ownerType lane) []

/-- The children of an operation: its operands, and before them the number of a called function. -/
def applied (operator : Operator) (operands : List Term) : List Term :=
  match operator with
  | .call builtin => constant (.int builtin.id) :: operands
  | _ => operands

/-- What is sampled is an input, and no index is a negative constant. -/
def Sampled (Γ : Ledger) (operator : Operator) (operands : List Term) : Prop :=
  match operator with
  | .sample1d | .sample2d => ∃ symbol type indices, operands = reference type symbol :: indices ∧
      Gives Γ symbol type true ∧ ∀ index, constant (.int index) ∈ indices → ¬index < 0
  | _ => True

/-- The terms of operations, with operands of the types that the operators take. -/
inductive Expression (Γ : Ledger) : Term → Prop
  | reference {symbol : SymbolId} {type : ValueType} {readOnly : Bool} (h : Gives Γ symbol type readOnly) :
    Expression Γ (reference type symbol)
  | constant (value : Literal) : Expression Γ (constant value)
  | laneOf {owner : SymbolId} {ownerType type : ValueType} {lane : Lane} {readOnly : Bool}
    (h : Gives Γ owner ownerType readOnly) (hl : LaneOf ownerType lane type) :
    Expression Γ (laneOf type owner ownerType lane)
  | apply (operator : Operator) (operands : List Term) {type : ValueType} (ho : ∀ term ∈ operands, Expression Γ term)
    (ht : operator.result? (operands.map Term.type) = some type) (hs : Sampled Γ operator operands) :
    Expression Γ (.node { kind := operator.kind, type } (applied operator operands))

/-- What is sampled stays so as the ledger grows. -/
theorem Sampled.extend {Γ Γ' : Ledger} (hp : Γ <+: Γ') {operator : Operator} {operands : List Term}
    (h : Sampled Γ operator operands) : Sampled Γ' operator operands := by
  cases operator with
  | sample1d | sample2d =>
    obtain ⟨symbol, type, indices, hops, hg, hi⟩ := h
    exact ⟨symbol, type, indices, hops, hg.extend hp, hi⟩
  | _ => trivial

/-- An expression stays one as the ledger grows. -/
theorem Expression.extend {Γ Γ' : Ledger} (hp : Γ <+: Γ') {term : Term} (h : Expression Γ term) : Expression Γ' term := by
  induction h with
  | reference h => exact .reference (h.extend hp)
  | constant value => exact .constant value
  | laneOf h hl => exact .laneOf (h.extend hp) hl
  | apply operator operands _ ht hs ih => exact .apply operator operands ih ht (hs.extend hp)

/-- The type of an expression can be named. -/
theorem Expression.isNameable {Γ : Ledger} {term : Term} (h : Expression Γ term) : term.type.isNameable = true := by
  induction h with
  | reference h => exact h.isNameable
  | constant value => exact ValueType.isNameable_literal value
  | laneOf _ hl => exact ValueType.isNameable_of_lane? hl.type_eq
  | apply operator operands _ ht _ ih =>
    refine Operator.isNameable_of_result? ht ?_
    intro type hm
    obtain ⟨term, hterm, rfl⟩ := List.mem_map.1 hm
    exact ih term hterm

/-- The operands of an expression are expressions. -/
theorem Expression.children {Γ : Ledger} {term : Term} (h : Expression Γ term) :
    ∀ child ∈ term.children, Expression Γ child := by
  cases h with
  | reference | constant | laneOf => intro child hm; cases hm
  | apply operator operands ho =>
    cases operator with
    | call builtin =>
      intro child hm
      rcases List.mem_cons.1 hm with rfl | hm
      · exact .constant _
      · exact ho child hm
    | _ => exact ho

/-- The kind of an expression is none of a declaration, a statement or a block. -/
theorem Expression.kind {Γ : Ledger} {term : Term} (h : Expression Γ term) :
    term.head.introduces = false ∧ term.head.declared? = none ∧ term.kind.isConditional = false := by
  cases h with
  | reference => exact ⟨rfl, rfl, rfl⟩
  | constant => exact ⟨rfl, rfl, rfl⟩
  | laneOf => exact ⟨rfl, rfl, rfl⟩
  | apply operator =>
    cases operator with
    | unary op => cases op <;> exact ⟨rfl, rfl, rfl⟩
    | binary op => cases op <;> exact ⟨rfl, rfl, rfl⟩
    | _ => exact ⟨rfl, rfl, rfl⟩

/-- No node of an expression introduces or declares anything, and the symbols it mentions have been given out. -/
theorem Expression.heads {Γ : Ledger} {term : Term} (h : Expression Γ term) : ∀ head ∈ term.heads,
    head.introduces = false ∧ head.declared? = none ∧ ∀ symbol ∈ head.mentions?, symbol.index < Γ.length := by
  have leaf : ∀ {head' : Head}, head'.introduces = false → head'.declared? = none →
      (∀ symbol ∈ head'.mentions?, symbol.index < Γ.length) → ∀ head ∈ (Term.node head' []).heads,
      head.introduces = false ∧ head.declared? = none ∧ ∀ symbol ∈ head.mentions?, symbol.index < Γ.length := by
    intro head' hi hd hm head hh
    rw [Term.heads, Term.headsAll, List.mem_singleton] at hh
    subst hh
    exact ⟨hi, hd, hm⟩
  induction h with
  | reference h => exact leaf rfl rfl (by rintro symbol ⟨⟩; exact h.lt_length)
  | constant value => exact leaf rfl rfl (by rintro symbol ⟨⟩)
  | laneOf h _ => exact leaf rfl rfl (by rintro symbol ⟨⟩; exact h.lt_length)
  | apply operator operands ho ht hs ih =>
    have hk := (Expression.apply operator operands ho ht hs).kind
    intro head hm
    rw [Term.heads, List.mem_cons] at hm
    rcases hm with rfl | hm
    · exact ⟨hk.1, hk.2.1, by rintro symbol ⟨⟩⟩
    · obtain ⟨term, hterm, hhead⟩ := Term.mem_headsAll.1 hm
      cases operator with
      | call builtin =>
        rcases List.mem_cons.1 hterm with rfl | hterm
        · exact leaf rfl rfl (by rintro symbol ⟨⟩) head hhead
        · exact ih term hterm head hhead
      | _ => exact ih term hterm head hhead

/-! ## Items -/

/-- What stands in front of the body of a block: a condition, the two bounds of a count, or nothing. -/
inductive Header (Γ : Ledger) : Head → List Term → Prop
  | plain {kind : NodeKind} (h : kind ∈ [.program, .constData, .outData, .main, .block, .elseBranch]) :
    Header Γ { kind, type := .void } []
  | condition {kind : NodeKind} {condition : Term} (h : kind ∈ [.ifBranch, .elseIfBranch, .whileLoop])
    (hc : Expression Γ condition) (ht : condition.type = .bool) : Header Γ { kind, type := .void } [condition]
  | count {symbol : SymbolId} {name : String} {start stop : Term} (h : Gives Γ symbol .int false)
    (hs : Expression Γ start) (ht : start.type = .int) (hs' : Expression Γ stop) (ht' : stop.type = .int)
    (hn : Identifier.isIdentifier name = true) :
    Header Γ ((Head.ofSymbol .forRange .void symbol).named name) [start, stop]

/-- What may come next in a block of the given kind, after children of the kinds `before`. -/
def fits (parent : NodeKind) (before : List NodeKind) (kind : NodeKind) : Bool :=
  match kind with
  | .constData | .outData | .main => parent == .program && !before.contains kind
  | .constVar => parent == .constData
  | .outVar => parent == .outData
  | .assignment | .block | .ifBranch | .whileLoop | .forRange => parent.acceptsStatements
  | .elseIfBranch | .elseBranch => parent.acceptsStatements && before.getLast?.any (·.isConditional)
  | _ => false

/-- Each of the kinds fits after those before it. -/
def Fitting (parent : NodeKind) : (before kinds : List NodeKind) → Prop
  | _, [] => True
  | before, kind :: kinds => fits parent before kind = true ∧ Fitting parent (before ++ [kind]) kinds

/-- What an assignment may write: a variable that is no input, or a lane of one. -/
inductive Target (Γ : Ledger) : Term → Prop
  | reference {symbol : SymbolId} {type : ValueType} (h : Gives Γ symbol type false) : Target Γ (reference type symbol)
  | laneOf {owner : SymbolId} {ownerType type : ValueType} {lane : Lane} (h : Gives Γ owner ownerType false)
    (hl : LaneOf ownerType lane type) : Target Γ (laneOf type owner ownerType lane)

/-- What stands in a block. -/
inductive Item (Γ : Ledger) : Term → Prop
  | input {symbol : SymbolId} {type : ValueType} {name : String} (h : Gives Γ symbol type true)
    (hn : Identifier.isIdentifier name = true) : Item Γ (.node ((Head.ofSymbol .constVar type symbol).named name) [])
  | output {symbol : SymbolId} {type : ValueType} {name : String} (h : Gives Γ symbol type false)
    (ht : type.isNumeric = true) (hn : Identifier.isIdentifier name = true) :
    Item Γ (.node ((Head.ofSymbol .outVar type symbol).named name) [])
  | assign {target value : Term} (ht : Target Γ target) (hv : Expression Γ value) (hty : value.type = target.type) :
    Item Γ (.node { kind := .assignment, type := target.type } [target, value])
  | block {head : Head} (header body : List Term) (hh : Header Γ head header) (hb : ∀ term ∈ body, Item Γ term)
    (hf : Fitting head.kind [] (body.map Term.kind)) : Item Γ (.node head (header ++ body))

section Items

variable {Γ Γ' : Ledger} {head : Head} {header : List Term} {term : Term}

/-- The header of a block stays one as the ledger grows. -/
theorem Header.extend (hp : Γ <+: Γ') (h : Header Γ head header) : Header Γ' head header := by
  cases h with
  | plain h => exact .plain h
  | condition h hc ht => exact .condition h (hc.extend hp) ht
  | count h hs ht hs' ht' hn => exact .count (h.extend hp) (hs.extend hp) ht (hs'.extend hp) ht' hn

/-- What can be assigned to stays so as the ledger grows. -/
theorem Target.extend (hp : Γ <+: Γ') (h : Target Γ term) : Target Γ' term := by
  cases h with
  | reference h => exact .reference (h.extend hp)
  | laneOf h hl => exact .laneOf (h.extend hp) hl

/-- An item of a block stays one as the ledger grows. -/
theorem Item.extend (hp : Γ <+: Γ') (h : Item Γ term) : Item Γ' term := by
  induction h with
  | input h hn => exact .input (h.extend hp) hn
  | output h ht hn => exact .output (h.extend hp) ht hn
  | assign ht hv hty => exact .assign (ht.extend hp) (hv.extend hp) hty
  | block header body hh _ hf ih => exact .block header body (hh.extend hp) ih hf

/-- The terms of a header are expressions. -/
theorem Header.expression (h : Header Γ head header) : ∀ term ∈ header, Expression Γ term := by
  cases h with
  | plain h => simp
  | condition h hc ht => simpa using hc
  | count h hs ht hs' ht' => simpa using ⟨hs, hs'⟩

/-- A header has as many terms as the kind of its block says, and the block is one. -/
theorem Header.shape (h : Header Γ head header) : header.length = head.kind.headerLength ∧ head.kind.isBlock = true := by
  cases h with
  | @plain kind h => cases kind <;> simp at h <;> exact ⟨rfl, rfl⟩
  | @condition kind _ h => cases kind <;> simp at h <;> exact ⟨rfl, rfl⟩
  | count => exact ⟨rfl, rfl⟩

/-- What may be written may be read. -/
theorem Target.expression (h : Target Γ term) : Expression Γ term := by
  cases h with
  | reference h => exact .reference h
  | laneOf h hl => exact .laneOf h hl

/-- A row of kinds fits exactly if its first part fits, and the second one after that. -/
theorem fitting_append {parent : NodeKind} {before kinds kinds' : List NodeKind} :
    Fitting parent before (kinds ++ kinds') ↔ Fitting parent before kinds ∧ Fitting parent (before ++ kinds) kinds' := by
  induction kinds generalizing before with
  | nil => simp [Fitting]
  | cons kind kinds ih => simp [Fitting, ih, and_assoc]

/-- A block that is an item has its body after its header. -/
theorem Item.of_block {children : List Term} (h : Item Γ (.node head children)) (hb : head.kind.isBlock = true) :
    ∃ header body, children = header ++ body ∧ body = children.drop head.kind.headerLength ∧ Header Γ head header ∧
      (∀ term ∈ body, Item Γ term) ∧ Fitting head.kind [] (body.map Term.kind) := by
  cases h with
  | input | output | assign => cases hb
  | block header body hh hi hf => exact ⟨header, body, rfl, by rw [← hh.shape.1, List.drop_left], hh, hi, hf⟩

/-- The symbols that the nodes of an item mention have been given out. -/
theorem Item.lt_length (h : Item Γ term) : ∀ head ∈ term.heads, ∀ symbol ∈ head.mentions?, symbol.index < Γ.length := by
  have leaf : ∀ {kind : NodeKind} {type : ValueType} {symbol : SymbolId} {name : String}, symbol.index < Γ.length →
      ∀ head ∈ (Term.node ((Head.ofSymbol kind type symbol).named name) []).heads, ∀ symbol ∈ head.mentions?,
      symbol.index < Γ.length := by
    intro kind type symbol name hlt head hm
    rw [Term.heads, Term.headsAll, List.mem_singleton] at hm
    subst hm
    rintro _ ⟨⟩
    exact hlt
  induction h with
  | input h => exact leaf h.lt_length
  | output h ht => exact leaf h.lt_length
  | assign ht hv hty =>
    intro head hm
    rw [Term.heads, List.mem_cons] at hm
    rcases hm with rfl | hm
    · rintro _ ⟨⟩
    · obtain ⟨term, hterm, hhead⟩ := Term.mem_headsAll.1 hm
      rcases List.mem_pair.1 hterm with rfl | rfl
      · exact (ht.expression.heads head hhead).2.2
      · exact (hv.heads head hhead).2.2
  | block header body hh hb hf ih =>
    intro head hm
    rw [Term.heads, List.mem_cons, Term.headsAll_append, List.mem_append] at hm
    rcases hm with rfl | hm | hm
    · cases hh with
      | plain | condition => rintro _ ⟨⟩
      | count h => rintro _ ⟨⟩; exact h.lt_length
    · obtain ⟨term, hterm, hhead⟩ := Term.mem_headsAll.1 hm
      exact ((hh.expression term hterm).heads head hhead).2.2
    · obtain ⟨term, hterm, hhead⟩ := Term.mem_headsAll.1 hm
      exact ih term hterm head hhead

end Items

/-! ## Open blocks -/

/-- The children of an open block that are not in its header. -/
def bodyOf (block : Block) : List Term := block.children.drop block.kind.headerLength

/-- Every open block is an item as it stands, and fits where it will be closed; the outermost one is the program. -/
def Spine (Γ : Ledger) : Block → List Block → Prop
  | block, [] => block.kind = .program ∧ Item Γ block.term
  | block, parent :: outer => block.kind.isBlock = true ∧ Item Γ block.term ∧
      fits parent.kind ((bodyOf parent).map Term.kind) block.kind = true ∧ Spine Γ parent outer

section Spines

variable {Γ Γ' : Ledger} {block parent : Block} {outer : List Block}

/-- The innermost open block is an item as it stands. -/
theorem Spine.item (h : Spine Γ block outer) : Item Γ block.term := by
  cases outer with
  | nil => exact h.2
  | cons => exact h.2.1

/-- The innermost open block is a block. -/
theorem Spine.isBlock (h : Spine Γ block outer) : block.kind.isBlock = true := by
  cases outer with
  | nil => rw [h.1]; rfl
  | cons => exact h.1

/-- The open blocks stay in order as the ledger grows. -/
theorem Spine.extend (hp : Γ <+: Γ') (h : Spine Γ block outer) : Spine Γ' block outer := by
  induction outer generalizing block with
  | nil => exact ⟨h.1, h.2.extend hp⟩
  | cons parent outer ih => exact ⟨h.1, h.2.1.extend hp, h.2.2.1, ih h.2.2.2⟩

/-- The program is the only block of its kind. -/
theorem Spine.outer_eq_nil (h : Spine Γ block outer) (hk : block.kind = .program) : outer = [] := by
  cases outer with
  | nil => rfl
  | cons parent outer =>
    obtain ⟨-, -, hf, -⟩ := h
    rw [hk] at hf
    exact absurd hf (by simp [fits])

/-- A child that fits makes an open block an open block again. -/
theorem Spine.add (h : Spine Γ block outer) {child : Term} (hc : Item Γ child)
    (hf : fits block.kind ((bodyOf block).map Term.kind) child.kind = true) : Spine Γ (block.add child) outer := by
  have item : Item Γ (block.add child).term := by
    obtain ⟨header, body, hch, hbody, hh, hi, hfit⟩ := Item.of_block h.item h.isBlock
    have hterm : (block.add child).term = .node block.head (header ++ (body ++ [child])) := by
      rw [← List.append_assoc, ← hch]; rfl
    have hrow : Fitting block.head.kind [] ((body ++ [child]).map Term.kind) := by
      rw [List.map_append, fitting_append]
      rw [bodyOf, show block.kind = block.head.kind from rfl, ← hbody] at hf
      exact ⟨hfit, hf, trivial⟩
    rw [hterm]
    refine .block header (body ++ [child]) hh ?_ hrow
    intro term hm
    rcases List.mem_append.1 hm with hm | hm
    · exact hi term hm
    · rw [List.mem_singleton.1 hm]; exact hc
  cases outer with
  | nil => exact ⟨h.1, item⟩
  | cons => exact ⟨h.1, item, h.2.2.1, h.2.2.2⟩

/-- Closing a block leaves the one around it open. -/
theorem Spine.close (h : Spine Γ block (parent :: outer)) : Spine Γ (parent.add block.term) outer :=
  h.2.2.2.add h.2.1 h.2.2.1

/-- A recording is an item, the program, at every point. -/
theorem Spine.plug (h : Spine Γ block outer) :
    Item Γ (Reference.plug block outer) ∧ (Reference.plug block outer).kind = .program := by
  induction outer generalizing block with
  | nil => exact ⟨h.2, h.1⟩
  | cons parent outer ih => exact ih h.close

/-- Branches stand among statements. -/
theorem acceptsStatements_of_fits {parent kind : NodeKind} {before : List NodeKind} (hk : kind.isConditional = true)
    (h : fits parent before kind = true) : parent.acceptsStatements = true := by
  cases kind with
  | ifBranch => exact h
  | elseIfBranch => exact (Bool.and_eq_true_iff.1 h).1
  | _ => cases hk

/-- After a conditional branch there is a place for an alternative to it. -/
theorem Spine.fits_of_follows (h : Spine Γ block outer) {last : Term} (hl : block.children.getLast? = some last)
    (hk : last.kind.isConditional = true) {next : NodeKind} (hn : next = .elseIfBranch ∨ next = .elseBranch) :
    fits block.kind ((bodyOf block).map Term.kind) next = true := by
  obtain ⟨header, body, hch, hbody, hh, -, hfit⟩ := Item.of_block h.item h.isBlock
  rw [hch] at hl
  have hlast : body.getLast? = some last := by
    -- the header holds expressions only, which are no branches
    cases hb : body.getLast? with
    | some other => rw [List.getLast?_append, hb] at hl; exact hl
    | none =>
      rw [List.getLast?_append, hb] at hl
      have hm := List.mem_of_getLast? (by simpa using hl)
      exact absurd hk (by rw [(hh.expression last hm).kind.2.2]; decide)
  obtain ⟨front, rfl⟩ : ∃ front, body = front ++ [last] := List.getLast?_eq_some_iff.1 hlast
  rw [List.map_append, fitting_append] at hfit
  have haccepts : block.kind.acceptsStatements = true := acceptsStatements_of_fits hk hfit.2.1
  rw [bodyOf, show block.kind = block.head.kind from rfl, ← hbody] at *
  rcases hn with rfl | rfl <;> simp [fits, haccepts, hk]

end Spines

end Recording

end ShaderTrace
