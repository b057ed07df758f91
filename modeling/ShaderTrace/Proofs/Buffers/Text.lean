import ShaderTrace.Proofs.Buffers.Runs
import ShaderTrace.Proofs.Text.Scoping
import ShaderTrace.Proofs.Text.Standing

/-!
# Samplers in the text of a shader

A buffer is spelled as a sampler. Each declaration in a text gives its symbol the type that it was recorded with (`SpelledType`),
so a line of `main` has to do with a sampler exactly if it was written for an assignment of a buffer. The main statement is
`samplers_touched`: the assignments of buffers in a program, and the lines of `main` that declare or assign a sampler, are as many
as the calls that were carried out with a buffer to write. There are none if no such call was carried out, and such calls are not
refused (`sampler_in_main`).
-/

namespace ShaderTrace

namespace Glsl

/-- The types of the target language that stand for buffers. -/
def samplerTypes : List String :=
  ["samplerBuffer", "isamplerBuffer", "usamplerBuffer", "sampler2DRect", "isampler2DRect", "usampler2DRect"]

/-- Buffers, and nothing else, are spelled as samplers. -/
theorem contains_samplerTypes {type : ValueType} {name : String} (hn : type.isNameable = true)
    (h : typeName? type = some name) : samplerTypes.contains name = type.isBuffer := by
  have hall : ∀ type ∈ ValueType.nameable, (typeName? type).all (fun name => samplerTypes.contains name == type.isBuffer) = true := by
    decide
  have hname := hall type (ValueType.mem_nameable hn)
  rw [h] at hname
  simpa using hname

namespace Clause

/-- The symbol that a line declares, with the spelling of its type. -/
def typed? : Clause → Option (String × SymbolId)
  | uniform type symbol? _ => symbol?.map fun symbol => (type, symbol)
  | output _ type symbol _ => some (type, symbol)
  | count v _ _ => some ("int", v.symbol)
  | define type v _ | declare type v => some (type, v.symbol)
  | version _ | blank | main | openBrace | closeBrace | guarded _ _ | otherwise | assign _ _ | assignLane _ _ _ => none

/-- The variable that a line of `main` declares, or assigns a value to. -/
def target? : Clause → Option Variable
  | count v _ _ | define _ v _ | declare _ v | assign v _ | assignLane v _ _ => some v
  | version _ | blank | uniform _ _ _ | output _ _ _ _ | main | openBrace | closeBrace | guarded _ _ | otherwise => none

/-- A symbol that is declared has a type. -/
theorem exists_typed? {clause : Clause} {seen : Seen} (h : clause.declared? = some seen) {symbol : SymbolId}
    (hs : seen.symbol? = some symbol) : ∃ type, clause.typed? = some (type, symbol) := by
  cases clause with
  | uniform type symbol? ident =>
    cases h
    exact ⟨type, by rw [typed?, show symbol? = some symbol from hs]; rfl⟩
  | output location type other ident =>
    cases h
    cases hs
    exact ⟨type, rfl⟩
  | count v | define _ v | declare _ v =>
    cases h
    cases hs
    exact ⟨_, rfl⟩
  | main =>
    cases h
    cases hs
  | _ => cases h

end Clause

/-- The symbols that some rows declare as samplers. -/
def samplersOf (rows : List Row) : List SymbolId :=
  rows.filterMap fun row => row.clause.typed?.bind fun typed =>
    if samplerTypes.contains typed.1 then some typed.2 else none

/-- The symbols of the rows that declare something of a sampler type. -/
theorem mem_samplersOf {rows : List Row} {symbol : SymbolId} : symbol ∈ samplersOf rows ↔
    ∃ row ∈ rows, ∃ type, row.clause.typed? = some (type, symbol) ∧ samplerTypes.contains type = true := by
  simp [samplersOf, Option.bind_eq_some_iff]

/-- The row declares or assigns a variable that the text declares as a sampler. -/
def touchesSampler (text : List Row) (row : Row) : Bool :=
  row.clause.target?.any fun v => (samplersOf text).contains v.symbol

end Glsl

namespace Buffers

open Execution (Arranged heads_eq recorded_assignment recorded_parts)
open Glsl (Clause Config Generated Made Reading Row Scope Scoped Shader Standing Stmt typeName?)
open Recording (Expression Gives Item LaneOf Ledger Recorded Target)
open Symbols (Act performAll)

/-! ## Nodes -/

section Nodes

variable {Γ : Ledger} {symbol : SymbolId} {type : ValueType} {readOnly : Bool}

/-- The symbol was given out for a buffer. -/
def standsForBuffer (Γ : Ledger) (symbol : SymbolId) : Bool :=
  Γ[symbol.index]?.any fun binding => binding.type.isBuffer

/-- A symbol stands for a buffer exactly if it was given out for one. -/
theorem standsForBuffer_eq (h : Gives Γ symbol type readOnly) : standsForBuffer Γ symbol = type.isBuffer := by
  obtain ⟨binding, hb, rfl, -⟩ := h
  rw [standsForBuffer, hb]
  rfl

/-- No expression assigns a buffer. -/
theorem copies_of_expression {term : Term} (h : Expression Γ term) : term.copies = 0 := by
  induction h with
  | reference | constant | laneOf => exact Term.copies_leaf (by rintro ⟨⟩)
  | apply operator operands _ _ _ ih =>
    refine Term.copies_of_kind_ne operator.kind_ne_assignment ?_
    cases operator with
    | call builtin => exact List.forall_mem_cons.2 ⟨Term.copies_leaf (by rintro ⟨⟩), ih⟩
    | _ => exact ih

/-- A lane of a vector is no buffer, and neither is the vector. -/
theorem isBuffer_of_laneOf {vector : ValueType} {lane : Lane} (h : LaneOf vector lane type) :
    vector.isBuffer = false ∧ type.isBuffer = false := by
  obtain ⟨kind, -, hv⟩ := Option.bind_eq_some_iff.1 h.type_eq
  refine ⟨?_, ValueType.isBuffer_of_vector? hv⟩
  simpa using (Bool.and_eq_true_iff.1 h.isVector).1

/-- An assignment is one of a buffer if its target is one. -/
theorem copies_of_assignment {tree target source : Tree} (h : Item Γ tree.term) (hk : tree.kind = .assignment)
    (hc : tree.children = [target, source]) : tree.term.copies = target.type.isBuffer.toNat := by
  obtain ⟨hhead, htarget, hsource⟩ := recorded_assignment h hk hc
  obtain ⟨id, head, children⟩ := tree
  rw [Tree.term_node, show children = [target, source] from hc, show head = _ from hhead]
  exact Term.copies_assignment (copies_of_expression htarget.expression) (copies_of_expression hsource) target.type

/-- The variable that is a target was given out for the type of the target, and may be written. -/
theorem gives_of_symbol {target : Tree} (h : Target Γ target.term) (hp : target.head.payload = .symbol symbol) :
    Gives Γ symbol target.type false := by
  generalize hterm : target.term = term at h
  cases h with
  | reference h =>
    obtain ⟨hhead, -⟩ := Glsl.head_and_children_of_term hterm
    rw [Tree.type, hhead]
    rw [hhead] at hp
    cases hp
    exact h
  | laneOf =>
    rw [(Glsl.head_and_children_of_term hterm).1] at hp
    cases hp

/-- The vector whose lane is a target may be written, and the lane has the type of the target. -/
theorem gives_of_member {target : Tree} {owner : SymbolId} {ownerType : ValueType} {lane : Lane} (h : Target Γ target.term)
    (hp : target.head.payload = .member owner ownerType lane) :
    Gives Γ owner ownerType false ∧ LaneOf ownerType lane target.type := by
  generalize hterm : target.term = term at h
  cases h with
  | reference =>
    rw [(Glsl.head_and_children_of_term hterm).1] at hp
    cases hp
  | laneOf h hl =>
    obtain ⟨hhead, -⟩ := Glsl.head_and_children_of_term hterm
    rw [Tree.type, hhead]
    rw [hhead] at hp
    cases hp
    exact ⟨h, hl⟩

/-- A loop counts with an integer. -/
theorem gives_counter {tree : Tree} (h : Item Γ tree.term) (hk : tree.kind = .forRange)
    (hs : tree.head.symbol? = some symbol) : Gives Γ symbol .int false := by
  obtain ⟨id, head, children⟩ := tree
  rw [Tree.term_node] at h
  obtain ⟨header, -, -, -, hh, -⟩ := Item.of_block h (by rw [show head.kind = .forRange from hk]; rfl)
  cases hh with
  | plain | condition => cases hs
  | count hg =>
    cases hs
    exact hg

end Nodes

/-! ## Rows -/

/-- The row declares or assigns a variable that was given out for a buffer. -/
def touchesBuffer (Γ : Ledger) (row : Row) : Bool := row.clause.target?.any fun v => standsForBuffer Γ v.symbol

/-- What a line declares has the type that it was given out for. -/
def SpelledType (Γ : Ledger) (clause : Clause) : Prop :=
  ∀ name symbol, clause.typed? = some (name, symbol) →
    ∃ type readOnly, Gives Γ symbol type readOnly ∧ typeName? type = some name

/-- Rows beside the nodes that they were written for. -/
structure Beside (Γ : Ledger) (heads : List Head) (rows : List Row) : Prop where
  spelled : ∀ row ∈ rows, SpelledType Γ row.clause
  count : rows.countP (touchesBuffer Γ) = heads.countP Head.copiesBuffer

section Rows

variable {Γ : Ledger} {heads heads' : List Head} {rows rows' : List Row}

/-- Rows beside their nodes can be put in a row. -/
theorem Beside.append (h : Beside Γ heads rows) (h' : Beside Γ heads' rows') :
    Beside Γ (heads ++ heads') (rows ++ rows') where
  spelled row hm := by
    rcases List.mem_append.1 hm with hm | hm
    · exact h.spelled row hm
    · exact h'.spelled row hm
  count := by rw [List.countP_append, List.countP_append, h.count, h'.count]

/-- A row that declares and assigns nothing. -/
theorem beside_plain {row : Row} (ht : row.clause.typed? = none) (hv : row.clause.target? = none) : Beside Γ [] [row] where
  spelled other hm name symbol h := by
    rw [List.mem_singleton.1 hm, ht] at h
    cases h
  count := by simp [touchesBuffer, hv]

/-- A row that declares or assigns a variable. If it declares it, then with its type. -/
theorem beside_target {row : Row} {v : Glsl.Variable} {type : ValueType} {readOnly : Bool} (hv : row.clause.target? = some v)
    (hg : Gives Γ v.symbol type readOnly) (hc : heads.countP Head.copiesBuffer = type.isBuffer.toNat)
    (ht : ∀ name symbol, row.clause.typed? = some (name, symbol) → symbol = v.symbol ∧ typeName? type = some name) :
    Beside Γ heads [row] where
  spelled other hm name symbol h := by
    rw [List.mem_singleton.1 hm] at h
    obtain ⟨rfl, hname⟩ := ht name symbol h
    exact ⟨type, readOnly, hg, hname⟩
  count := by
    rw [hc, List.countP_singleton, touchesBuffer, hv, Option.any_some, standsForBuffer_eq hg]
    cases type.isBuffer <;> rfl

/-- Braces around rows. -/
theorem Beside.braced (h : Beside Γ heads rows) (depth : Nat) : Beside Γ heads (Glsl.bracedRows depth rows) := by
  have hopen : Beside Γ [] [⟨depth, .openBrace⟩] := beside_plain rfl rfl
  have hclose : Beside Γ [] [⟨depth, .closeBrace⟩] := beside_plain rfl rfl
  have hall := hopen.append (h.append hclose)
  rwa [List.nil_append, List.append_nil] at hall

/-- Nodes that assign no buffer, for which nothing is written. -/
theorem beside_silent (h : heads.countP Head.copiesBuffer = 0) : Beside Γ heads [] where
  spelled row hm := by cases hm
  count := by rw [h]; rfl

/-- A block: its head, the expressions of its header, and the rows of its header before those of its body. -/
theorem Beside.nested (h : Beside Γ heads rows) {head : Head} (hk : head.kind ≠ .assignment) {header : List Term}
    (hheader : ∀ term ∈ header, Expression Γ term) {front : List Row} (hfront : Beside Γ [] front) (depth : Nat) :
    Beside Γ (head :: (Term.headsAll header ++ heads)) (front ++ Glsl.bracedRows depth rows) := by
  have hhead : (head :: Term.headsAll header).countP Head.copiesBuffer = 0 := by
    have hnode := Term.copies_of_kind_ne hk fun term hm => copies_of_expression (hheader term hm)
    rwa [Term.copies, Term.heads] at hnode
  have hall := (beside_silent hhead).append (hfront.append (h.braced depth))
  rwa [List.nil_append, List.nil_append] at hall

end Rows

section Statements

variable {Γ : Ledger} {scope : Scope}

/-- What is written for an assignment. -/
theorem beside_assignment {tree : Tree} {stmts : List Stmt} {scope' : Scope} (hg : Generated scope tree stmts scope')
    (hk : tree.kind = .assignment) (hi : Item Γ tree.term) (depth : Nat) :
    Beside Γ tree.term.heads (Stmt.rowsAll depth stmts) := by
  -- a lane is no buffer, and neither is the vector that it belongs to
  have plain : ∀ {target source : Tree} {owner : SymbolId} {ownerType : ValueType} {lane : Lane},
      tree.children = [target, source] → target.head.payload = .member owner ownerType lane →
      Gives Γ owner ownerType false ∧ ownerType.isBuffer = false ∧ tree.term.copies = 0 := by
    intro target source owner ownerType lane hc hp
    obtain ⟨hgives, hlane⟩ := gives_of_member (recorded_assignment hi hk hc).2.1 hp
    obtain ⟨hvector, htype⟩ := isBuffer_of_laneOf hlane
    refine ⟨hgives, hvector, ?_⟩
    rw [copies_of_assignment hi hk hc, htype]
    rfl
  cases hg with
  | define _ hc _ _ hp _ _ hs =>
    have hgives := gives_of_symbol (recorded_assignment hi hk hc).2.1 hp
    refine beside_target rfl hgives (copies_of_assignment hi hk hc) ?_
    rintro name symbol ⟨⟩
    exact ⟨rfl, hs⟩
  | assign _ hc _ _ hp =>
    have hgives := gives_of_symbol (recorded_assignment hi hk hc).2.1 hp
    refine beside_target rfl hgives (copies_of_assignment hi hk hc) ?_
    rintro name symbol ⟨⟩
  | @declareLane _ _ _ owner _ _ type _ hc _ _ hp _ _ hs =>
    obtain ⟨hgives, hvector, hcopies⟩ := plain hc hp
    have hdeclare : Beside Γ [] [⟨depth, .declare type (scope.variableOf owner)⟩] := by
      refine beside_target rfl hgives (by rw [hvector]; rfl) ?_
      rintro name symbol ⟨⟩
      exact ⟨rfl, hs⟩
    refine hdeclare.append (beside_target rfl hgives (by rw [hvector]; exact hcopies) ?_)
    rintro name symbol ⟨⟩
  | assignLane _ hc _ _ hp =>
    obtain ⟨hgives, hvector, hcopies⟩ := plain hc hp
    refine beside_target rfl hgives (by rw [hvector]; exact hcopies) ?_
    rintro name symbol ⟨⟩
  | guarded keyword hk' =>
    rw [hk] at hk'
    cases keyword <;> cases hk'
  | otherwise hk' | block hk' | count hk' =>
    rw [hk] at hk'
    cases hk'

/-- What is written for statements stands beside them. -/
theorem beside_of_arranged {trees : List Tree} {stmts : List Stmt} (h : Arranged Γ scope trees stmts) :
    ∀ {depth : Nat}, (∀ tree ∈ trees, Item Γ tree.term) →
      Beside Γ (Term.headsAll (trees.map Tree.term)) (Stmt.rowsAll depth stmts) := by
  -- one statement of a kind that has a body, and those after it
  have step : ∀ {tree : Tree} {trees header body : List Tree} {stmt : Stmt} {stmts inner : List Stmt} {front : List Row}
      {depth : Nat}, tree.kind.isBlock = true → tree.children = header ++ body → (∀ child ∈ header, Expression Γ child.term) →
      Beside Γ [] front → stmt.rows depth = front ++ Glsl.bracedRows depth (Stmt.rowsAll (depth + 1) inner) →
      Beside Γ (Term.headsAll (body.map Tree.term)) (Stmt.rowsAll (depth + 1) inner) →
      Beside Γ (Term.headsAll (trees.map Tree.term)) (Stmt.rowsAll depth stmts) →
      Beside Γ (Term.headsAll ((tree :: trees).map Tree.term)) (Stmt.rowsAll depth (stmt :: stmts)) := by
    intro tree trees header body stmt stmts inner front depth hb hc hheader hfront hrows hbody hrest
    have hkind : tree.head.kind ≠ .assignment := by
      intro hk
      rw [Tree.kind, hk] at hb
      cases hb
    rw [List.map_cons, Term.headsAll, heads_eq, hc, List.map_append, Term.headsAll_append, Stmt.rowsAll, hrows]
    exact (hbody.nested hkind (List.forall_mem_map.2 hheader) hfront depth).append hrest
  induction h with
  | nil => exact fun _ => beside_silent rfl
  | assignment hk hi hg _ ih =>
    intro depth hitems
    rw [Stmt.rowsAll_append]
    exact (beside_assignment hg hk hi depth).append (ih fun tree hm => hitems tree (List.mem_cons_of_mem _ hm))
  | @guarded keyword scope tree condition body trees cond inner stmts hk hc hr _ _ _ ihb ih =>
    intro depth hitems
    obtain ⟨hitem, hitems⟩ := List.forall_mem_cons.1 hitems
    have hblock : tree.kind.isBlock = true ∧ tree.kind.headerLength = 1 := by rw [hk]; cases keyword <;> exact ⟨rfl, rfl⟩
    have hbody := (recorded_parts hitem hblock.1).2
    rw [hblock.2, hc] at hbody
    have hheader : ∀ child ∈ [condition], Expression Γ child.term := by simpa using hr
    exact step hblock.1 hc hheader (beside_plain rfl rfl) rfl (ihb hbody) (ih hitems)
  | @otherwise scope tree trees inner stmts hk _ _ ihb ih =>
    intro depth hitems
    obtain ⟨hitem, hitems⟩ := List.forall_mem_cons.1 hitems
    have hbody := (recorded_parts hitem (by rw [hk]; rfl)).2
    rw [hk] at hbody
    exact step (by rw [hk]; rfl) (List.nil_append _).symm (by simp) (beside_plain rfl rfl) rfl (ihb hbody) (ih hitems)
  | @block scope tree trees inner stmts hk _ _ ihb ih =>
    intro depth hitems
    obtain ⟨hitem, hitems⟩ := List.forall_mem_cons.1 hitems
    have hbody := (recorded_parts hitem (by rw [hk]; rfl)).2
    rw [hk] at hbody
    exact step (by rw [hk]; rfl) (List.nil_append _).symm (by simp) (beside_silent rfl) rfl (ihb hbody) (ih hitems)
  | @count scope tree start stop body trees symbol first last inner stmts hk hc hs _ hr _ hr' _ _ _ ihb ih =>
    intro depth hitems
    obtain ⟨hitem, hitems⟩ := List.forall_mem_cons.1 hitems
    have hbody := (recorded_parts hitem (by rw [hk]; rfl)).2
    rw [hk, hc] at hbody
    have hheader : ∀ child ∈ [start, stop], Expression Γ child.term := by simpa using ⟨hr, hr'⟩
    have hfront : Beside Γ [] [⟨depth, .count (scope.variableOf symbol) first last⟩] := by
      refine beside_target rfl (gives_counter hitem hk hs) rfl ?_
      rintro name symbol ⟨⟩
      exact ⟨rfl, by decide⟩
    exact step (by rw [hk]; rfl) hc hheader hfront rfl (ihb hbody) (ih hitems)

end Statements

/-! ## Whole shaders -/

section Shaders

variable {Γ : Ledger} {root main : Tree} {shader : Shader} {names : List String}

/-- A section of declarations assigns nothing. -/
theorem copies_of_section {part : Term} (h : Item Γ part) (hs : part.kind = .constData ∨ part.kind = .outData) :
    part.copies = 0 := by
  have hchildren : ∀ child ∈ part.children, child.copies = 0 := by
    rcases hs with hk | hk
    · intro child hm
      obtain ⟨symbol, type, name, rfl, -⟩ := h.inputs hk child hm
      exact Term.copies_leaf (by rintro ⟨⟩)
    · intro child hm
      obtain ⟨symbol, type, name, rfl, -⟩ := h.outputs hk child hm
      exact Term.copies_leaf (by rintro ⟨⟩)
  obtain ⟨head, children⟩ := part
  refine Term.copies_of_kind_ne ?_ hchildren
  rintro hk
  rw [Term.kind, Term.head, hk] at hs
  rcases hs with hs | hs <;> cases hs

/-- Of several terms of different kinds one may assign buffers. -/
theorem countP_headsAll_of_mem {terms : List Term} {term : Term} (hm : term ∈ terms) (hn : (terms.map Term.kind).Nodup)
    (h : ∀ other ∈ terms, other.kind ≠ term.kind → other.copies = 0) :
    (Term.headsAll terms).countP Head.copiesBuffer = term.copies := by
  obtain ⟨before, after, rfl⟩ := List.append_of_mem hm
  rw [List.map_append, List.map_cons, List.nodup_middle, List.nodup_cons, ← List.map_append] at hn
  have hrest : ∀ other ∈ before ++ after, other.copies = 0 := by
    intro other hother
    refine h other ?_ fun hk => hn.1 (hk ▸ List.mem_map_of_mem hother)
    rw [List.mem_append, List.mem_cons]
    exact (List.mem_append.1 hother).imp_right .inr
  rw [List.forall_mem_append] at hrest
  rw [Term.headsAll_append, Term.headsAll, List.countP_append, List.countP_append, Term.countP_headsAll_eq_zero hrest.1,
    Term.countP_headsAll_eq_zero hrest.2, Nat.zero_add, Nat.add_zero]
  rfl

/-- The heads below a node that is no assignment. -/
theorem copies_eq_countP {tree : Tree} (hk : tree.kind ≠ .assignment) :
    tree.term.copies = (Term.headsAll (tree.children.map Tree.term)).countP Head.copiesBuffer := by
  have hhead : tree.head.copiesBuffer = false := by simp [Head.copiesBuffer, show tree.head.kind ≠ .assignment from hk]
  rw [Term.copies, heads_eq, List.countP_cons_of_neg (by simp [hhead])]

/-- All assignments of a program stand in its main section. -/
theorem copies_of_recorded (hm : Made root main shader) (h : Recorded Γ root names) :
    root.term.copies = (Term.headsAll (main.children.map Tree.term)).countP Head.copiesBuffer := by
  obtain ⟨hmem, hkind⟩ := (Glsl.firstOf_eq_some_iff hm.once).1 hm.main_eq
  have hmain : main.term ∈ root.children.map Tree.term := List.mem_map_of_mem hmem
  obtain ⟨hsections, honce⟩ := h.item.sections (by rw [Tree.term_kind, h.kind])
  rw [Tree.term_children] at hsections honce
  rw [copies_eq_countP (show root.kind ≠ .assignment by rw [h.kind]; rintro ⟨⟩),
    ← copies_eq_countP (show main.kind ≠ .assignment by rw [hkind]; rintro ⟨⟩)]
  refine countP_headsAll_of_mem hmain honce ?_
  intro part hpart hne
  rw [Tree.term_kind, hkind] at hne
  obtain ⟨hitem, hsection⟩ := hsections part hpart
  refine copies_of_section hitem ?_
  cases hk : part.kind with
  | constData => exact .inl rfl
  | outData => exact .inr rfl
  | main => exact absurd hk hne
  | _ =>
    rw [hk] at hsection
    cases hsection

/-- Inputs and outputs have the types that they were given out for. -/
theorem gives_declaration (hm : Made root main shader) (h : Recorded Γ root names) {d : Glsl.Declaration}
    (hd : d ∈ shader.inputs ++ shader.outputs) : ∃ readOnly, Gives Γ d.symbol d.type readOnly := by
  obtain ⟨hsections, -⟩ := h.item.sections (by rw [Tree.term_kind, h.kind])
  rw [Tree.term_children, List.forall_mem_map] at hsections
  have part : ∀ {kind : NodeKind} {tree : Tree}, tree ∈ Glsl.childrenOf (Glsl.firstOf kind root.children) →
      ∃ part : Tree, Item Γ part.term ∧ part.term.kind = kind ∧ tree.term ∈ part.term.children := by
    intro kind tree htree
    cases hpart : Glsl.firstOf kind root.children with
    | none =>
      rw [hpart] at htree
      cases htree
    | some part =>
      rw [hpart] at htree
      obtain ⟨hmem, hkind⟩ := (Glsl.firstOf_eq_some_iff hm.once).1 hpart
      refine ⟨part, (hsections part hmem).1, by rw [Tree.term_kind, hkind], ?_⟩
      rw [Tree.term_children]
      exact List.mem_map_of_mem htree
  have gives : ∀ {tree : Tree} {kind : NodeKind} {symbol : SymbolId} {type : ValueType} {name : String} {readOnly : Bool},
      tree.term = .node ((Head.ofSymbol kind type symbol).named name) [] → Gives Γ symbol type readOnly →
      tree.head.symbol? = some d.symbol → d.type = tree.type → Gives Γ d.symbol d.type readOnly := by
    intro tree kind symbol type name readOnly hterm hgives hsymbol htype
    obtain ⟨hhead, -⟩ := Glsl.head_and_children_of_term hterm
    rw [hhead] at hsymbol
    cases hsymbol
    rwa [htype, Tree.type, hhead]
  rcases List.mem_append.1 hd with hd | hd
  · obtain ⟨tree, htree, hdeclares⟩ := Glsl.exists_declares hm.inputs hd
    obtain ⟨part, hitem, hkind, hchild⟩ := part htree
    obtain ⟨symbol, type, name, hterm, hgives⟩ := hitem.inputs hkind tree.term hchild
    exact ⟨true, gives hterm hgives hdeclares.symbol_eq hdeclares.type_eq⟩
  · obtain ⟨tree, htree, hdeclares⟩ := Glsl.exists_declares hm.outputs hd
    obtain ⟨part, hitem, hkind, hchild⟩ := part htree
    obtain ⟨symbol, type, name, hterm, hgives, -⟩ := hitem.outputs hkind tree.term hchild
    exact ⟨false, gives hterm hgives hdeclares.symbol_eq hdeclares.type_eq⟩

/-- The rows before the body of `main`. -/
theorem spelled_headerRows (hm : Made root main shader) (h : Recorded Γ root names) (config : Config) :
    ∀ row ∈ shader.headerRows config, SpelledType Γ row.clause := by
  have declared : ∀ {d : Glsl.Declaration} {clause : Clause}, d ∈ shader.inputs ++ shader.outputs →
      clause.typed? = some (d.spelling, d.symbol) → SpelledType Γ clause := by
    intro d clause hd hc name symbol htyped
    rw [hc] at htyped
    cases htyped
    obtain ⟨readOnly, hgives⟩ := gives_declaration hm h hd
    exact ⟨d.type, readOnly, hgives, hm.typeName?_eq hd⟩
  have silent : ∀ {clause : Clause}, clause.typed? = none → SpelledType Γ clause := by
    intro clause hc name symbol htyped
    rw [hc] at htyped
    cases htyped
  have spaced : ∀ {rows : List Row}, (∀ row ∈ rows, SpelledType Γ row.clause) →
      ∀ row ∈ Glsl.spaced rows, SpelledType Γ row.clause := by
    intro rows hrows row hrow
    unfold Glsl.spaced at hrow
    split at hrow
    · cases hrow
    · rcases List.mem_cons.1 hrow with rfl | hrow
      · exact silent rfl
      · exact hrows row hrow
  have uniforms : ∀ row ∈ shader.uniformRows, SpelledType Γ row.clause := by
    intro row hrow
    rcases List.mem_append.1 hrow with hrow | hrow
    · split at hrow
      · rw [List.mem_singleton.1 hrow]
        exact silent rfl
      · cases hrow
    · obtain ⟨d, hd, rfl⟩ := List.mem_map.1 hrow
      exact declared (List.mem_append_left _ hd) rfl
  have targets : ∀ row ∈ shader.targetRows, SpelledType Γ row.clause := by
    intro row hrow
    obtain ⟨⟨d, location⟩, hd, rfl⟩ := List.mem_map.1 hrow
    have hmem : d ∈ shader.outputs := List.fst_mem_of_mem_zipIdx hd
    exact declared (List.mem_append_right _ hmem) rfl
  intro row hrow
  rw [Shader.headerRows, List.mem_cons, List.mem_append, List.mem_append] at hrow
  rcases hrow with rfl | (hrow | hrow) | hrow
  · exact silent rfl
  · exact spaced uniforms row hrow
  · exact spaced targets row hrow
  · rcases List.mem_pair.1 hrow with rfl | rfl
    · exact silent rfl
    · exact silent rfl

/-- The variable that a line declares or assigns is declared in the text. -/
theorem exists_typed_of_target {text : List Row} (h : Scoped .start text) {row : Row} (hm : row ∈ text) {v : Glsl.Variable}
    (hv : row.clause.target? = some v) : ∃ other ∈ text, ∃ name, other.clause.typed? = some (name, v.symbol) := by
  obtain ⟨before, after, rfl⟩ := List.append_of_mem hm
  -- what is assigned was declared before
  have assigned : v ∈ row.clause.used → ∃ other ∈ before ++ row :: after, ∃ name,
      other.clause.typed? = some (name, v.symbol) := by
    intro hused
    obtain ⟨seen, hlookup, hsymbol⟩ := (h before row after rfl).resolved v hused
    rw [show Reading.start = Standing.start.reading from rfl, ← Standing.reading_after] at hlookup
    obtain ⟨clause, hclause, hdeclared⟩ := Standing.exists_declared_of_lookup hlookup
    rcases Standing.mem_of_mem_after (List.mem_append_left _ hclause) with hstart | ⟨other, hother, rfl⟩
    · cases hstart
    · obtain ⟨name, htyped⟩ := Clause.exists_typed? hdeclared hsymbol
      exact ⟨other, List.mem_append_left _ hother, name, htyped⟩
  obtain ⟨depth, clause⟩ := row
  cases clause with
  | count | define | declare =>
    cases hv
    exact ⟨_, hm, _, rfl⟩
  | assign | assignLane =>
    cases hv
    exact assigned List.mem_cons_self
  | _ => cases hv

/-- A line has to do with what the text declares as a sampler exactly if it has to do with a buffer. -/
theorem touchesSampler_eq {text : List Row} (hs : ∀ row ∈ text, SpelledType Γ row.clause) (hscoped : Scoped .start text) {row : Row}
    (hm : row ∈ text) : Glsl.touchesSampler text row = touchesBuffer Γ row := by
  have sampler : ∀ {other : Row} {name : String} {symbol : SymbolId}, other ∈ text →
      other.clause.typed? = some (name, symbol) → Glsl.samplerTypes.contains name = standsForBuffer Γ symbol := by
    intro other name symbol hother htyped
    obtain ⟨type, readOnly, hgives, hname⟩ := hs other hother name symbol htyped
    rw [standsForBuffer_eq hgives, Glsl.contains_samplerTypes hgives.isNameable hname]
  unfold Glsl.touchesSampler touchesBuffer
  cases hv : row.clause.target? with
  | none => rfl
  | some v =>
    rw [Option.any_some, Option.any_some, Bool.eq_iff_iff, List.contains_iff_mem, Glsl.mem_samplersOf]
    constructor
    · rintro ⟨other, hother, name, htyped, hsampler⟩
      rwa [sampler hother htyped] at hsampler
    · intro hbuffer
      obtain ⟨other, hother, name, htyped⟩ := exists_typed_of_target hscoped hm hv
      exact ⟨other, hother, name, htyped, by rwa [sampler hother htyped]⟩

/-- In the text of a recorded program, the lines of `main` that have to do with a sampler are as many as the assignments of
buffers. -/
theorem countP_touchesSampler (hm : Made root main shader) (h : Recorded Γ root names) (config : Config) :
    (Stmt.rowsAll 1 shader.body).countP (Glsl.touchesSampler (shader.rows config)) = root.term.copies := by
  have harranged := Execution.arranged_main hm h
  have hitems : ∀ tree ∈ main.children, Item Γ tree.term := by
    obtain ⟨hmem, hkind⟩ := (Glsl.firstOf_eq_some_iff hm.once).1 hm.main_eq
    obtain ⟨hsections, -⟩ := h.item.sections (by rw [Tree.term_kind, h.kind])
    rw [Tree.term_children, List.forall_mem_map] at hsections
    obtain ⟨hstatements, -⟩ := (hsections main hmem).1.statements (by rw [Tree.term_kind, hkind])
    rwa [Tree.term_children, List.forall_mem_map] at hstatements
  have hbeside := @beside_of_arranged Γ shader.scope main.children shader.body harranged 1 hitems
  have hspelled : ∀ row ∈ shader.rows config, SpelledType Γ row.clause := by
    rw [Shader.rows, List.forall_mem_append]
    exact ⟨spelled_headerRows hm h config, (hbeside.braced 0).spelled⟩
  have hscoped := Glsl.scoped_rows hm harranged config
  rw [copies_of_recorded hm h, ← hbeside.count]
  refine List.countP_congr fun row hrow => ?_
  have hmem : row ∈ shader.rows config := by
    rw [Shader.rows, Glsl.bracedRows]
    simp [hrow]
  rw [touchesSampler_eq hspelled hscoped hmem]

/-- Whatever calls a run is made of: if it can be finished, the assignments of buffers in the program are as many as the calls that
were carried out with a buffer to write, and so are the lines of `main` that declare or assign a sampler, in the text of every
shader that is generated for it. -/
theorem samplers_touched (acts : List Act) (source : Source) (hfinish : (performAll acts .start).session.finish = .ok source) :
    ∃ root, source.arena.tree Session.root = .ok root ∧ root.term.copies = copiesOf acts .start ∧
      ∀ config program, source.generate config = .ok program → ∃ shader, Glsl.shaderOf root = .ok shader ∧
        program.source = Glsl.textOf config.indent (shader.rows config) ∧
        (Stmt.rowsAll 1 shader.body).countP (Glsl.touchesSampler (shader.rows config)) = copiesOf acts .start := by
  obtain ⟨Γ, root, hroot, hrecorded, hcopies⟩ := exists_recorded_copies acts
  obtain ⟨-, rfl⟩ := Recording.session_finish_eq_ok_iff.1 hfinish
  refine ⟨root, hroot, hcopies, ?_⟩
  intro config program hprogram
  obtain ⟨root', shader, hroot', hshader, rfl⟩ := Glsl.generate_eq_ok_iff.1 hprogram
  obtain rfl : root = root' := Except.ok.inj (hroot.symm.trans hroot')
  obtain ⟨main, hm⟩ := Glsl.shaderOf_eq_ok_iff.1 hshader
  refine ⟨shader, hshader, shader.text_eq config, ?_⟩
  rw [countP_touchesSampler hm hrecorded config, hcopies]

/-- A buffer that is copied to a variable twice, after a variable of another type has refused it. -/
def copyActs : List Act :=
  [.call (.enter .constData) none, .call (.input (.buffer2d .float) "img") (some "img"), .call .exit none,
    .call (.enter .main) none, .call (.unbound .float) (some "x"), .call (.assign "x" (.register "img")) none,
    .call (.var (.register "img")) (some "copy"), .call (.assign "copy" (.register "img")) none, .call .exit none]

/-- What the acts have recorded. -/
def copySource : Source := ⟨(performAll copyActs .start).session.arena, (performAll copyActs .start).session.symbolCount⟩

/-- Two assignments of a buffer, and two lines that touch a sampler. -/
theorem samplers_touched_copy : (performAll copyActs .start).session.finish = .ok copySource ∧
    copiesOf copyActs .start = 2 ∧ ∃ root program shader, copySource.arena.tree Session.root = .ok root ∧
      root.term.copies = 2 ∧ copySource.generate {} = .ok program ∧ Glsl.shaderOf root = .ok shader ∧
      (Stmt.rowsAll 1 shader.body).countP (Glsl.touchesSampler (shader.rows {})) = 2 := by
  have hfinish : (performAll copyActs .start).session.finish = .ok copySource :=
    Recording.session_finish_eq_ok_iff.2 ⟨by decide +kernel, rfl⟩
  have hcopies : copiesOf copyActs .start = 2 := by decide +kernel
  have hok : (copySource.generate {}).isOk = true := by decide +kernel
  obtain ⟨program, hprogram⟩ := Glsl.exists_program_of_isOk hok
  obtain ⟨root, hroot, hroot', htext⟩ := samplers_touched copyActs copySource hfinish
  obtain ⟨shader, hshader, -, hcount⟩ := htext {} program hprogram
  rw [hcopies] at hroot' hcount
  exact ⟨hfinish, hcopies, root, program, shader, hroot, hroot', hprogram, hshader, hcount⟩

/-- One variable that is made of a buffer. -/
def samplerSteps : List Script.Step :=
  [.block (.enter .constData) none [.call (.input (.buffer2d .float) "img") (some "img") false] false,
    .block (.enter .main) none [.call (.var (.register "img")) (some "v") false] false]

/-- A call that writes a buffer is not refused: the program that it leaves assigns a buffer, and `main` declares a sampler. -/
theorem sampler_in_main :
    (Script.runEvery samplerSteps .start).2.session.finish = .ok (Recording.sourceOf samplerSteps) ∧
      ((Recording.sourceOf samplerSteps).arena.tree Session.root).toOption.any
        (fun root => root.term.heads.any Head.copiesBuffer) = true ∧
      ((Recording.sourceOf samplerSteps).generate {}).toOption.map Program.source =
        some "#version 330\n\nuniform sampler2DRect img;\n\nvoid main()\n\x7b\n    sampler2DRect v1 = img;\n\x7d\n" :=
  ⟨Recording.finish_eq_ok_iff.2 ⟨by decide +kernel, rfl⟩, by decide +kernel, by decide +kernel⟩

end Shaders

end Buffers

end ShaderTrace
