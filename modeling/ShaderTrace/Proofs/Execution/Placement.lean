import ShaderTrace.Proofs.Execution.Expressions
import ShaderTrace.Proofs.Generator.Failures

/-!
# Where variables are declared

How the statements that are written stand beside the statements of a recording (`Arranged`): a symbol is declared where it is
first assigned to, and a loop never counts with a symbol that is visible outside it. The last is not checked by the generator; it
holds because a recording gives a new symbol to every loop (`arranged_of_statements`). Where no variable is declared without a
value, one statement is written for each (`Placed`).
-/

namespace ShaderTrace.Execution

open Glsl (Expr Stmt Keyword Scope Generated expression statements)
open Recording (Ledger Expression Item Fresh Recorded)

/-- Statements of a recording beside those that are written for them in a scope. A loop counts with a symbol that is not
visible. -/
inductive Arranged (Γ : Ledger) : Scope → List Tree → List Stmt → Prop
  | nil (scope : Scope) : Arranged Γ scope [] []
  | assignment {scope scope' : Scope} {tree : Tree} {trees : List Tree} {first stmts : List Stmt}
    (hk : tree.kind = .assignment) (hi : Item Γ tree.term) (hg : Generated scope tree first scope')
    (rest : Arranged Γ scope' trees stmts) : Arranged Γ scope (tree :: trees) (first ++ stmts)
  | guarded (keyword : Keyword) {scope : Scope} {tree condition : Tree} {body trees : List Tree} {cond : Expr}
    {inner stmts : List Stmt} (hk : tree.kind = keyword.kind) (hc : tree.children = condition :: body)
    (hr : Expression Γ condition.term) (hcond : expression scope condition = .ok cond) (hb : Arranged Γ scope body inner)
    (rest : Arranged Γ scope trees stmts) : Arranged Γ scope (tree :: trees) (.guarded keyword cond inner :: stmts)
  | otherwise {scope : Scope} {tree : Tree} {trees : List Tree} {inner stmts : List Stmt} (hk : tree.kind = .elseBranch)
    (hb : Arranged Γ scope tree.children inner) (rest : Arranged Γ scope trees stmts) :
    Arranged Γ scope (tree :: trees) (.otherwise inner :: stmts)
  | block {scope : Scope} {tree : Tree} {trees : List Tree} {inner stmts : List Stmt} (hk : tree.kind = .block)
    (hb : Arranged Γ scope tree.children inner) (rest : Arranged Γ scope trees stmts) :
    Arranged Γ scope (tree :: trees) (.block inner :: stmts)
  | count {scope : Scope} {tree start stop : Tree} {body trees : List Tree} {symbol : SymbolId} {first last : Expr}
    {inner stmts : List Stmt} (hk : tree.kind = .forRange) (hc : tree.children = start :: stop :: body)
    (hs : tree.head.symbol? = some symbol) (hn : scope.isVisible symbol = false) (hr : Expression Γ start.term)
    (hfirst : expression scope start = .ok first) (hr' : Expression Γ stop.term)
    (hlast : expression scope stop = .ok last) (hb : Arranged Γ (scope.declare symbol) body inner)
    (rest : Arranged Γ scope trees stmts) :
    Arranged Γ scope (tree :: trees) (.count (scope.variableOf symbol) first last inner :: stmts)

/-- Statements that are arranged without declaring a variable that has no value: one is written for each. -/
inductive Placed (Γ : Ledger) : Scope → List Tree → List Stmt → Prop
  | nil (scope : Scope) : Placed Γ scope [] []
  | define {scope : Scope} {tree target source : Tree} {trees : List Tree} {type : String} {value : Expr} {symbol : SymbolId}
    {stmts : List Stmt} (hk : tree.kind = .assignment) (hc : tree.children = [target, source])
    (hr : Expression Γ source.term) (hv : expression scope source = .ok value) (ht : target.kind = .var)
    (hp : target.head.payload = .symbol symbol) (hn : scope.isVisible symbol = false)
    (rest : Placed Γ (scope.declare symbol) trees stmts) :
    Placed Γ scope (tree :: trees) (.define type (scope.variableOf symbol) value :: stmts)
  | assign {scope : Scope} {tree target source : Tree} {trees : List Tree} {value : Expr} {symbol : SymbolId}
    {stmts : List Stmt} (hk : tree.kind = .assignment) (hc : tree.children = [target, source])
    (hr : Expression Γ source.term) (hv : expression scope source = .ok value) (ht : target.kind = .var)
    (hp : target.head.payload = .symbol symbol) (hn : scope.isVisible symbol = true) (rest : Placed Γ scope trees stmts) :
    Placed Γ scope (tree :: trees) (.assign (scope.variableOf symbol) value :: stmts)
  | assignLane {scope : Scope} {tree target source : Tree} {trees : List Tree} {value : Expr} {owner : SymbolId}
    {ownerType : ValueType} {lane : Lane} {stmts : List Stmt} (hk : tree.kind = .assignment)
    (hc : tree.children = [target, source]) (hr : Expression Γ source.term) (hv : expression scope source = .ok value)
    (ht : target.kind = .member) (hp : target.head.payload = .member owner ownerType lane)
    (hn : scope.isVisible owner = true) (rest : Placed Γ scope trees stmts) :
    Placed Γ scope (tree :: trees) (.assignLane (scope.variableOf owner) lane value :: stmts)
  | guarded (keyword : Keyword) {scope : Scope} {tree condition : Tree} {body trees : List Tree} {cond : Expr}
    {inner stmts : List Stmt} (hk : tree.kind = keyword.kind) (hc : tree.children = condition :: body)
    (hr : Expression Γ condition.term) (hcond : expression scope condition = .ok cond) (hb : Placed Γ scope body inner)
    (rest : Placed Γ scope trees stmts) : Placed Γ scope (tree :: trees) (.guarded keyword cond inner :: stmts)
  | otherwise {scope : Scope} {tree : Tree} {trees : List Tree} {inner stmts : List Stmt} (hk : tree.kind = .elseBranch)
    (hb : Placed Γ scope tree.children inner) (rest : Placed Γ scope trees stmts) :
    Placed Γ scope (tree :: trees) (.otherwise inner :: stmts)
  | block {scope : Scope} {tree : Tree} {trees : List Tree} {inner stmts : List Stmt} (hk : tree.kind = .block)
    (hb : Placed Γ scope tree.children inner) (rest : Placed Γ scope trees stmts) :
    Placed Γ scope (tree :: trees) (.block inner :: stmts)
  | count {scope : Scope} {tree start stop : Tree} {body trees : List Tree} {symbol : SymbolId} {first last : Expr}
    {inner stmts : List Stmt} (hk : tree.kind = .forRange) (hc : tree.children = start :: stop :: body)
    (hs : tree.head.symbol? = some symbol) (hn : scope.isVisible symbol = false) (hr : Expression Γ start.term)
    (hfirst : expression scope start = .ok first) (hr' : Expression Γ stop.term)
    (hlast : expression scope stop = .ok last) (hb : Placed Γ (scope.declare symbol) body inner)
    (rest : Placed Γ scope trees stmts) :
    Placed Γ scope (tree :: trees) (.count (scope.variableOf symbol) first last inner :: stmts)

/-- The branches that continue a row stand beside each other, so the rows after them do too. -/
theorem Placed.dropWhile {Γ : Ledger} {scope : Scope} {trees : List Tree} {stmts : List Stmt} (h : Placed Γ scope trees stmts) :
    Placed Γ scope (trees.dropWhile isElse) (stmts.dropWhile continues) := by
  have here : ∀ {tree : Tree} {trees : List Tree} {stmt : Stmt} {stmts : List Stmt}, isElse tree = false →
      continues stmt = false → Placed Γ scope (tree :: trees) (stmt :: stmts) →
      Placed Γ scope ((tree :: trees).dropWhile isElse) ((stmt :: stmts).dropWhile continues) := by
    intro tree trees stmt stmts ht hs h
    rwa [List.dropWhile_cons_of_neg (by simp [ht]), List.dropWhile_cons_of_neg (by simp [hs])]
  have ne : ∀ {tree : Tree} {kind : NodeKind}, tree.kind = kind → (kind == .elseIfBranch || kind == .elseBranch) = false →
      isElse tree = false := by
    rintro tree _ rfl hkind
    exact hkind
  induction h with
  | nil scope => exact .nil scope
  | define hk hc hr hv ht hp hn rest => exact here (ne hk rfl) rfl (.define hk hc hr hv ht hp hn rest)
  | assign hk hc hr hv ht hp hn rest => exact here (ne hk rfl) rfl (.assign hk hc hr hv ht hp hn rest)
  | assignLane hk hc hr hv ht hp hn rest =>
    exact here (ne hk rfl) rfl (.assignLane hk hc hr hv ht hp hn rest)
  | guarded keyword hk hc hr hcond hb rest _ ih =>
    cases keyword with
    | «if» => exact here (ne hk rfl) rfl (.guarded .if hk hc hr hcond hb rest)
    | «while» => exact here (ne hk rfl) rfl (.guarded .while hk hc hr hcond hb rest)
    | elseIf =>
      rw [List.dropWhile_cons_of_pos (by simp [isElse, hk, Keyword.kind]), List.dropWhile_cons_of_pos rfl]
      exact ih here
  | otherwise hk hb rest _ ih =>
    rw [List.dropWhile_cons_of_pos (by simp [isElse, hk]), List.dropWhile_cons_of_pos rfl]
    exact ih here
  | block hk hb rest => exact here (ne hk rfl) rfl (.block hk hb rest)
  | count hk hc hs hn hr hfirst hr' hlast hb rest =>
    exact here (ne hk rfl) rfl (.count hk hc hs hn hr hfirst hr' hlast hb rest)

/-! ## Symbols that loops count with -/

/-- What is visible was mentioned before or is an input or an output, and neither is introduced in what comes. -/
structure Unseen (scope : Scope) (before heads : List Head) : Prop where
  fresh : Fresh before heads
  known : ∀ symbol ∈ scope.visible, symbol ∈ scope.globals.map Prod.fst ∨ ∃ head ∈ before, symbol ∈ head.mentions?
  apart : ∀ head ∈ heads, head.introduces = true → ∀ symbol ∈ head.mentions?, symbol ∉ scope.globals.map Prod.fst

namespace Unseen

variable {scope : Scope} {before heads heads' : List Head}

/-- What comes later is unseen after what came before it. -/
theorem skip (h : Unseen scope before (heads ++ heads')) : Unseen scope (before ++ heads) heads' where
  fresh := (Recording.fresh_append.1 h.fresh).2
  known symbol hm := (h.known symbol hm).imp_right (Exists.imp fun _ => And.imp_left (List.mem_append_left heads))
  apart head hm := h.apart head (List.mem_append_right _ hm)

/-- What comes first is unseen by itself. -/
theorem take (h : Unseen scope before (heads ++ heads')) : Unseen scope before heads where
  fresh := (Recording.fresh_append.1 h.fresh).1
  known := h.known
  apart head hm := h.apart head (List.mem_append_left _ hm)

/-- A symbol that was mentioned may become visible. -/
theorem declare (h : Unseen scope before heads) {symbol : SymbolId} (hs : ∃ head ∈ before, symbol ∈ head.mentions?) :
    Unseen (scope.declare symbol) before heads where
  fresh := h.fresh
  known other hm := by
    rcases List.mem_cons.1 hm with rfl | hm
    · exact .inr hs
    · exact h.known other hm
  apart := h.apart

/-- What is introduced next is not visible. -/
theorem invisible {head : Head} (h : Unseen scope before (head :: heads)) (hi : head.introduces = true) {symbol : SymbolId}
    (hs : symbol ∈ head.mentions?) : scope.isVisible symbol = false := by
  rw [← Glsl.not_mem_seen_iff]
  intro hm
  rcases h.known symbol hm with hg | ⟨earlier, hearlier, hs'⟩
  · exact h.apart head List.mem_cons_self hi symbol hs hg
  · exact h.fresh.1 hi symbol hs earlier hearlier hs'

end Unseen

/-! ## From the generator -/

section Placing

variable {Γ : Ledger}

/-- A recorded block has expressions in its header and items in its body. -/
theorem recorded_parts {tree : Tree} (h : Item Γ tree.term) (hb : tree.kind.isBlock = true) :
    (∀ child ∈ tree.children.take tree.kind.headerLength, Expression Γ child.term) ∧
      ∀ child ∈ tree.children.drop tree.kind.headerLength, Item Γ child.term := by
  obtain ⟨id, head, children⟩ := tree
  rw [Tree.term_node] at h
  obtain ⟨header, body, hc, hbody, hh, hitems, -⟩ := Item.of_block h hb
  have hheader : header = (children.map Tree.term).take head.kind.headerLength := by
    rw [hc, ← hh.shape.1, List.take_left]
  rw [hbody, ← List.map_drop, List.forall_mem_map] at hitems
  have hexprs := hh.expression
  rw [hheader, ← List.map_take, List.forall_mem_map] at hexprs
  exact ⟨hexprs, hitems⟩

/-- A recorded assignment writes a target of its own type. -/
theorem recorded_assignment {tree target source : Tree} (h : Item Γ tree.term) (hk : tree.kind = .assignment)
    (hc : tree.children = [target, source]) :
    tree.head = { kind := .assignment, type := target.type } ∧ Recording.Target Γ target.term ∧ Expression Γ source.term := by
  generalize hterm : tree.term = term at h
  cases h with
  | input | output =>
    rw [Tree.kind, (Glsl.head_and_children_of_term hterm).1] at hk
    cases hk
  | assign ht hv =>
    obtain ⟨hhead, hterms⟩ := Glsl.head_and_children_of_term hterm
    rw [hc] at hterms
    cases hterms
    rw [Tree.term_type] at hhead
    exact ⟨hhead, ht, hv⟩
  | block header body hh =>
    have hb := hh.shape.2
    rw [← (Glsl.head_and_children_of_term hterm).1, show tree.head.kind = .assignment from hk] at hb
    cases hb

/-- The source of an assignment that was recorded is an expression that was. -/
theorem recorded_source {tree target source : Tree} (h : Item Γ tree.term) (hk : tree.kind = .assignment)
    (hc : tree.children = [target, source]) : Expression Γ source.term :=
  (recorded_assignment h hk hc).2.2

/-- The heads of a tree are its own and those of its children. -/
theorem heads_eq (tree : Tree) : tree.term.heads = tree.head :: Term.headsAll (tree.children.map Tree.term) := by
  obtain ⟨id, head, children⟩ := tree
  rw [Tree.term_node, Term.heads]
  rfl

/-- A node mentions the symbol that it is for. -/
theorem mentions_of_payload {tree : Tree} {symbol : SymbolId}
    (h : tree.head.payload = .symbol symbol ∨ ∃ type lane, tree.head.payload = .member symbol type lane) :
    symbol ∈ tree.head.mentions? := by
  unfold Head.mentions?
  rcases h with h | ⟨type, lane, h⟩ <;> rw [h] <;> rfl

/-- A head that is for a symbol has it as its payload. -/
theorem payload_of_symbol? {head : Head} {symbol : SymbolId} (h : head.symbol? = some symbol) :
    head.payload = .symbol symbol := by
  unfold Head.symbol? at h
  split at h
  · rename_i hp
    cases h
    exact hp
  · cases h

/-- What the generator writes for a recording is arranged beside it. -/
theorem arranged_of_statements (trees : List Tree) {scope : Scope} {previous : Option NodeKind} {stmts : List Stmt}
    {before : List Head} (h : statements scope previous trees = .ok stmts) (hi : ∀ tree ∈ trees, Item Γ tree.term)
    (hu : Unseen scope before (Term.headsAll (trees.map Tree.term))) : Arranged Γ scope trees stmts := by
  cases trees with
  | nil =>
    cases h
    exact .nil scope
  | cons tree trees =>
    obtain ⟨-, first, scope', rest, hg, hrest, rfl⟩ := Glsl.statements_cons_eq_ok_iff.1 h
    have hitem := hi tree List.mem_cons_self
    have hitems : ∀ other ∈ trees, Item Γ other.term := fun other hm => hi other (List.mem_cons_of_mem _ hm)
    have hlt := tree.sizeAll_lt_cons trees
    rw [List.map_cons, Term.headsAll] at hu
    have hhere : Unseen scope before (tree.head :: Term.headsAll (tree.children.map Tree.term)) := by
      rw [← heads_eq]
      exact hu.take
    have inside : ∀ {body : List Tree} {inner : Scope} {written : List Stmt} {before' : List Head},
        body.Sublist tree.children → statements inner none body = .ok written → (∀ child ∈ body, Item Γ child.term) →
        Unseen inner before' (Term.headsAll (body.map Tree.term)) → Arranged Γ inner body written := by
      intro body inner written before' hsub hbody hitems hunseen
      have hlt := Tree.sizeAll_lt_of_sublist hsub trees
      exact arranged_of_statements body hbody hitems hunseen
    have whole : ∀ {written : List Stmt}, tree.kind = .elseBranch ∨ tree.kind = .block →
        statements scope none tree.children = .ok written → Arranged Γ scope tree.children written := by
      intro written hk hbody
      have hplain : tree.kind.isBlock = true ∧ tree.kind.headerLength = 0 := by
        rcases hk with hk | hk <;> rw [hk] <;> exact ⟨rfl, rfl⟩
      obtain ⟨-, hitems⟩ := recorded_parts hitem hplain.1
      rw [hplain.2] at hitems
      exact inside (List.Sublist.refl _) hbody hitems (@Unseen.skip scope before [tree.head] _ hhere)
    have after : ∀ {before' : List Head}, Unseen scope' before' (Term.headsAll (trees.map Tree.term)) →
        Arranged Γ scope' trees rest := fun hunseen => arranged_of_statements trees hrest hitems hunseen
    -- the target of an assignment is mentioned in it, so it may become visible
    have mentioned : ∀ {target source : Tree} {symbol : SymbolId}, tree.children = [target, source] →
        symbol ∈ target.head.mentions? → ∃ head ∈ before ++ tree.term.heads, symbol ∈ head.mentions? := by
      intro target source symbol hc hs
      refine ⟨target.head, ?_, hs⟩
      rw [heads_eq, hc, List.map_cons, Term.headsAll, heads_eq]
      simp
    cases hg with
    | define hk hc hv ht hp hi hn hs =>
      exact .assignment hk hitem (.define hk hc hv ht hp hi hn hs)
        (after (hu.skip.declare (mentioned hc (mentions_of_payload (.inl hp)))))
    | assign hk hc hv ht hp hi hn => exact .assignment hk hitem (.assign hk hc hv ht hp hi hn) (after hu.skip)
    | declareLane hk hc hv ht hp hi hn hs =>
      exact .assignment hk hitem (.declareLane hk hc hv ht hp hi hn hs)
        (after (hu.skip.declare (mentioned hc (mentions_of_payload (.inr ⟨_, _, hp⟩)))))
    | assignLane hk hc hv ht hp hi hn => exact .assignment hk hitem (.assignLane hk hc hv ht hp hi hn) (after hu.skip)
    | @guarded keyword condition body cond inner hk hc hcond hb =>
      have hblock : tree.kind.isBlock = true ∧ tree.kind.headerLength = 1 := by rw [hk]; cases keyword <;> exact ⟨rfl, rfl⟩
      obtain ⟨hexprs, hbody⟩ := recorded_parts hitem hblock.1
      rw [hblock.2, hc] at hexprs hbody
      rw [hc, List.map_cons, Term.headsAll, ← List.cons_append] at hhere
      refine .guarded keyword hk hc (hexprs condition (by simp)) hcond ?_ (after hu.skip)
      exact inside (by rw [hc]; exact List.sublist_cons_self _ _) hb hbody hhere.skip
    | otherwise hk hb => exact .otherwise hk (whole (.inl hk) hb) (after hu.skip)
    | block hk hb => exact .block hk (whole (.inr hk) hb) (after hu.skip)
    | @count start stop body symbol first last inner hk hc hs hfirst hlast hb =>
      obtain ⟨hexprs, hbody⟩ := recorded_parts hitem (by rw [hk]; rfl)
      rw [hk, hc] at hexprs hbody
      have hmention := mentions_of_payload (.inl (payload_of_symbol? hs))
      have hintroduces : tree.head.introduces = true := by
        rw [Head.introduces, show tree.head.kind = .forRange from hk]
      have hinner : Unseen scope (before ++ (tree.head :: (start.term.heads ++ stop.term.heads)))
          (Term.headsAll (body.map Tree.term)) := by
        refine Unseen.skip ?_
        simpa [hc, Term.headsAll] using hhere
      refine .count hk hc hs (hhere.invisible hintroduces hmention) (hexprs start (by simp [NodeKind.headerLength])) hfirst
        (hexprs stop (by simp [NodeKind.headerLength])) hlast ?_ (after hu.skip)
      refine inside ?_ hb hbody (hinner.declare ⟨tree.head, by simp, hmention⟩)
      rw [hc]
      exact List.sublist_append_right [start, stop] body
termination_by Tree.sizeAll trees

/-- Where no variable is declared without a value, what is arranged is placed. -/
theorem Arranged.placed {scope : Scope} {trees : List Tree} {stmts : List Stmt} (h : Arranged Γ scope trees stmts)
    (hset : anyDeclaresUnset stmts = false) : Placed Γ scope trees stmts := by
  induction h with
  | nil scope => exact .nil scope
  | assignment hk hitem hg _ ih =>
    cases hg with
    | define _ hc hv ht hp _ hn _ => exact .define hk hc (recorded_source hitem hk hc) hv ht hp hn (ih hset)
    | assign _ hc hv ht hp _ hn => exact .assign hk hc (recorded_source hitem hk hc) hv ht hp hn (ih hset)
    | declareLane => cases hset
    | assignLane _ hc hv ht hp _ hn => exact .assignLane hk hc (recorded_source hitem hk hc) hv ht hp hn (ih hset)
    | guarded keyword hk' =>
      rw [hk] at hk'
      cases keyword <;> cases hk'
    | otherwise hk' | block hk' | count hk' =>
      rw [hk] at hk'
      cases hk'
  | guarded keyword hk hc hr hcond _ _ ihb ih =>
    obtain ⟨hset, hset'⟩ := Bool.or_eq_false_iff.1 hset
    exact .guarded keyword hk hc hr hcond (ihb hset) (ih hset')
  | otherwise hk _ _ ihb ih =>
    obtain ⟨hset, hset'⟩ := Bool.or_eq_false_iff.1 hset
    exact .otherwise hk (ihb hset) (ih hset')
  | block hk _ _ ihb ih =>
    obtain ⟨hset, hset'⟩ := Bool.or_eq_false_iff.1 hset
    exact .block hk (ihb hset) (ih hset')
  | count hk hc hs hn hr hfirst hr' hlast _ _ ihb ih =>
    obtain ⟨hset, hset'⟩ := Bool.or_eq_false_iff.1 hset
    exact .count hk hc hs hn hr hfirst hr' hlast (ihb hset) (ih hset')

/-! ## Whole programs -/

/-- The symbols that some nodes introduce. -/
def introduced (heads : List Head) : List SymbolId := (heads.filter Head.introduces).filterMap Head.mentions?

/-- The symbols that heads introduce are those that an introducing head mentions. -/
theorem mem_introduced {heads : List Head} {symbol : SymbolId} :
    symbol ∈ introduced heads ↔ ∃ head ∈ heads, head.introduces = true ∧ symbol ∈ head.mentions? := by
  simp [introduced, and_assoc]

theorem introduced_append (heads heads' : List Head) : introduced (heads ++ heads') = introduced heads ++ introduced heads' := by
  simp [introduced]

/-- What is introduced below one of several terms is not introduced below another. -/
theorem not_mem_introduced {terms : List Term} (hn : (introduced (Term.headsAll terms)).Nodup) {a b : Term} (ha : a ∈ terms)
    (hb : b ∈ terms) (hne : a ≠ b) {symbol : SymbolId} (hs : symbol ∈ introduced a.heads) : symbol ∉ introduced b.heads := by
  have later : ∀ {term : Term} {terms : List Term}, term ∈ terms → symbol ∈ introduced term.heads →
      symbol ∈ introduced (Term.headsAll terms) := by
    intro term terms hm hs
    obtain ⟨head, hhead, hrest⟩ := mem_introduced.1 hs
    exact mem_introduced.2 ⟨head, Term.mem_headsAll.2 ⟨term, hm, hhead⟩, hrest⟩
  intro hs'
  induction terms with
  | nil => cases ha
  | cons term terms ih =>
    rw [Term.headsAll, introduced_append, List.nodup_append] at hn
    obtain ⟨-, hrest, hdisjoint⟩ := hn
    rcases List.mem_cons.1 ha with rfl | hma <;> rcases List.mem_cons.1 hb with rfl | hmb
    · exact hne rfl
    · exact hdisjoint symbol hs symbol (later hmb hs') rfl
    · exact hdisjoint symbol hs' symbol (later hma hs) rfl
    · exact ih hrest hma hmb

/-- The inputs and outputs of a recorded program are introduced in the two sections of declarations. -/
theorem introduced_of_declared {root : Term} (h : Item Γ root) (hk : root.kind = .program) {symbol : SymbolId}
    (hs : symbol ∈ (Glsl.declared root).filterMap (·.head.symbol?)) :
    ∃ part ∈ root.children, part.kind ≠ .main ∧ symbol ∈ introduced part.heads := by
  obtain ⟨term, hterm, hsymbol⟩ := List.mem_filterMap.1 hs
  have hdeclaration := Recording.isDeclaration_of_mem h hk term ((Glsl.declared_perm root).mem_iff.1 hterm)
  have hpart : ∃ part ∈ root.children, part.kind ≠ .main ∧ term ∈ part.children := by
    rcases List.mem_append.1 hterm with hm | hm
    all_goals
      obtain ⟨part, hpart, hchild⟩ := List.mem_flatMap.1 hm
      obtain ⟨hpart, hkind⟩ := List.mem_filter.1 hpart
      exact ⟨part, hpart, by rw [beq_iff_eq.1 hkind]; decide, hchild⟩
  obtain ⟨part, hpart, hkind, hchild⟩ := hpart
  refine ⟨part, hpart, hkind, mem_introduced.2 ⟨term.head, ?_, hdeclaration.introduces_eq, ?_⟩⟩
  · obtain ⟨head, children⟩ := part
    exact List.mem_cons_of_mem _ (Term.mem_headsAll.2 ⟨term, hchild, by rw [hdeclaration.heads_eq]; simp⟩)
  · rw [hdeclaration.mentions_eq]
    exact hsymbol

theorem globals_scope (shader : Glsl.Shader) : shader.scope.globals = Glsl.globalsOf (shader.inputs ++ shader.outputs) := by
  simp [Glsl.Shader.scope, Scope.outermost, Glsl.globalsOf]

/-- At the start of `main` the declared symbols are visible. -/
theorem visible_scope (shader : Glsl.Shader) : shader.scope.visible = (shader.inputs ++ shader.outputs).map (·.symbol) := by
  rw [← Glsl.map_fst_globalsOf, ← globals_scope]
  rfl

/-- Nothing that main introduces is an input or an output. -/
theorem unseen_main {root main : Tree} {shader : Glsl.Shader} (hm : Glsl.Made root main shader) (h : Item Γ root.term)
    (hf : Fresh [] root.term.heads) :
    ∃ before, Unseen shader.scope before (Term.headsAll (main.children.map Tree.term)) := by
  obtain ⟨hmem, hkind⟩ := (Glsl.firstOf_eq_some_iff hm.once).1 hm.main_eq
  have hmain : main.term ∈ root.term.children := by
    rw [Tree.term_children]
    exact List.mem_map_of_mem hmem
  have hsymbols := (Glsl.declared_eq hm.once hm.inputs hm.outputs).1
  have hnodup : (introduced (Term.headsAll root.term.children)).Nodup := by
    have := hf.nodup.1
    obtain ⟨id, head, children⟩ := root
    have hno : head.introduces = false := by rw [Head.introduces, show head.kind = .program from hm.program]
    rw [Tree.term_node, Term.heads, List.filter_cons_of_neg (by rw [hno]; exact Bool.false_ne_true)] at this
    rw [Tree.term_node]
    exact this
  obtain ⟨pre, post, hsplit⟩ := List.append_of_mem hmain
  have hfresh : ∃ before, Fresh before (Term.headsAll (main.children.map Tree.term)) := by
    rw [heads_eq, ← Tree.term_children, hsplit, Term.headsAll_append, Term.headsAll, heads_eq, ← List.cons_append,
      Recording.fresh_append, Recording.fresh_append] at hf
    exact ⟨_, hf.2.1.2⟩
  obtain ⟨before, hfresh⟩ := hfresh
  refine ⟨before, hfresh, fun symbol hs => .inl ?_, ?_⟩
  · exact hs
  · intro head hhead hi symbol hs hg
    rw [globals_scope, Glsl.map_fst_globalsOf, ← hsymbols] at hg
    obtain ⟨part, hpart, hne, hpart'⟩ := introduced_of_declared h (by rw [Tree.term_kind, hm.program]) hg
    refine not_mem_introduced hnodup hpart hmain ?_ hpart' (mem_introduced.2 ⟨head, ?_, hi, hs⟩)
    · rintro rfl
      exact hne (by rw [Tree.term_kind, hkind])
    · rw [heads_eq]
      exact List.mem_cons_of_mem _ hhead

/-- The body of a shader stands beside the main section that it was written for. -/
theorem arranged_main {root main : Tree} {shader : Glsl.Shader} {names : List String} (hm : Glsl.Made root main shader)
    (h : Recorded Γ root names) : Arranged Γ shader.scope main.children shader.body := by
  obtain ⟨hmem, hkind⟩ := (Glsl.firstOf_eq_some_iff hm.once).1 hm.main_eq
  have hmain : Item Γ main.term := by
    refine ((h.item.sections (by rw [Tree.term_kind, h.kind])).1 main.term ?_).1
    rw [Tree.term_children]
    exact List.mem_map_of_mem hmem
  obtain ⟨hitems, -⟩ := hmain.statements (by rw [Tree.term_kind, hkind])
  rw [Tree.term_children, List.forall_mem_map] at hitems
  obtain ⟨before, hunseen⟩ := unseen_main hm h.item h.fresh
  exact arranged_of_statements main.children hm.body hitems hunseen

/-- The statements of a recorded shader are placed if none declares a variable without a value. -/
theorem placed_main {root main : Tree} {shader : Glsl.Shader} {names : List String} (hm : Glsl.Made root main shader)
    (h : Recorded Γ root names) (hset : anyDeclaresUnset shader.body = false) :
    Placed Γ shader.scope main.children shader.body :=
  (arranged_main hm h).placed hset

end Placing

end ShaderTrace.Execution
