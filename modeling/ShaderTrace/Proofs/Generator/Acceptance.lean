import Mathlib.Data.Set.Insert
import ShaderTrace.Arena.Edit
import ShaderTrace.Proofs.Generator.Sections

/-!
# The language that the generator accepts

`Accepted` says which programs have a shader, without the generator: which sections and declarations a program holds
(`DeclaresInput`, `DeclaresOutput`), and that the body of main is `WellScoped`, with `ValidExpression` for what it computes. The
main statement is `generate_isOk_iff`: however an arena was built, the tree below a node has a shader exactly if it is accepted.
-/

namespace ShaderTrace.Glsl

/-! ## Expressions -/

/-- An expression that can be written where the symbols of `visible` are. -/
inductive ValidExpression (visible : Set SymbolId) : Term → Prop
  | var {head : Head} {children : List Term} {symbol : SymbolId} (hk : head.kind = .var)
    (hs : head.symbol? = some symbol) (hv : symbol ∈ visible) : ValidExpression visible (.node head children)
  | literal {head : Head} {children : List Term} {value : Literal} (hk : head.kind = .literal)
    (hl : head.literal? = some value) : ValidExpression visible (.node head children)
  | member {head : Head} {children : List Term} {owner : SymbolId} {ownerType : ValueType} {lane : Lane}
    (hk : head.kind = .member) (hp : head.payload = .member owner ownerType lane) (hv : owner ∈ visible) :
    ValidExpression visible (.node head children)
  | coordinate {head : Head} {children : List Term} (hk : head.kind = .index ∨ head.kind = .normalizedIndex) :
    ValidExpression visible (.node head children)
  | unary (op : UnaryOp) {head : Head} {operand : Term} (hk : head.kind = op.kind)
    (h : ValidExpression visible operand) : ValidExpression visible (.node head [operand])
  | binary (op : BinaryOp) {head : Head} {left right : Term} (hk : head.kind = op.kind)
    (hl : ValidExpression visible left) (hr : ValidExpression visible right) :
    ValidExpression visible (.node head [left, right])
  | convert {head : Head} {operands : List Term} (hk : head.kind = .cast ∨ head.kind = .constructor)
    (ht : (typeName? head.type).isSome = true) (hne : operands ≠ [])
    (h : ∀ operand ∈ operands, ValidExpression visible operand) : ValidExpression visible (.node head operands)
  | call {head : Head} {first : Term} {arguments : List Term} {id : Int32} {builtin : Builtin}
    (hk : head.kind = .function) (hl : first.head.literal? = some (.int id)) (hb : Builtin.ofId? id = some builtin)
    (ha : arguments.length = builtin.arity) (h : ∀ argument ∈ arguments, ValidExpression visible argument) :
    ValidExpression visible (.node head (first :: arguments))
  | sample {head : Head} {buffer : Term} {indices : List Term}
    (hk : head.kind = .sample1d ∧ indices.length = 1 ∨ head.kind = .sample2d ∧ indices.length = 2)
    (hb : buffer.kind = .var) (ht : buffer.type.isBuffer = true) (hv : ValidExpression visible buffer)
    (h : ∀ index ∈ indices, ValidExpression visible index) : ValidExpression visible (.node head (buffer :: indices))

/-- The symbols that a scope sees. -/
def Scope.seen (scope : Scope) : Set SymbolId := {symbol | symbol ∈ scope.visible}

theorem isVisible_iff {scope : Scope} {symbol : SymbolId} : scope.isVisible symbol = true ↔ symbol ∈ scope.seen :=
  List.contains_iff_mem

/-- A tree that has an expression is valid. -/
theorem validExpression_of_expression {scope : Scope} (tree : Tree) {expr : Expr} (h : expression scope tree = .ok expr) :
    ValidExpression scope.seen tree.term := by
  have rendered := rendered_of_expression h
  have below : ∀ child ∈ tree.children, ∀ e, expression scope child = .ok e → ValidExpression scope.seen child.term :=
    fun child hm e he =>
      have : child.size < tree.size := Tree.size_lt_of_mem_children hm
      validExpression_of_expression child he
  have belowAll : ∀ children ⊆ tree.children, ∀ es, children.mapM (expression scope) = .ok es →
      ∀ term ∈ children.map Tree.term, ValidExpression scope.seen term := by
    intro children hsub es hes term hm
    obtain ⟨child, hc, rfl⟩ := List.mem_map.1 hm
    obtain ⟨e, he⟩ := exists_mapM_eq_ok_iff.1 ⟨es, hes⟩ child hc
    exact below child (hsub hc) e he
  clear h
  obtain ⟨id, head, children⟩ := tree
  rw [Tree.term_node]
  cases rendered with
  | var hk hs hv => exact .var hk hs (isVisible_iff.1 hv)
  | literal hk hl => exact .literal hk hl
  | member hk hp hv => exact .member hk hp (isVisible_iff.1 hv)
  | index hk => exact .coordinate (.inl hk)
  | normalizedIndex hk => exact .coordinate (.inr hk)
  | unary op hk hc h =>
    obtain rfl : children = _ := hc
    exact .unary op hk (below _ (by simp [Tree.children]) _ h)
  | binary op hk hc hl hr =>
    obtain rfl : children = _ := hc
    exact .binary op hk (below _ (by simp [Tree.children]) _ hl) (below _ (by simp [Tree.children]) _ hr)
  | convert hk ht hc h =>
    refine .convert hk (by rw [show typeName? head.type = some _ from ht]; rfl) ?_ (belowAll _ (List.Subset.refl _) _ h)
    exact fun hnil => hc (List.map_eq_nil_iff.1 hnil)
  | @call first id builtin arguments exprs hk hc hl hb ha h =>
    obtain rfl : children = _ := hc
    refine .call hk (by rw [Tree.term_head]; exact hl) hb (by rw [List.length_map]; exact ha) ?_
    exact belowAll arguments (List.subset_cons_self _ _) _ h
  | @sample1d buffer index b i hk hc hv ht hb hi =>
    obtain rfl : children = _ := hc
    refine .sample (.inl ⟨hk, rfl⟩) (by rw [Tree.term_kind]; exact hv) (by rw [Tree.term_type]; exact ht)
      (below _ (by simp [Tree.children]) _ hb) ?_
    exact belowAll [index] (List.subset_cons_self _ _) [i] (mapM_singleton_eq_ok_iff.2 ⟨i, hi, rfl⟩)
  | @sample2d buffer xIndex yIndex b x y hk hc hv ht hb hx hy =>
    obtain rfl : children = _ := hc
    refine .sample (.inr ⟨hk, rfl⟩) (by rw [Tree.term_kind]; exact hv) (by rw [Tree.term_type]; exact ht)
      (below _ (by simp [Tree.children]) _ hb) ?_
    exact belowAll [xIndex, yIndex] (List.subset_cons_self _ _) [x, y]
      (mapM_cons_eq_ok_iff.2 ⟨x, [y], hx, mapM_singleton_eq_ok_iff.2 ⟨y, hy, rfl⟩, rfl⟩)
termination_by tree.size

/-- What a term says of its root, a tree with that term says too. -/
theorem head_and_children_of_term {tree : Tree} {head : Head} {terms : List Term} (h : tree.term = .node head terms) :
    tree.head = head ∧ tree.children.map Tree.term = terms := by
  obtain ⟨id, head', children⟩ := tree
  rw [Tree.term_node] at h
  cases h
  exact ⟨rfl, rfl⟩

/-- A valid tree has an expression. -/
theorem exists_expression_of_valid {scope : Scope} {term : Term} (h : ValidExpression scope.seen term) :
    ∀ tree : Tree, tree.term = term → ∃ expr, expression scope tree = .ok expr := by
  have all : ∀ {trees : List Tree} {terms : List Term}, trees.map Tree.term = terms →
      (∀ term ∈ terms, ∀ tree : Tree, tree.term = term → ∃ expr, expression scope tree = .ok expr) →
      ∃ exprs, trees.mapM (expression scope) = .ok exprs := by
    rintro trees _ rfl hterms
    exact exists_mapM_eq_ok_iff.2 fun tree hm => hterms tree.term (List.mem_map_of_mem hm) tree rfl
  induction h with
  | var hk hs hv =>
    intro tree ht
    obtain ⟨rfl, -⟩ := head_and_children_of_term ht
    exact ⟨_, expression_of_rendered (.var hk hs (isVisible_iff.2 hv))⟩
  | literal hk hl =>
    intro tree ht
    obtain ⟨rfl, -⟩ := head_and_children_of_term ht
    exact ⟨_, expression_of_rendered (.literal hk hl)⟩
  | member hk hp hv =>
    intro tree ht
    obtain ⟨rfl, -⟩ := head_and_children_of_term ht
    exact ⟨_, expression_of_rendered (.member hk hp (isVisible_iff.2 hv))⟩
  | coordinate hk =>
    intro tree ht
    obtain ⟨rfl, -⟩ := head_and_children_of_term ht
    rcases hk with hk | hk
    · exact ⟨_, expression_of_rendered (.index hk)⟩
    · exact ⟨_, expression_of_rendered (.normalizedIndex hk)⟩
  | unary op hk _ ih =>
    intro tree ht
    obtain ⟨rfl, hc⟩ := head_and_children_of_term ht
    obtain ⟨operand, hc, hoperand⟩ := List.map_eq_singleton_iff.1 hc
    obtain ⟨e, he⟩ := ih operand hoperand
    exact ⟨_, expression_of_rendered (.unary op hk hc he)⟩
  | binary op hk _ _ ihl ihr =>
    intro tree ht
    obtain ⟨rfl, hc⟩ := head_and_children_of_term ht
    obtain ⟨left, rest, hc, hleft, hrest⟩ := List.map_eq_cons_iff.1 hc
    obtain ⟨right, rfl, hright⟩ := List.map_eq_singleton_iff.1 hrest
    obtain ⟨l, hl⟩ := ihl left hleft
    obtain ⟨r, hr⟩ := ihr right hright
    exact ⟨_, expression_of_rendered (.binary op hk hc hl hr)⟩
  | convert hk htype hne _ ih =>
    intro tree ht
    obtain ⟨rfl, hc⟩ := head_and_children_of_term ht
    obtain ⟨name, hname⟩ := Option.isSome_iff_exists.1 htype
    obtain ⟨exprs, hexprs⟩ := all hc ih
    refine ⟨_, expression_of_rendered (.convert hk hname ?_ hexprs)⟩
    intro hnil
    rw [hnil] at hc
    exact hne hc.symm
  | call hk hl hb ha _ ih =>
    intro tree ht
    obtain ⟨rfl, hc⟩ := head_and_children_of_term ht
    obtain ⟨first, arguments, hchildren, rfl, hrest⟩ := List.map_eq_cons_iff.1 hc
    obtain ⟨exprs, hexprs⟩ := all hrest ih
    rw [Tree.term_head] at hl
    refine ⟨_, expression_of_rendered (.call hk hchildren hl hb ?_ hexprs)⟩
    rw [← hrest, List.length_map] at ha
    exact ha
  | sample hk hb htype _ _ ihb ih =>
    intro tree ht
    obtain ⟨rfl, hc⟩ := head_and_children_of_term ht
    obtain ⟨buffer, indices, hchildren, rfl, hrest⟩ := List.map_eq_cons_iff.1 hc
    rw [Tree.term_kind] at hb
    rw [Tree.term_type] at htype
    obtain ⟨b, hbuffer⟩ := ihb buffer rfl
    obtain ⟨exprs, hexprs⟩ := all hrest ih
    rw [← hrest, List.length_map] at hk
    rcases hk with ⟨hk, hlen⟩ | ⟨hk, hlen⟩
    · obtain ⟨index, rfl⟩ := List.length_eq_one_iff.1 hlen
      obtain ⟨i, hi, -⟩ := mapM_singleton_eq_ok_iff.1 hexprs
      exact ⟨_, expression_of_rendered (.sample1d hk hchildren hb htype hbuffer hi)⟩
    · obtain ⟨xIndex, yIndex, rfl⟩ := List.length_eq_two.1 hlen
      obtain ⟨x, _, hx, hlast, -⟩ := mapM_cons_eq_ok_iff.1 hexprs
      obtain ⟨y, hy, -⟩ := mapM_singleton_eq_ok_iff.1 hlast
      exact ⟨_, expression_of_rendered (.sample2d hk hchildren hb htype hbuffer hx hy)⟩

/-- A tree has an expression exactly if it is valid. -/
theorem exists_expression_iff {scope : Scope} {tree : Tree} :
    (∃ expr, expression scope tree = .ok expr) ↔ ValidExpression scope.seen tree.term := by
  constructor
  · rintro ⟨_, h⟩
    exact validExpression_of_expression tree h
  · exact fun h => exists_expression_of_valid h tree rfl

/-! ## Statements -/

/-- What an assignment writes: a variable, or a lane of one, with the type of the variable. -/
def Writes (target : Term) (symbol : SymbolId) (type : ValueType) : Prop :=
  target.kind = .var ∧ target.head.payload = .symbol symbol ∧ type = target.type ∨
    target.kind = .member ∧ ∃ lane, target.head.payload = .member symbol type lane

/-- Statements that can be written one after the other where the symbols of `visible` are, after a statement of the kind
`previous`. What is assigned is visible in the rest of its block, and what a loop counts with in the loop. -/
inductive WellScoped (inputs : Set SymbolId) : (visible : Set SymbolId) → (previous : Option NodeKind) → List Term → Prop
  | nil {visible : Set SymbolId} {previous : Option NodeKind} : WellScoped inputs visible previous []
  | assign {visible : Set SymbolId} {previous : Option NodeKind} {head : Head} {target source : Term} {rest : List Term}
    {symbol : SymbolId} {type : ValueType} (hk : head.kind = .assignment) (hv : ValidExpression visible source)
    (ht : Writes target symbol type) (hi : symbol ∉ inputs)
    (hs : symbol ∈ visible ∨ (typeName? type).isSome = true)
    (hr : WellScoped inputs (insert symbol visible) (some head.kind) rest) :
    WellScoped inputs visible previous (.node head [target, source] :: rest)
  | guarded {visible : Set SymbolId} {previous : Option NodeKind} {head : Head} {condition : Term} {body rest : List Term}
    (hk : head.kind = .ifBranch ∨ head.kind = .elseIfBranch ∨ head.kind = .whileLoop)
    (hf : Follows previous head.kind) (hc : ValidExpression visible condition)
    (hb : WellScoped inputs visible none body) (hr : WellScoped inputs visible (some head.kind) rest) :
    WellScoped inputs visible previous (.node head (condition :: body) :: rest)
  | plain {visible : Set SymbolId} {previous : Option NodeKind} {head : Head} {body rest : List Term}
    (hk : head.kind = .elseBranch ∨ head.kind = .block) (hf : Follows previous head.kind)
    (hb : WellScoped inputs visible none body) (hr : WellScoped inputs visible (some head.kind) rest) :
    WellScoped inputs visible previous (.node head body :: rest)
  | count {visible : Set SymbolId} {previous : Option NodeKind} {head : Head} {start stop : Term} {body rest : List Term}
    {symbol : SymbolId} (hk : head.kind = .forRange) (hs : head.symbol? = some symbol)
    (hstart : ValidExpression visible start) (hstop : ValidExpression visible stop)
    (hb : WellScoped inputs (insert symbol visible) none body) (hr : WellScoped inputs visible (some head.kind) rest) :
    WellScoped inputs visible previous (.node head (start :: stop :: body) :: rest)

/-- The symbols of the inputs of a scope. -/
def Scope.fixed (scope : Scope) : Set SymbolId := {symbol | symbol ∈ scope.inputs}

theorem isInput_iff {scope : Scope} {symbol : SymbolId} : scope.isInput symbol = true ↔ symbol ∈ scope.fixed :=
  List.contains_iff_mem

/-- A declared symbol is seen from then on. -/
theorem seen_declare (scope : Scope) (symbol : SymbolId) : (scope.declare symbol).seen = insert symbol scope.seen := by
  ext other
  simp [Scope.declare, Scope.seen]

theorem not_mem_fixed_iff {scope : Scope} {symbol : SymbolId} : symbol ∉ scope.fixed ↔ scope.isInput symbol = false := by
  rw [← isInput_iff, Bool.not_eq_true]

theorem not_mem_seen_iff {scope : Scope} {symbol : SymbolId} : symbol ∉ scope.seen ↔ scope.isVisible symbol = false := by
  rw [← isVisible_iff, Bool.not_eq_true]

/-- An assignment to a variable writes its symbol. -/
theorem writes_var {target : Tree} {symbol : SymbolId} (ht : target.kind = .var)
    (hp : target.head.payload = .symbol symbol) : Writes target.term symbol target.type :=
  .inl ⟨by rw [Tree.term_kind, ht], by rw [Tree.term_head, hp], by rw [Tree.term_type]⟩

/-- An assignment to a lane writes the symbol of its vector. -/
theorem writes_member {target : Tree} {owner : SymbolId} {ownerType : ValueType} {lane : Lane} (ht : target.kind = .member)
    (hp : target.head.payload = .member owner ownerType lane) : Writes target.term owner ownerType :=
  .inr ⟨by rw [Tree.term_kind, ht], lane, by rw [Tree.term_head, hp]⟩

/-- Writing a symbol makes it visible, unless it was. -/
theorem exists_generated_of_writes {scope : Scope} {tree target source : Tree} {value : Expr} {symbol : SymbolId}
    {type : ValueType} (hk : tree.kind = .assignment) (hc : tree.children = [target, source])
    (hv : expression scope source = .ok value) (ht : Writes target.term symbol type) (hi : symbol ∉ scope.fixed)
    (hs : symbol ∈ scope.seen ∨ (typeName? type).isSome = true) :
    ∃ stmts scope', Generated scope tree stmts scope' ∧ scope'.fixed = scope.fixed ∧
      scope'.seen = insert symbol scope.seen := by
  rw [not_mem_fixed_iff] at hi
  by_cases hseen : symbol ∈ scope.seen
  · have hsame := (Set.insert_eq_of_mem hseen).symm
    rcases ht with ⟨hkind, hp, -⟩ | ⟨hkind, lane, hp⟩
    · rw [Tree.term_kind] at hkind
      rw [Tree.term_head] at hp
      exact ⟨_, _, .assign hk hc hv hkind hp hi (isVisible_iff.2 hseen), rfl, hsame⟩
    · rw [Tree.term_kind] at hkind
      rw [Tree.term_head] at hp
      exact ⟨_, _, .assignLane hk hc hv hkind hp hi (isVisible_iff.2 hseen), rfl, hsame⟩
  · obtain ⟨name, hname⟩ := Option.isSome_iff_exists.1 (hs.resolve_left hseen)
    rcases ht with ⟨hkind, hp, rfl⟩ | ⟨hkind, lane, hp⟩
    · rw [Tree.term_kind] at hkind
      rw [Tree.term_head] at hp
      rw [Tree.term_type] at hname
      exact ⟨_, _, .define hk hc hv hkind hp hi (not_mem_seen_iff.1 hseen) hname, rfl, seen_declare scope symbol⟩
    · rw [Tree.term_kind] at hkind
      rw [Tree.term_head] at hp
      exact ⟨_, _, .declareLane hk hc hv hkind hp hi (not_mem_seen_iff.1 hseen) hname, rfl, seen_declare scope symbol⟩

/-- A branch with a condition and a loop with one each have a keyword. -/
theorem exists_keyword {kind : NodeKind} (h : kind = .ifBranch ∨ kind = .elseIfBranch ∨ kind = .whileLoop) :
    ∃ keyword : Keyword, kind = keyword.kind := by
  rcases h with rfl | rfl | rfl
  · exact ⟨.if, rfl⟩
  · exact ⟨.elseIf, rfl⟩
  · exact ⟨.while, rfl⟩

/-- Whatever is no alternative may stand anywhere. -/
theorem follows_of_ne {previous : Option NodeKind} {kind : NodeKind} (h : kind ≠ .elseIfBranch) (h' : kind ≠ .elseBranch) :
    Follows previous kind :=
  fun hor => (hor.elim h h').elim

/-- Statements that are written are well scoped. -/
theorem wellScoped_of_statements : ∀ (trees : List Tree) {scope : Scope} {previous : Option NodeKind} {stmts : List Stmt},
    statements scope previous trees = .ok stmts →
      WellScoped scope.fixed scope.seen previous (trees.map Tree.term)
  | [], _, _, _, _ => .nil
  | .node id head children :: trees, scope, previous, stmts, h => by
    obtain ⟨hfollows, first, scope', rest, hgenerated, hrest, -⟩ := statements_cons_eq_ok_iff.1 h
    have hlt := Tree.sizeAll_lt_cons (.node id head children) trees
    have hr := wellScoped_of_statements trees hrest
    have below : ∀ (body : List Tree), body.Sublist children → ∀ {scope : Scope} {stmts : List Stmt},
        statements scope none body = .ok stmts → WellScoped scope.fixed scope.seen none (body.map Tree.term) := by
      intro body hsub scope stmts hbody
      have hlt := @Tree.sizeAll_lt_of_sublist (.node id head children) body hsub trees
      exact wellScoped_of_statements body hbody
    rw [List.map_cons, Tree.term_node]
    cases hgenerated with
    | define hk hc hv ht hp hi hn hs =>
      obtain rfl : children = _ := hc
      rw [seen_declare] at hr
      exact .assign hk (exists_expression_iff.1 ⟨_, hv⟩) (writes_var ht hp) (not_mem_fixed_iff.2 hi)
        (.inr (by rw [hs]; rfl)) hr
    | assign hk hc hv ht hp hi hn =>
      obtain rfl : children = _ := hc
      rw [← Set.insert_eq_of_mem (isVisible_iff.1 hn)] at hr
      exact .assign hk (exists_expression_iff.1 ⟨_, hv⟩) (writes_var ht hp) (not_mem_fixed_iff.2 hi)
        (.inl (isVisible_iff.1 hn)) hr
    | declareLane hk hc hv ht hp hi hn hs =>
      obtain rfl : children = _ := hc
      rw [seen_declare] at hr
      exact .assign hk (exists_expression_iff.1 ⟨_, hv⟩) (writes_member ht hp) (not_mem_fixed_iff.2 hi)
        (.inr (by rw [hs]; rfl)) hr
    | assignLane hk hc hv ht hp hi hn =>
      obtain rfl : children = _ := hc
      rw [← Set.insert_eq_of_mem (isVisible_iff.1 hn)] at hr
      exact .assign hk (exists_expression_iff.1 ⟨_, hv⟩) (writes_member ht hp) (not_mem_fixed_iff.2 hi)
        (.inl (isVisible_iff.1 hn)) hr
    | guarded keyword hk hc hcond hb =>
      obtain rfl : children = _ := hc
      refine .guarded ?_ hfollows (exists_expression_iff.1 ⟨_, hcond⟩) (below _ (List.sublist_cons_self _ _) hb) hr
      rw [show head.kind = keyword.kind from hk]
      cases keyword <;> simp [Keyword.kind]
    | otherwise hk hb => exact .plain (.inl hk) hfollows (below _ (List.Sublist.refl _) hb) hr
    | block hk hb => exact .plain (.inr hk) hfollows (below _ (List.Sublist.refl _) hb) hr
    | @count start stop body symbol first last stmts hk hc hs hfirst hlast hb =>
      obtain rfl : children = _ := hc
      refine .count hk hs (exists_expression_iff.1 ⟨_, hfirst⟩) (exists_expression_iff.1 ⟨_, hlast⟩) ?_ hr
      rw [← seen_declare]
      exact below body ((List.sublist_cons_self _ _).trans (List.sublist_cons_self _ _)) hb
termination_by trees => Tree.sizeAll trees

/-- Statements that are well scoped are written. -/
theorem exists_statements_of_wellScoped {inputs visible : Set SymbolId} {previous : Option NodeKind} {terms : List Term}
    (h : WellScoped inputs visible previous terms) : ∀ (scope : Scope) (trees : List Tree), scope.fixed = inputs →
      scope.seen = visible → trees.map Tree.term = terms → ∃ stmts, statements scope previous trees = .ok stmts := by
  -- one statement is written, and then the rest
  have row : ∀ {scope scope' : Scope} {previous : Option NodeKind} {tree : Tree} {trees : List Tree} {first : List Stmt},
      Follows previous tree.kind → Generated scope tree first scope' →
      (∃ rest, statements scope' (some tree.kind) trees = .ok rest) →
      ∃ stmts, statements scope previous (tree :: trees) = .ok stmts := by
    rintro scope scope' previous tree trees first hf hg ⟨rest, hrest⟩
    exact ⟨_, statements_cons_eq_ok_iff.2 ⟨hf, first, scope', rest, hg, hrest, rfl⟩⟩
  induction h with
  | nil =>
    intro scope trees _ _ ht
    obtain rfl := List.map_eq_nil_iff.1 ht
    exact ⟨[], rfl⟩
  | assign hk hv ht hi hs _ ih =>
    rintro scope trees rfl rfl hterms
    obtain ⟨tree, trees, rfl, htree, rfl⟩ := List.map_eq_cons_iff.1 hterms
    obtain ⟨rfl, hc⟩ := head_and_children_of_term htree
    obtain ⟨target, rest, hchildren, rfl, hrest⟩ := List.map_eq_cons_iff.1 hc
    obtain ⟨source, rfl, rfl⟩ := List.map_eq_singleton_iff.1 hrest
    obtain ⟨value, hvalue⟩ := exists_expression_iff.2 hv
    obtain ⟨stmts, scope', hg, hfixed, hseen⟩ := exists_generated_of_writes hk hchildren hvalue ht hi hs
    refine row (follows_of_ne ?_ ?_) hg (ih scope' trees hfixed hseen rfl)
    · exact fun h => by cases (show tree.kind = _ from hk).symm.trans h
    · exact fun h => by cases (show tree.kind = _ from hk).symm.trans h
  | guarded hk hf hc _ _ ihb ihr =>
    rintro scope trees rfl rfl hterms
    obtain ⟨tree, trees, rfl, htree, rfl⟩ := List.map_eq_cons_iff.1 hterms
    obtain ⟨rfl, hmap⟩ := head_and_children_of_term htree
    obtain ⟨condition, body, hchildren, rfl, rfl⟩ := List.map_eq_cons_iff.1 hmap
    obtain ⟨keyword, hkeyword⟩ := exists_keyword hk
    obtain ⟨cond, hcond⟩ := exists_expression_iff.2 hc
    obtain ⟨stmts, hbody⟩ := ihb scope body rfl rfl rfl
    exact row hf (.guarded keyword hkeyword hchildren hcond hbody) (ihr scope trees rfl rfl rfl)
  | plain hk hf _ _ ihb ihr =>
    rintro scope trees rfl rfl hterms
    obtain ⟨tree, trees, rfl, htree, rfl⟩ := List.map_eq_cons_iff.1 hterms
    obtain ⟨rfl, hchildren⟩ := head_and_children_of_term htree
    obtain ⟨stmts, hbody⟩ := ihb scope tree.children rfl rfl hchildren
    rcases hk with hk | hk
    · exact row hf (.otherwise hk hbody) (ihr scope trees rfl rfl rfl)
    · exact row hf (.block hk hbody) (ihr scope trees rfl rfl rfl)
  | count hk hs hstart hstop _ _ ihb ihr =>
    rintro scope trees rfl rfl hterms
    obtain ⟨tree, trees, rfl, htree, rfl⟩ := List.map_eq_cons_iff.1 hterms
    obtain ⟨rfl, hmap⟩ := head_and_children_of_term htree
    obtain ⟨start, rest, hchildren, rfl, hrest⟩ := List.map_eq_cons_iff.1 hmap
    obtain ⟨stop, body, rfl, rfl, rfl⟩ := List.map_eq_cons_iff.1 hrest
    obtain ⟨first, hfirst⟩ := exists_expression_iff.2 hstart
    obtain ⟨last, hlast⟩ := exists_expression_iff.2 hstop
    obtain ⟨stmts, hbody⟩ := ihb (scope.declare _) body rfl (seen_declare scope _) rfl
    refine row (follows_of_ne ?_ ?_) (.count hk hchildren hs hfirst hlast hbody) (ihr scope trees rfl rfl rfl)
    · exact fun h => by cases (show tree.kind = _ from hk).symm.trans h
    · exact fun h => by cases (show tree.kind = _ from hk).symm.trans h

/-- Statements are written exactly if they are well scoped. -/
theorem exists_statements_iff {scope : Scope} {previous : Option NodeKind} {trees : List Tree} :
    (∃ stmts, statements scope previous trees = .ok stmts) ↔
      WellScoped scope.fixed scope.seen previous (trees.map Tree.term) := by
  constructor
  · rintro ⟨_, h⟩
    exact wellScoped_of_statements trees h
  · exact fun h => exists_statements_of_wellScoped h scope trees rfl rfl rfl

/-! ## Programs -/

/-- What the sections of a kind hold. -/
def below (root : Term) (kind : NodeKind) : List Term := (root.children.filter (·.kind == kind)).flatMap Term.children

/-- A declaration of an input: any type that has a spelling. -/
structure DeclaresInput (term : Term) : Prop where
  kind_eq : term.kind = .constVar
  symbol : term.head.symbol?.isSome = true
  name : term.head.name.isSome = true
  spelled : (typeName? term.type).isSome = true

/-- A declaration of an output: a type that has a spelling, but neither a boolean nor a buffer. -/
structure DeclaresOutput (term : Term) : Prop where
  kind_eq : term.kind = .outVar
  symbol : term.head.symbol?.isSome = true
  name : term.head.name.isSome = true
  spelled : (typeName? term.type).isSome = true
  not_buffer : term.type.isBuffer = false
  not_bool : term.type ≠ .bool

/-- The declarations of a program, inputs before outputs. -/
def declared (root : Term) : List Term := below root .constData ++ below root .outData

/-- A program that has a shader. -/
structure Accepted (root : Term) : Prop where
  program : root.kind = .program
  /-- Only sections stand under a program, -/
  sections : ∀ term ∈ root.children, term.kind.isSection = true
  /-- each at most once, -/
  once : (root.children.map Term.kind).Nodup
  /-- and main is one of them. -/
  main : .main ∈ root.children.map Term.kind
  inputs : ∀ term ∈ below root .constData, DeclaresInput term
  outputs : ∀ term ∈ below root .outData, DeclaresOutput term
  /-- No two inputs or outputs have the same spelling, -/
  idents : (((declared root).filterMap (·.head.name)).map identFor).Nodup
  /-- or the same symbol. -/
  symbols : ((declared root).filterMap (·.head.symbol?)).Nodup
  body : WellScoped {symbol | symbol ∈ (below root .constData).filterMap (·.head.symbol?)}
    {symbol | symbol ∈ (declared root).filterMap (·.head.symbol?)} none (below root .main)

/-- What the only section of a kind holds. -/
theorem below_term {root : Tree} (h : (root.children.map Tree.kind).Nodup) (kind : NodeKind) :
    below root.term kind = (childrenOf (firstOf kind root.children)).map Tree.term := by
  rw [below, Tree.term_children]
  generalize root.children = trees at h
  induction trees with
  | nil => rfl
  | cons tree trees ih =>
    rw [List.map_cons, List.nodup_cons] at h
    by_cases hk : tree.kind = kind
    · have hnone : (trees.map Tree.term).filter (·.kind == kind) = [] := by
        rw [List.filter_eq_nil_iff]
        intro term hm
        obtain ⟨other, hother, rfl⟩ := List.mem_map.1 hm
        rw [Tree.term_kind, beq_iff_eq]
        exact fun hsame => h.1 (List.mem_map.2 ⟨other, hother, hsame.trans hk.symm⟩)
      rw [List.map_cons, List.filter_cons_of_pos (by rw [Tree.term_kind, hk]; exact beq_self_eq_true kind), hnone,
        firstOf_cons_of_eq trees hk, List.flatMap_singleton, Tree.term_children]
      rfl
    · rw [List.map_cons, List.filter_cons_of_neg (by rw [Tree.term_kind, beq_iff_eq]; exact hk), ih h.2,
        firstOf_cons_of_ne trees hk]

section Declarations

variable {kind : NodeKind} {spelling : String → ValueType → Except GenerateError String} {trees : List Tree}
  {ds : List Declaration}

/-- The symbols of the declarations are those of their nodes. -/
theorem filterMap_symbol_of_declares (h : List.Forall₂ (Declares kind spelling) trees ds) :
    (trees.map Tree.term).filterMap (·.head.symbol?) = ds.map (·.symbol) := by
  induction h with
  | nil => rfl
  | cons hd _ ih => rw [List.map_cons, List.filterMap_cons_some (by rw [Tree.term_head, hd.symbol_eq]), ih, List.map_cons]

/-- The identifiers of the declarations are made from the names of their nodes. -/
theorem filterMap_name_of_declares (h : List.Forall₂ (Declares kind spelling) trees ds) :
    ((trees.map Tree.term).filterMap (·.head.name)).map identFor = ds.map (·.ident) := by
  induction h with
  | nil => rfl
  | cons hd _ ih =>
    rw [List.map_cons, List.filterMap_cons_some (by rw [Tree.term_head, hd.name_eq]), List.map_cons, ih, List.map_cons,
      hd.ident_eq]

/-- A node is declared as an input exactly if it has a symbol, a name and a type that can be spelled. -/
theorem exists_declares_input_iff {tree : Tree} :
    (∃ d, Declares .constVar inputSpelling tree d) ↔ DeclaresInput tree.term := by
  constructor
  · rintro ⟨d, h⟩
    refine ⟨?_, ?_, ?_, ?_⟩
    · rw [Tree.term_kind, h.kind_eq]
    · rw [Tree.term_head, h.symbol_eq]; rfl
    · rw [Tree.term_head, h.name_eq]; rfl
    · rw [Tree.term_type, inputSpelling_eq_ok_iff.1 h.spelling_eq]; rfl
  · rintro ⟨hk, hs, hn, hsp⟩
    rw [Tree.term_kind] at hk
    rw [Tree.term_head] at hs hn
    rw [Tree.term_type] at hsp
    obtain ⟨symbol, hs⟩ := Option.isSome_iff_exists.1 hs
    obtain ⟨name, hn⟩ := Option.isSome_iff_exists.1 hn
    obtain ⟨spelled, hsp⟩ := Option.isSome_iff_exists.1 hsp
    exact ⟨⟨symbol, name, identFor name, tree.type, spelled⟩, hk, hs, hn, inputSpelling_eq_ok_iff.2 hsp, rfl, rfl⟩

/-- A node is declared as an output exactly if it has a symbol, a name and a type that an output may have. -/
theorem exists_declares_output_iff {tree : Tree} :
    (∃ d, Declares .outVar outputSpelling tree d) ↔ DeclaresOutput tree.term := by
  constructor
  · rintro ⟨d, h⟩
    obtain ⟨hsp, hbuffer, hbool⟩ := outputSpelling_eq_ok_iff.1 h.spelling_eq
    refine ⟨?_, ?_, ?_, ?_, ?_, ?_⟩
    · rw [Tree.term_kind, h.kind_eq]
    · rw [Tree.term_head, h.symbol_eq]; rfl
    · rw [Tree.term_head, h.name_eq]; rfl
    · rw [Tree.term_type, hsp]; rfl
    · rw [Tree.term_type, hbuffer]
    · rw [Tree.term_type]; exact hbool
  · rintro ⟨hk, hs, hn, hsp, hbuffer, hbool⟩
    rw [Tree.term_kind] at hk
    rw [Tree.term_head] at hs hn
    rw [Tree.term_type] at hsp hbuffer hbool
    obtain ⟨symbol, hs⟩ := Option.isSome_iff_exists.1 hs
    obtain ⟨name, hn⟩ := Option.isSome_iff_exists.1 hn
    obtain ⟨spelled, hsp⟩ := Option.isSome_iff_exists.1 hsp
    exact ⟨⟨symbol, name, identFor name, tree.type, spelled⟩, hk, hs, hn,
      outputSpelling_eq_ok_iff.2 ⟨hsp, hbuffer, hbool⟩, rfl, rfl⟩

end Declarations

/-- At the start of `main` the declared symbols are seen. -/
theorem seen_scope (shader : Shader) :
    shader.scope.seen = {symbol | symbol ∈ (shader.inputs ++ shader.outputs).map (·.symbol)} := by
  rw [Scope.seen, Shader.scope, Scope.outermost, List.map_append, List.map_append, map_fst_globalsOf, map_fst_globalsOf]

/-- The kinds of the children of a program. -/
theorem map_kind_children (root : Tree) : root.term.children.map Term.kind = root.children.map Tree.kind := by
  rw [Tree.term_children, List.map_map]
  exact List.map_congr_left fun tree _ => tree.term_kind

section Programs

variable {root main : Tree} {shader : Shader}

/-- What the declarations of a program are in its shader. -/
theorem declared_eq (hd : (root.children.map Tree.kind).Nodup)
    (hin : List.Forall₂ (Declares .constVar inputSpelling) (childrenOf (firstOf .constData root.children)) shader.inputs)
    (hout : List.Forall₂ (Declares .outVar outputSpelling) (childrenOf (firstOf .outData root.children)) shader.outputs) :
    (declared root.term).filterMap (·.head.symbol?) = (shader.inputs ++ shader.outputs).map (·.symbol) ∧
      ((declared root.term).filterMap (·.head.name)).map identFor =
        (shader.inputs ++ shader.outputs).map (·.ident) := by
  rw [declared, below_term hd, below_term hd, List.filterMap_append, List.filterMap_append, List.map_append,
    List.map_append, List.map_append, filterMap_symbol_of_declares hin, filterMap_symbol_of_declares hout,
    filterMap_name_of_declares hin, filterMap_name_of_declares hout]
  exact ⟨rfl, rfl⟩

/-- A shader is only made from a program that is accepted. -/
theorem accepted_of_made (h : Made root main shader) : Accepted root.term := by
  obtain ⟨hsymbols, hidents⟩ := declared_eq h.once h.inputs h.outputs
  obtain ⟨hmem, hkind⟩ := (firstOf_eq_some_iff h.once).1 h.main_eq
  refine ⟨?_, ?_, ?_, ?_, ?_, ?_, ?_, ?_, ?_⟩
  · rw [Tree.term_kind, h.program]
  · rw [Tree.term_children, List.forall_mem_map]
    intro tree hm
    rw [Tree.term_kind]
    exact h.sections tree hm
  · rw [map_kind_children]
    exact h.once
  · rw [map_kind_children]
    exact List.mem_map.2 ⟨main, hmem, hkind⟩
  · rw [below_term h.once, List.forall_mem_map]
    exact fun tree hm => exists_declares_input_iff.1 (exists_forall₂_iff.1 ⟨_, h.inputs⟩ tree hm)
  · rw [below_term h.once, List.forall_mem_map]
    exact fun tree hm => exists_declares_output_iff.1 (exists_forall₂_iff.1 ⟨_, h.outputs⟩ tree hm)
  · rw [hidents]
    exact h.idents
  · rw [hsymbols]
    exact h.symbols
  · rw [hsymbols, below_term h.once, below_term h.once, filterMap_symbol_of_declares h.inputs, h.main_eq, ← seen_scope]
    exact exists_statements_iff.1 ⟨_, h.body⟩

/-- From every program that is accepted a shader is made. -/
theorem exists_made_of_accepted (h : Accepted root.term) : ∃ main shader, Made root main shader := by
  have honce : (root.children.map Tree.kind).Nodup := by
    rw [← map_kind_children]
    exact h.once
  obtain ⟨main, hmem, hkind⟩ : ∃ main ∈ root.children, main.kind = .main := by
    have := h.main
    rwa [map_kind_children, List.mem_map] at this
  have hmain : firstOf .main root.children = some main := (firstOf_eq_some_iff honce).2 ⟨hmem, hkind⟩
  have hinputs := h.inputs
  have houtputs := h.outputs
  rw [below_term honce, List.forall_mem_map] at hinputs houtputs
  obtain ⟨inputs, hin⟩ := exists_forall₂_iff.2 fun tree hm => exists_declares_input_iff.2 (hinputs tree hm)
  obtain ⟨outputs, hout⟩ := exists_forall₂_iff.2 fun tree hm => exists_declares_output_iff.2 (houtputs tree hm)
  -- the body does not matter for the scope it stands in
  obtain ⟨hsymbols, hidents⟩ := @declared_eq root ⟨main.any needsDispatchSize, inputs, outputs, []⟩ honce hin hout
  have hbody := h.body
  rw [hsymbols, below_term honce, below_term honce, filterMap_symbol_of_declares hin, hmain, ← seen_scope] at hbody
  obtain ⟨body, hbody⟩ := (@exists_statements_iff (Shader.scope ⟨main.any needsDispatchSize, inputs, outputs, []⟩) none
    main.children).2 hbody
  refine ⟨main, ⟨main.any needsDispatchSize, inputs, outputs, body⟩, ?_, ?_, honce, hmain, hin, hout, ?_, ?_, hbody, rfl⟩
  · rw [← Tree.term_kind]
    exact h.program
  · intro tree hm
    rw [← Tree.term_kind]
    exact h.sections tree.term (by rw [Tree.term_children]; exact List.mem_map_of_mem hm)
  · rw [← hsymbols]
    exact h.symbols
  · rw [← hidents]
    exact h.idents

end Programs

/-- A tree has a shader exactly if it is accepted. -/
theorem exists_shaderOf_iff {root : Tree} : (∃ shader, shaderOf root = .ok shader) ↔ Accepted root.term := by
  constructor
  · rintro ⟨shader, h⟩
    obtain ⟨main, hmade⟩ := shaderOf_eq_ok_iff.1 h
    exact accepted_of_made hmade
  · intro h
    obtain ⟨main, shader, hmade⟩ := exists_made_of_accepted h
    exact ⟨shader, shaderOf_eq_ok_iff.2 ⟨main, hmade⟩⟩

/-- The generator accepts exactly its language: however an arena was built, every node of it has a tree below it, and that tree
has a program exactly if it is accepted. -/
theorem generate_isOk_iff (edits : List Edit) (config : Config) (root : NodeId)
    (h : root.index < (Arena.empty.editAll edits).size) :
    ∃ tree, (Arena.empty.editAll edits).tree root = .ok tree ∧
      ((∃ program, generate config (Arena.empty.editAll edits) root = .ok program) ↔ Accepted tree.term) := by
  have howned := Arena.owned_editAll edits
  obtain ⟨tree, hholds, hid⟩ := howned.exists_tree root h
  have htree := howned.tree_eq_ok_iff.2 ⟨hholds, hid⟩
  refine ⟨tree, htree, ?_⟩
  rw [← exists_shaderOf_iff]
  constructor
  · rintro ⟨program, hprogram⟩
    obtain ⟨found, shader, hfound, hshader, -⟩ := generate_eq_ok_iff.1 hprogram
    rw [htree] at hfound
    obtain rfl := Except.ok.inj hfound
    exact ⟨shader, hshader⟩
  · rintro ⟨shader, hshader⟩
    exact ⟨_, generate_eq_ok_iff.2 ⟨tree, shader, htree, hshader, rfl⟩⟩

/-- A program that writes one output, and a copy of it. -/
def copiedEdits : List Edit :=
  [.alloc { kind := .program, type := .void }, .alloc { kind := .outData, type := .void },
    .alloc ((Head.ofSymbol .outVar .float ⟨0⟩).named "color"), .attach ⟨1⟩ ⟨2⟩, .attach ⟨0⟩ ⟨1⟩,
    .alloc { kind := .main, type := .void }, .attach ⟨0⟩ ⟨3⟩, .alloc { kind := .assignment, type := .float },
    .alloc (.ofSymbol .var .float ⟨0⟩), .alloc (.ofLiteral (.float ⟨0⟩)), .attach ⟨4⟩ ⟨5⟩, .attach ⟨4⟩ ⟨6⟩,
    .attach ⟨3⟩ ⟨4⟩, .clone ⟨0⟩]

/-- A program that was copied node by node is accepted, and a text is generated for it. -/
theorem generate_isOk_iff_copy : (⟨7⟩ : NodeId).index < (Arena.empty.editAll copiedEdits).size ∧
    (generate {} (Arena.empty.editAll copiedEdits) ⟨7⟩).isOk = true ∧
    ∃ tree, (Arena.empty.editAll copiedEdits).tree ⟨7⟩ = .ok tree ∧
      ((∃ program, generate {} (Arena.empty.editAll copiedEdits) ⟨7⟩ = .ok program) ↔ Accepted tree.term) :=
  ⟨by decide, by decide +kernel, generate_isOk_iff copiedEdits {} ⟨7⟩ (by decide)⟩

end ShaderTrace.Glsl
