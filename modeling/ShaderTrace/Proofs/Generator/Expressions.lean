import ShaderTrace.Glsl.Expression
import ShaderTrace.Proofs.Copying

/-!
# The expression of a tree

The walk with its own stack does what recursion over the tree would do: the shape of a node is checked, its operands are rendered
from left to right, and the node is put together from them (`expression_eq`). From that, the expressions that a tree can have
are said with one case a kind of node (`expression_eq_ok_iff`).
-/

namespace ShaderTrace

namespace Tree

/-- A child is smaller than the tree it belongs to. -/
theorem size_lt_of_mem_children {tree child : Tree} (h : child ∈ tree.children) : child.size < tree.size := by
  obtain ⟨id, head, children⟩ := tree
  have : child.size ≤ sizeAll children := size_le_sizeAll h
  rw [size]
  omega

/-- Fewer trees are smaller. -/
theorem sizeAll_le_of_sublist {trees trees' : List Tree} (h : trees.Sublist trees') : sizeAll trees ≤ sizeAll trees' := by
  induction h with
  | slnil => exact Nat.le_refl _
  | cons tree _ ih => rw [sizeAll]; omega
  | cons_cons tree _ ih => rw [sizeAll, sizeAll]; omega

theorem sizeAll_lt_cons (tree : Tree) (trees : List Tree) : sizeAll trees < sizeAll (tree :: trees) := by
  have hpos := tree.size_pos
  rw [sizeAll]
  omega

/-- What stands below the first of several trees is smaller than all of them. -/
theorem sizeAll_lt_of_sublist {tree : Tree} {body : List Tree} (h : body.Sublist tree.children) (trees : List Tree) :
    sizeAll body < sizeAll (tree :: trees) := by
  have hle := sizeAll_le_of_sublist h
  obtain ⟨id, head, children⟩ := tree
  rw [Tree.children] at hle
  rw [sizeAll, size]
  omega

/-! ## The shape of a node -/

/-- The operands are all children, and as many as asked for. -/
theorem childrenExactly_eq_ok_iff {tree : Tree} {count : Nat} {operands : List Tree} :
    tree.childrenExactly count = .ok operands ↔ tree.children.length = count ∧ operands = tree.children := by
  unfold childrenExactly
  split
  · simp_all [eq_comm]
  · simp_all

/-- A call has the number of its function as its first child, and its arguments after that. -/
theorem builtinCall_eq_ok_iff {tree : Tree} {builtin : Builtin} {arguments : List Tree} :
    tree.builtinCall = .ok (builtin, arguments) ↔ ∃ first id, tree.children = first :: arguments ∧
      first.head.literal? = some (.int id) ∧ Builtin.ofId? id = some builtin := by
  unfold builtinCall
  constructor
  · intro h
    split at h
    · cases h
    · rename_i first rest hc
      split at h
      · rename_i id hl
        split at h
        · rename_i found hf
          cases h
          exact ⟨first, id, hc, hl, hf⟩
        · cases h
      · cases h
  · rintro ⟨first, id, hc, hl, hf⟩
    rw [hc]
    simp only [hl, hf]

/-- A sampling has a variable that is a buffer as its first child, and as many children as asked for. -/
theorem sampleOperands_eq_ok_iff {tree : Tree} {count : Nat} {operands : List Tree} :
    tree.sampleOperands count = .ok operands ↔ operands = tree.children ∧ tree.children.length = count ∧
      ∃ buffer indices, tree.children = buffer :: indices ∧ buffer.kind = .var ∧ buffer.type.isBuffer = true := by
  unfold sampleOperands
  rw [bind_eq_ok_iff]
  constructor
  · rintro ⟨found, hfound, h⟩
    obtain ⟨hlen, rfl⟩ := childrenExactly_eq_ok_iff.1 hfound
    simp only at h
    split at h
    · rename_i buffer indices hc
      obtain ⟨⟨⟩, hcheck, h⟩ := bind_eq_ok_iff.1 h
      cases h
      unfold checkBuffer at hcheck
      split at hcheck
      · rename_i hb
        exact ⟨rfl, hlen, buffer, indices, hc, hb.1, hb.2⟩
      · cases hcheck
    · cases h
  · rintro ⟨rfl, hlen, buffer, indices, hc, hk, ht⟩
    refine ⟨tree.children, childrenExactly_eq_ok_iff.2 ⟨hlen, rfl⟩, ?_⟩
    rw [hc]
    simp only [checkBuffer, hk, ht, and_self, if_true]
    rfl

/-- What is rendered first is below the node. -/
theorem sublist_of_operands {tree : Tree} {operands : List Tree} (h : tree.operands = .ok operands) :
    operands.Sublist tree.children := by
  unfold Tree.operands at h
  split at h
  case h_1 | h_2 | h_3 | h_4 | h_5 => cases h; exact List.nil_sublist _
  case h_6 | h_7 | h_8 => rw [(childrenExactly_eq_ok_iff.1 h).2]
  case h_9 | h_10 =>
    obtain ⟨name, -, h⟩ := bind_eq_ok_iff.1 h
    split at h
    · cases h
    · cases h; exact List.Sublist.refl _
  case h_11 =>
    obtain ⟨⟨builtin, arguments⟩, hb, h⟩ := bind_eq_ok_iff.1 h
    obtain ⟨first, id, hc, -⟩ := builtinCall_eq_ok_iff.1 hb
    simp only at h
    split at h
    · cases h
      rw [hc]
      exact List.sublist_cons_self _ _
    · cases h
  case h_12 | h_13 => rw [(sampleOperands_eq_ok_iff.1 h).1]
  case h_14 =>
    split at h
    · rw [(childrenExactly_eq_ok_iff.1 h).2]
    · cases h

end Tree

namespace Glsl

/-! ## The walk -/

/-- Coming to a tree puts its expression on the stack, in at most two steps a node. -/
def Visits (scope : Scope) (tree : Tree) : Prop :=
  ∀ (exhausted : GenerateError) (bound : Nat) (finished : List Expr) (rest : List Task), 2 * tree.size ≤ bound →
    ∃ bound', bound ≤ bound' + 2 * tree.size ∧
      Worklist.run (perform scope) exhausted bound finished (.visit tree :: rest) =
        expression scope tree >>= fun expr => Worklist.run (perform scope) exhausted bound' (expr :: finished) rest

/-- The walk visits trees in a row, each within its share of the bound, and leaves their expressions on the stack. -/
theorem run_visits {scope : Scope} (exhausted : GenerateError) {trees : List Tree} (h : ∀ tree ∈ trees, Visits scope tree) :
    ∀ (bound : Nat) (finished : List Expr) (rest : List Task), 2 * Tree.sizeAll trees ≤ bound →
      ∃ bound', bound ≤ bound' + 2 * Tree.sizeAll trees ∧
        Worklist.run (perform scope) exhausted bound finished (trees.map .visit ++ rest) =
          trees.mapM (expression scope) >>= fun exprs =>
            Worklist.run (perform scope) exhausted bound' (exprs.reverse ++ finished) rest := by
  induction trees with
  | nil => intro bound finished rest _; exact ⟨bound, Nat.le_add_right _ _, rfl⟩
  | cons tree trees ih =>
    intro bound finished rest hbound
    rw [Tree.sizeAll] at hbound ⊢
    obtain ⟨bound₁, hle₁, hrun₁⟩ := h tree List.mem_cons_self exhausted bound finished (trees.map .visit ++ rest) (by omega)
    rw [List.map_cons, List.cons_append, hrun₁, List.mapM_cons]
    cases expression scope tree with
    | error e => exact ⟨bound, by omega, rfl⟩
    | ok expr =>
      obtain ⟨bound₂, hle₂, hrun₂⟩ :=
        ih (fun other hm => h other (List.mem_cons_of_mem _ hm)) bound₁ (expr :: finished) rest (by omega)
      refine ⟨bound₂, by omega, ?_⟩
      show Worklist.run (perform scope) exhausted bound₁ (expr :: finished) (trees.map .visit ++ rest) = _
      rw [hrun₂]
      cases trees.mapM (expression scope) with
      | error e => rfl
      | ok exprs =>
        show Worklist.run (perform scope) exhausted bound₂ (exprs.reverse ++ expr :: finished) rest =
          Worklist.run (perform scope) exhausted bound₂ ((expr :: exprs).reverse ++ finished) rest
        rw [List.reverse_cons, List.append_assoc, List.singleton_append]

/-- One step of the walk, when the operands of the node are rendered as they should be. -/
theorem run_visit {scope : Scope} (exhausted : GenerateError) {tree : Tree} {bound : Nat} (finished : List Expr)
    (rest : List Task) (hbound : 2 * tree.size ≤ bound)
    (h : ∀ operands, tree.operands = .ok operands → ∀ operand ∈ operands, Visits scope operand) :
    ∃ bound', bound ≤ bound' + 2 * tree.size ∧
      Worklist.run (perform scope) exhausted bound finished (.visit tree :: rest) =
        (tree.operands >>= fun operands => operands.mapM (expression scope) >>= render scope tree) >>= fun expr =>
          Worklist.run (perform scope) exhausted bound' (expr :: finished) rest := by
  obtain ⟨bound, rfl⟩ : ∃ n, bound = n + 1 := ⟨bound - 1, by have := tree.size_pos; omega⟩
  cases hops : tree.operands with
  | error e =>
    refine ⟨bound + 1, by omega, ?_⟩
    rw [Worklist.run, perform, hops]
    rfl
  | ok operands =>
    have hstep : perform scope finished (.visit tree) =
        .ok (finished, operands.map .visit ++ [.render tree operands.length]) := by
      rw [perform, hops]
      rfl
    have hsize : Tree.sizeAll operands + 1 ≤ tree.size := by
      have := Tree.sizeAll_le_of_sublist (Tree.sublist_of_operands hops)
      obtain ⟨id, head, children⟩ := tree
      rw [Tree.children] at this
      rw [Tree.size]
      omega
    obtain ⟨bound₁, hle, hrun⟩ := run_visits exhausted (h operands hops) bound finished
      (.render tree operands.length :: rest) (by omega)
    rw [Worklist.run_cons bound rest hstep, List.append_assoc, List.singleton_append, hrun]
    obtain ⟨bound₁, rfl⟩ : ∃ n, bound₁ = n + 1 := ⟨bound₁ - 1, by omega⟩
    refine ⟨bound₁, by omega, ?_⟩
    cases hexprs : operands.mapM (expression scope) with
    | error e => simp only [Bind.bind, Except.bind, hexprs]
    | ok exprs =>
      have hlen : exprs.reverse.length = operands.length := by rw [List.length_reverse, length_of_mapM hexprs]
      simp only [Bind.bind, Except.bind, hexprs]
      rw [Worklist.run, perform, List.take_left' hlen, List.drop_left' hlen, List.reverse_reverse]
      cases render scope tree exprs with
      | error e => rfl
      | ok expr => rfl

/-- Recursion over the tree: the shape is checked, then the operands are rendered from left to right, then the node is put
together. -/
theorem expression_eq_of_visits {scope : Scope} {tree : Tree}
    (h : ∀ operands, tree.operands = .ok operands → ∀ operand ∈ operands, Visits scope operand) :
    expression scope tree =
      tree.operands >>= fun operands => operands.mapM (expression scope) >>= render scope tree := by
  obtain ⟨bound, -, hrun⟩ := run_visit tree.malformed [] [] (Nat.le_refl (2 * tree.size)) h
  rw [expression, hrun]
  cases tree.operands >>= fun operands => operands.mapM (expression scope) >>= render scope tree with
  | error e => rfl
  | ok expr =>
    show Worklist.run (perform scope) tree.malformed bound [expr] [] >>= _ = _
    rw [Worklist.run_nil]
    rfl

/-- The walk over any tree leaves its expression on the stack, within twice the size of the tree. -/
theorem visits (scope : Scope) (tree : Tree) : Visits scope tree := by
  have h : ∀ operands, tree.operands = .ok operands → ∀ operand ∈ operands, Visits scope operand :=
    fun operands hops operand hm =>
      have hlt : operand.size < tree.size := Tree.size_lt_of_mem_children ((Tree.sublist_of_operands hops).subset hm)
      visits scope operand
  intro exhausted bound finished rest hbound
  rw [expression_eq_of_visits h]
  exact run_visit exhausted finished rest hbound h
termination_by tree.size

/-- The walk recurses: it renders the operands of a node, and then the node. -/
theorem expression_eq (scope : Scope) (tree : Tree) :
    expression scope tree =
      tree.operands >>= fun operands => operands.mapM (expression scope) >>= render scope tree :=
  expression_eq_of_visits fun _ _ operand _ => visits scope operand

/-! ## What a tree can be rendered as -/

/-- A binary operator is found by its own kind only. -/
theorem kind_of_ofKind? {kind : NodeKind} {op : BinaryOp} (h : BinaryOp.ofKind? kind = some op) : kind = op.kind := by
  unfold BinaryOp.ofKind? at h
  exact (eq_of_beq (by simpa using List.find?_some h)).symm

section Operators

variable {scope : Scope} {tree : Tree}

/-- A unary operator has one operand. -/
theorem operands_unary (op : UnaryOp) (h : tree.kind = op.kind) : tree.operands = tree.childrenExactly 1 := by
  unfold Tree.operands
  rw [h]
  cases op <;> rfl

/-- A binary operator has two operands. -/
theorem operands_binary (op : BinaryOp) (h : tree.kind = op.kind) : tree.operands = tree.childrenExactly 2 := by
  unfold Tree.operands
  rw [h]
  cases op <;> rfl

/-- A unary operator is rendered as an operation. -/
theorem render_unary (op : UnaryOp) (h : tree.kind = op.kind) (operand : Expr) :
    render scope tree [operand] = .ok (.unary op operand) := by
  unfold render
  rw [h]
  cases op <;> rfl

/-- A binary operator is rendered as an operation. -/
theorem render_binary (op : BinaryOp) (h : tree.kind = op.kind) (left right : Expr) :
    render scope tree [left, right] = .ok (.binary op left right) := by
  unfold render
  rw [h]
  cases op <;> rfl

/-- A type is spelled exactly if it has a name. -/
theorem spell_eq_ok_iff {type : ValueType} {name : String} : tree.spell type = .ok name ↔ typeName? type = some name := by
  unfold Tree.spell
  cases typeName? type <;> simp

/-- The symbol of a node is that of its head. -/
theorem symbolOf_eq_ok_iff {symbol : SymbolId} : tree.symbolOf = .ok symbol ↔ tree.head.symbol? = some symbol := by
  unfold Tree.symbolOf
  cases tree.head.symbol? <;> simp

/-- A symbol is resolved exactly if it is visible. -/
theorem resolve_eq_ok_iff {node : NodeId} {symbol : SymbolId} {v : Variable} :
    scope.resolve node symbol = .ok v ↔ scope.isVisible symbol = true ∧ v = scope.variableOf symbol := by
  unfold Scope.resolve
  cases scope.isVisible symbol with
  | true => simp only [if_true, Except.ok.injEq, true_and, eq_comm]
  | false => simp

/-- A node without operands is put together at once. -/
theorem expression_leaf (hops : tree.operands = .ok []) : expression scope tree = render scope tree [] := by
  rw [expression_eq, hops]
  rfl

/-- A variable is the symbol of its node, resolved. -/
theorem expression_var (hk : tree.kind = .var) :
    expression scope tree = tree.symbolOf >>= fun symbol => scope.resolve tree.id symbol >>= fun v => .ok (.var v) := by
  rw [expression_leaf (by unfold Tree.operands; rw [hk])]
  unfold render
  rw [hk]
  rfl

/-- A constant is the literal of its node. -/
theorem expression_literal (hk : tree.kind = .literal) :
    expression scope tree = match tree.head.payload with
      | .literal value => .ok (.literal value)
      | _ => .error (tree.unexpected .literalValue) := by
  rw [expression_leaf (by unfold Tree.operands; rw [hk])]
  unfold render
  generalize tree.kind = kind at hk ⊢
  subst hk
  rfl

/-- A lane is that of the resolved vector. -/
theorem expression_member (hk : tree.kind = .member) :
    expression scope tree = match tree.head.payload with
      | .member owner _ lane => scope.resolve tree.id owner >>= fun v => .ok (.field (.var v) lane.accessor)
      | _ => .error (tree.unexpected .memberReference) := by
  rw [expression_leaf (by unfold Tree.operands; rw [hk])]
  unfold render
  generalize tree.kind = kind at hk ⊢
  subst hk
  rfl

theorem expression_index (hk : tree.kind = .index) : expression scope tree = .ok .index := by
  rw [expression_leaf (by unfold Tree.operands; rw [hk])]
  unfold render
  rw [hk]

theorem expression_normalizedIndex (hk : tree.kind = .normalizedIndex) : expression scope tree = .ok .normalizedIndex := by
  rw [expression_leaf (by unfold Tree.operands; rw [hk])]
  unfold render
  rw [hk]

/-- A cast or a constructor is rendered as a call of the name of its type. -/
theorem render_convert (hk : tree.kind = .cast ∨ tree.kind = .constructor) {exprs : List Expr} (hne : exprs ≠ []) :
    render scope tree exprs = tree.spell tree.type >>= fun name => .ok (.call name exprs) := by
  obtain ⟨expr, rest, rfl⟩ := List.exists_cons_of_ne_nil hne
  unfold render
  rcases hk with hk | hk <;> rw [hk] <;> rfl

/-- A call is rendered as one of its function. -/
theorem render_function (hk : tree.kind = .function) (exprs : List Expr) :
    render scope tree exprs = tree.builtinCall >>= fun call => .ok (.builtin call.1 exprs) := by
  unfold render
  rw [hk]
  rfl

/-- The operands of a cast or a constructor are its children, of which there is one at least. -/
theorem operands_convert (hk : tree.kind = .cast ∨ tree.kind = .constructor) :
    tree.operands = tree.spell tree.type >>= fun _ =>
      if tree.children.isEmpty then .error tree.malformed else .ok tree.children := by
  unfold Tree.operands
  rcases hk with hk | hk <;> rw [hk]

/-- The operands of a call are its arguments, of which there are as many as the function takes. -/
theorem operands_function (hk : tree.kind = .function) :
    tree.operands = tree.builtinCall >>= fun call =>
      if call.2.length = call.1.arity then .ok call.2
      else .error (.builtinArity tree.id call.1 call.1.arity call.2.length) := by
  unfold Tree.operands
  rw [hk]

end Operators

/-- What a tree is rendered as, one case a kind of node. -/
inductive Rendered (scope : Scope) (tree : Tree) : Expr → Prop
  | var {symbol : SymbolId} (hk : tree.kind = .var) (hs : tree.head.symbol? = some symbol)
    (hv : scope.isVisible symbol = true) : Rendered scope tree (.var (scope.variableOf symbol))
  | literal {value : Literal} (hk : tree.kind = .literal) (hl : tree.head.literal? = some value) :
    Rendered scope tree (.literal value)
  | member {owner : SymbolId} {ownerType : ValueType} {lane : Lane} (hk : tree.kind = .member)
    (hp : tree.head.payload = .member owner ownerType lane) (hv : scope.isVisible owner = true) :
    Rendered scope tree (.field (.var (scope.variableOf owner)) lane.accessor)
  | index (hk : tree.kind = .index) : Rendered scope tree .index
  | normalizedIndex (hk : tree.kind = .normalizedIndex) : Rendered scope tree .normalizedIndex
  | unary (op : UnaryOp) {operand : Tree} {expr : Expr} (hk : tree.kind = op.kind) (hc : tree.children = [operand])
    (h : expression scope operand = .ok expr) : Rendered scope tree (.unary op expr)
  | binary (op : BinaryOp) {left right : Tree} {l r : Expr} (hk : tree.kind = op.kind)
    (hc : tree.children = [left, right]) (hl : expression scope left = .ok l) (hr : expression scope right = .ok r) :
    Rendered scope tree (.binary op l r)
  | convert {name : String} {exprs : List Expr} (hk : tree.kind = .cast ∨ tree.kind = .constructor)
    (ht : typeName? tree.type = some name) (hc : tree.children ≠ [])
    (h : tree.children.mapM (expression scope) = .ok exprs) : Rendered scope tree (.call name exprs)
  | call {first : Tree} {id : Int32} {builtin : Builtin} {arguments : List Tree} {exprs : List Expr}
    (hk : tree.kind = .function) (hc : tree.children = first :: arguments)
    (hl : first.head.literal? = some (.int id)) (hb : Builtin.ofId? id = some builtin)
    (ha : arguments.length = builtin.arity) (h : arguments.mapM (expression scope) = .ok exprs) :
    Rendered scope tree (.builtin builtin exprs)
  | sample1d {buffer index : Tree} {b i : Expr} (hk : tree.kind = .sample1d) (hc : tree.children = [buffer, index])
    (hv : buffer.kind = .var) (ht : buffer.type.isBuffer = true) (hb : expression scope buffer = .ok b)
    (hi : expression scope index = .ok i) : Rendered scope tree (.texel tree.type (.call "texelFetch" [b, i]))
  | sample2d {buffer xIndex yIndex : Tree} {b x y : Expr} (hk : tree.kind = .sample2d)
    (hc : tree.children = [buffer, xIndex, yIndex]) (hv : buffer.kind = .var) (ht : buffer.type.isBuffer = true)
    (hb : expression scope buffer = .ok b) (hx : expression scope xIndex = .ok x)
    (hy : expression scope yIndex = .ok y) :
    Rendered scope tree (.texel tree.type (.call "texelFetch" [b, .call "ivec2" [x, y]]))

section Inversion

variable {scope : Scope} {tree : Tree} {expr : Expr}

/-- An operation with one operand that succeeds. -/
theorem Rendered.of_unary (op : UnaryOp) (hk : tree.kind = op.kind) {operands : List Tree} {exprs : List Expr}
    (hops : tree.childrenExactly 1 = .ok operands) (hexprs : operands.mapM (expression scope) = .ok exprs)
    (h : render scope tree exprs = .ok expr) : Rendered scope tree expr := by
  obtain ⟨hlen, rfl⟩ := Tree.childrenExactly_eq_ok_iff.1 hops
  obtain ⟨operand, hc⟩ := List.length_eq_one_iff.1 hlen
  rw [hc] at hexprs
  obtain ⟨e, he, rfl⟩ := mapM_singleton_eq_ok_iff.1 hexprs
  rw [render_unary op hk] at h
  cases h
  exact .unary op hk hc he

/-- A conversion that succeeds. -/
theorem Rendered.of_convert (hk : tree.kind = .cast ∨ tree.kind = .constructor) {operands : List Tree}
    {exprs : List Expr} (hops : (tree.spell tree.type >>= fun _ =>
      if tree.children.isEmpty then .error tree.malformed else .ok tree.children) = .ok operands)
    (hexprs : operands.mapM (expression scope) = .ok exprs) (h : render scope tree exprs = .ok expr) :
    Rendered scope tree expr := by
  obtain ⟨name, hn, hops⟩ := bind_eq_ok_iff.1 hops
  obtain ⟨hne, rfl⟩ : tree.children ≠ [] ∧ operands = tree.children := by
    split at hops
    · cases hops
    · cases hops; exact ⟨by simp_all, rfl⟩
  have hne' : exprs ≠ [] := by
    rintro rfl
    exact hne (List.eq_nil_of_length_eq_zero (length_of_mapM hexprs).symm)
  rw [render_convert hk hne', hn] at h
  cases h
  exact .convert hk (spell_eq_ok_iff.1 hn) hne hexprs

/-- Whatever is rendered is so by one of the rules. -/
theorem rendered_of_expression (h : expression scope tree = .ok expr) : Rendered scope tree expr := by
  have hrow := h
  rw [expression_eq, bind_eq_ok_iff] at hrow
  obtain ⟨operands, hops, hrow⟩ := hrow
  obtain ⟨exprs, hexprs, hrender⟩ := bind_eq_ok_iff.1 hrow
  unfold Tree.operands at hops
  split at hops
  case h_1 hk =>
    rw [expression_var hk] at h
    obtain ⟨symbol, hs, h⟩ := bind_eq_ok_iff.1 h
    obtain ⟨v, hv, h⟩ := bind_eq_ok_iff.1 h
    cases h
    obtain ⟨hvisible, rfl⟩ := resolve_eq_ok_iff.1 hv
    exact .var hk (symbolOf_eq_ok_iff.1 hs) hvisible
  case h_2 hk =>
    rw [expression_literal hk] at h
    split at h
    · rename_i value hp
      cases h
      exact .literal hk (by rw [Head.literal?, hp])
    · cases h
  case h_3 hk =>
    rw [expression_member hk] at h
    split at h
    · rename_i owner ownerType lane hp
      obtain ⟨v, hv, h⟩ := bind_eq_ok_iff.1 h
      cases h
      obtain ⟨hvisible, rfl⟩ := resolve_eq_ok_iff.1 hv
      exact .member hk hp hvisible
    · cases h
  case h_4 hk =>
    rw [expression_index hk] at h
    cases h
    exact .index hk
  case h_5 hk =>
    rw [expression_normalizedIndex hk] at h
    cases h
    exact .normalizedIndex hk
  case h_6 hk => exact .of_unary .neg hk hops hexprs hrender
  case h_7 hk => exact .of_unary .not hk hops hexprs hrender
  case h_8 hk => exact .of_unary .bitNot hk hops hexprs hrender
  case h_9 hk => exact .of_convert (.inl hk) hops hexprs hrender
  case h_10 hk => exact .of_convert (.inr hk) hops hexprs hrender
  case h_11 hk =>
    obtain ⟨⟨builtin, arguments⟩, hb, hops⟩ := bind_eq_ok_iff.1 hops
    simp only at hops
    split at hops
    · rename_i ha
      cases hops
      rw [render_function hk, hb] at hrender
      cases hrender
      obtain ⟨first, id, hc, hl, hid⟩ := Tree.builtinCall_eq_ok_iff.1 hb
      exact .call hk hc hl hid ha hexprs
    · cases hops
  case h_12 hk =>
    obtain ⟨rfl, hlen, buffer, indices, hc, hv, ht⟩ := Tree.sampleOperands_eq_ok_iff.1 hops
    rw [hc] at hlen hexprs
    obtain ⟨index, rfl⟩ := List.length_eq_one_iff.1 (Nat.succ_injective hlen)
    obtain ⟨b, _, hb, hrest, rfl⟩ := mapM_cons_eq_ok_iff.1 hexprs
    obtain ⟨i, hi, rfl⟩ := mapM_singleton_eq_ok_iff.1 hrest
    simp only [render, hk] at hrender
    cases hrender
    exact .sample1d hk hc hv ht hb hi
  case h_13 hk =>
    obtain ⟨rfl, hlen, buffer, indices, hc, hv, ht⟩ := Tree.sampleOperands_eq_ok_iff.1 hops
    rw [hc] at hlen hexprs
    obtain ⟨xIndex, yIndex, rfl⟩ := List.length_eq_two.1 (Nat.succ_injective hlen)
    obtain ⟨b, _, hb, hrest, rfl⟩ := mapM_cons_eq_ok_iff.1 hexprs
    obtain ⟨x, _, hx, hlast, rfl⟩ := mapM_cons_eq_ok_iff.1 hrest
    obtain ⟨y, hy, rfl⟩ := mapM_singleton_eq_ok_iff.1 hlast
    simp only [render, hk] at hrender
    cases hrender
    exact .sample2d hk hc hv ht hb hx hy
  case h_14 =>
    split at hops
    · rename_i hsome
      obtain ⟨op, hop⟩ := Option.isSome_iff_exists.1 hsome
      have hk := kind_of_ofKind? hop
      obtain ⟨hlen, rfl⟩ := Tree.childrenExactly_eq_ok_iff.1 hops
      obtain ⟨left, right, hc⟩ := List.length_eq_two.1 hlen
      rw [hc] at hexprs
      obtain ⟨l, _, hl, hrest, rfl⟩ := mapM_cons_eq_ok_iff.1 hexprs
      obtain ⟨r, hr, rfl⟩ := mapM_singleton_eq_ok_iff.1 hrest
      rw [render_binary op hk] at hrender
      cases hrender
      exact .binary op hk hc hl hr
    · cases hops

/-- What the rules allow is rendered. -/
theorem expression_of_rendered (h : Rendered scope tree expr) : expression scope tree = .ok expr := by
  cases h with
  | var hk hs hv =>
    rw [expression_var hk, symbolOf_eq_ok_iff.2 hs]
    show Scope.resolve _ _ _ >>= _ = _
    rw [resolve_eq_ok_iff.2 ⟨hv, rfl⟩]
    rfl
  | literal hk hl =>
    rw [expression_literal hk]
    unfold Head.literal? at hl
    split at hl <;> simp_all
  | member hk hp hv =>
    rw [expression_member hk, hp]
    show Scope.resolve _ _ _ >>= _ = _
    rw [resolve_eq_ok_iff.2 ⟨hv, rfl⟩]
    rfl
  | index hk => exact expression_index hk
  | normalizedIndex hk => exact expression_normalizedIndex hk
  | unary op hk hc h =>
    rw [expression_eq, operands_unary op hk, Tree.childrenExactly_eq_ok_iff.2 ⟨by rw [hc]; rfl, rfl⟩, hc]
    show List.mapM (expression scope) _ >>= _ = _
    rw [mapM_singleton_eq_ok_iff.2 ⟨_, h, rfl⟩]
    exact render_unary op hk _
  | binary op hk hc hl hr =>
    rw [expression_eq, operands_binary op hk, Tree.childrenExactly_eq_ok_iff.2 ⟨by rw [hc]; rfl, rfl⟩, hc]
    show List.mapM (expression scope) _ >>= _ = _
    rw [mapM_cons_eq_ok_iff.2 ⟨_, _, hl, mapM_singleton_eq_ok_iff.2 ⟨_, hr, rfl⟩, rfl⟩]
    exact render_binary op hk _ _
  | @convert name exprs hk ht hc h =>
    have hne : exprs ≠ [] := by
      rintro rfl
      exact hc (List.eq_nil_of_length_eq_zero (length_of_mapM h).symm)
    rw [expression_eq, operands_convert hk, spell_eq_ok_iff.2 ht]
    show (if _ then _ else _) >>= _ = _
    rw [if_neg (by simpa using hc)]
    show List.mapM (expression scope) _ >>= _ = _
    rw [h]
    show render scope tree _ = _
    rw [render_convert hk hne, spell_eq_ok_iff.2 ht]
    rfl
  | call hk hc hl hb ha h =>
    have hcall := Tree.builtinCall_eq_ok_iff.2 ⟨_, _, hc, hl, hb⟩
    rw [expression_eq, operands_function hk, hcall]
    show (if _ then _ else _) >>= _ = _
    rw [if_pos ha]
    show List.mapM (expression scope) _ >>= _ = _
    rw [h]
    show render scope tree _ = _
    rw [render_function hk, hcall]
    rfl
  | sample1d hk hc hv ht hb hi =>
    have hops : tree.operands = tree.sampleOperands 2 := by unfold Tree.operands; rw [hk]
    rw [expression_eq, hops, Tree.sampleOperands_eq_ok_iff.2 ⟨rfl, by rw [hc]; rfl, _, _, hc, hv, ht⟩, hc]
    show List.mapM (expression scope) _ >>= _ = _
    rw [mapM_cons_eq_ok_iff.2 ⟨_, _, hb, mapM_singleton_eq_ok_iff.2 ⟨_, hi, rfl⟩, rfl⟩]
    show render scope tree _ = _
    unfold render
    rw [hk]
  | sample2d hk hc hv ht hb hx hy =>
    have hops : tree.operands = tree.sampleOperands 3 := by unfold Tree.operands; rw [hk]
    rw [expression_eq, hops, Tree.sampleOperands_eq_ok_iff.2 ⟨rfl, by rw [hc]; rfl, _, _, hc, hv, ht⟩, hc]
    show List.mapM (expression scope) _ >>= _ = _
    rw [mapM_cons_eq_ok_iff.2 ⟨_, _, hb, mapM_cons_eq_ok_iff.2 ⟨_, _, hx, mapM_singleton_eq_ok_iff.2 ⟨_, hy, rfl⟩, rfl⟩,
      rfl⟩]
    show render scope tree _ = _
    unfold render
    rw [hk]

/-- A tree has an expression exactly if it is rendered as it. -/
theorem expression_eq_ok_iff : expression scope tree = .ok expr ↔ Rendered scope tree expr :=
  ⟨rendered_of_expression, expression_of_rendered⟩

/-- What every node hands on from the expressions of its children holds of every expression that is rendered. -/
theorem expression_induction {P : Expr → Prop}
    (step : ∀ {tree : Tree} {expr : Expr}, Rendered scope tree expr →
      (∀ {child : Tree} {e : Expr}, child ∈ tree.children → expression scope child = .ok e → P e) →
      (∀ {children : List Tree} {es : List Expr}, children ⊆ tree.children → children.mapM (expression scope) = .ok es →
        ∀ e ∈ es, P e) → P expr)
    (tree : Tree) {expr : Expr} (h : expression scope tree = .ok expr) : P expr := by
  have below : ∀ {child : Tree} {e : Expr}, child ∈ tree.children → expression scope child = .ok e → P e := by
    intro child e hm he
    have hlt : child.size < tree.size := Tree.size_lt_of_mem_children hm
    exact expression_induction step child he
  refine step (rendered_of_expression h) below fun hsub hes e he => ?_
  obtain ⟨child, hm, hchild⟩ := exists_of_mem_mapM hes he
  exact below (hsub hm) hchild
termination_by tree.size

end Inversion

end Glsl

end ShaderTrace
