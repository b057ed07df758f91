import ShaderTrace.Proofs.Execution.Semantics
import ShaderTrace.Proofs.Generator.Acceptance
import ShaderTrace.Proofs.Recording.Judgements

/-!
# Expressions keep their values

A recorded expression and the expression that is written for it have the same value wherever the variables that are visible hold
what the cells hold (`eval_expression`). The types of the recording matter in two places: a conversion is to a type that the
spelling gives back, and an index of a buffer of one dimension is never a vector.
-/

namespace ShaderTrace.Execution

open Glsl (Expr Scope Rendered expression)
open Recording (Ledger Gives Expression)

variable {V : Type} {I : Interpretation V} {store : Store V} {env : Env V}

/-! ## Nodes -/

/-- A node of a unary operator means the operator. -/
theorem valueOf_unary (op : UnaryOp) {tree : Tree} (hk : tree.kind = op.kind) (value : V) :
    valueOf I store tree [value] = some (I.unary op value) := by
  unfold valueOf
  rw [hk]
  cases op <;> rfl

/-- A node of a binary operator means the operator. -/
theorem valueOf_binary (op : BinaryOp) {tree : Tree} (hk : tree.kind = op.kind) (left right : V) :
    valueOf I store tree [left, right] = some (I.binary op left right) := by
  unfold valueOf
  rw [hk]
  cases op <;> rfl

/-- A cast or a constructor means a conversion to the type of the node. -/
theorem valueOf_convert {tree : Tree} (hk : tree.kind = .cast ∨ tree.kind = .constructor) (values : List V) :
    valueOf I store tree values = some (I.convert tree.type values) := by
  unfold valueOf
  rcases hk with hk | hk <;> rw [hk]

/-! ## Phrases -/

/-- An operation has a value where both operands have one. -/
theorem evalExpr_binary {op : BinaryOp} {left right : Expr} {l r : V} (hl : evalExpr I env left = some l)
    (hr : evalExpr I env right = some r) : evalExpr I env (.binary op left right) = some (I.binary op l r) := by
  have hphrase : isFragment left = false := by
    rw [← Bool.not_eq_true]
    intro h
    rw [evalExpr_eq_none_of_isFragment h] at hl
    cases hl
  rw [evalExpr, hphrase, hl, hr]
  simp

/-- A call means the function of its name, over the values of its arguments. -/
theorem evalExpr_call {name : String} {arguments : List Expr} {values : List V} (hn : name ≠ "texelFetch")
    (h : evalExprs I env arguments = some values) :
    evalExpr I env (.call name arguments) = applyNamed? I name values := by
  have hphrase : (arguments.length == 1 && arguments.all isFragment) = false := by
    rw [← Bool.not_eq_true, Bool.and_eq_true, beq_iff_eq]
    rintro ⟨hlen, hall⟩
    obtain ⟨e, rfl⟩ := List.length_eq_one_iff.1 hlen
    have he : isFragment e = true := by simpa using hall
    rw [evalExprs, evalExpr_eq_none_of_isFragment he] at h
    cases h
  rw [evalExpr, Bool.and_assoc, hphrase, h]
  · simp
  · exact hn

theorem evalExpr_index : evalExpr I env .index = some (I.call .index []) := by
  simp [Expr.index, evalExpr, isFragment]

theorem evalExpr_normalizedIndex : evalExpr I env .normalizedIndex = some (I.call .normalizedIndex []) := by
  simp [Expr.normalizedIndex, evalExpr, isFragment, isExtent]

/-- A lane of a variable means the lane of its value. -/
theorem evalExpr_lane (target : Glsl.Variable) (lane : Lane) :
    evalExpr I env (.field (.var target) lane.accessor) = (env.lookup target.spelling).map (I.lane lane) := by
  cases lane <;> simp [evalExpr, Lane.accessor, laneNamed?, Option.map_eq_bind]

/-- A fetched texel is cut to the lanes of its type. -/
theorem evalExpr_texel {type : ValueType} (h : type.isNameable = true) (arguments : List Expr) :
    evalExpr I env (.texel type (.call "texelFetch" arguments)) = evalFetch I env type.lanes arguments := by
  have hall : ∀ type ∈ ValueType.nameable, type.lanes = 1 ∨ type.lanes = 2 ∨ type.lanes = 3 ∨ type.lanes = 4 := by decide
  unfold Expr.texel Glsl.texelLanes?
  rcases hall type (ValueType.mem_nameable h) with hl | hl | hl | hl <;> rw [hl] <;> simp [evalExpr]

/-- The name of a type that is no buffer means a conversion to that type. -/
theorem applyNamed?_convert {type : ValueType} {name : String} (h : type.isNameable = true) (hb : type.isBuffer = false)
    (hn : Glsl.typeName? type = some name) (values : List V) :
    name ≠ "texelFetch" ∧ applyNamed? I name values = some (I.convert type values) := by
  have hall : ∀ type ∈ ValueType.nameable, type.isBuffer = false →
      ∀ name ∈ Glsl.typeName? type, name ≠ "texelFetch" ∧ typeNamed? name = some type := by decide
  obtain ⟨hname, htype⟩ := hall type (ValueType.mem_nameable h) hb name hn
  refine ⟨hname, ?_⟩
  rw [applyNamed?, htype]

/-- The functions of the language are told apart by their names. -/
theorem evalExpr_builtin (builtin : Builtin) {arguments : List Expr} {values : List V} (ha : arguments.length = builtin.arity)
    (h : evalExprs I env arguments = some values) :
    evalExpr I env (.builtin builtin arguments) = some (I.call builtin values) := by
  have named : ∀ {name : String}, name ≠ "texelFetch" → typeNamed? name = none → builtinNamed? name = some builtin →
      evalExpr I env (.call name arguments) = some (I.call builtin values) := by
    intro name hn ht hb
    rw [evalExpr_call hn h, applyNamed?, ht, hb]
    rfl
  have none_left : builtin.arity = 0 → values = [] := by
    intro h0
    rw [h0, List.length_eq_zero_iff] at ha
    subst ha
    exact (Option.some.inj h).symm
  cases builtin with
  | index => rw [none_left rfl]; exact evalExpr_index
  | normalizedIndex => rw [none_left rfl]; exact evalExpr_normalizedIndex
  | _ => exact named (by decide) (by decide) (by decide)

/-- A fetch with two indices samples with both. -/
theorem evalFetch_two {buffer x y : Expr} {b vx vy : V} (lanes : Nat) (hb : evalExpr I env buffer = some b)
    (hx : evalExpr I env x = some vx) (hy : evalExpr I env y = some vy) :
    evalFetch I env lanes [buffer, .call "ivec2" [x, y]] = some (I.sample lanes b [vx, vy]) := by
  rw [evalFetch, hb, hx, hy]
  rfl

/-- A fetch with another index than a pair samples with that one. -/
theorem evalFetch_one {buffer index : Expr} {b i : V} (lanes : Nat) (hb : evalExpr I env buffer = some b)
    (hi : evalExpr I env index = some i) (hne : ∀ x y, index ≠ .call "ivec2" [x, y]) :
    evalFetch I env lanes [buffer, index] = some (I.sample lanes b [i]) := by
  rw [evalFetch, hb, hi]
  · rfl
  · exact hne

/-! ## Recorded expressions -/

section Recorded

variable {Γ : Ledger} {term : Term}

/-- Variables, constants, lanes and coordinates have no operands. -/
theorem children_of_leaf (h : Expression Γ term) (hk : term.kind ∈ [.var, .literal, .member, .index, .normalizedIndex]) :
    term.children = [] := by
  cases h with
  | reference | constant | laneOf => rfl
  | apply operator operands _ ht =>
    have hlen := Operator.length_of_result? ht
    rw [List.length_map] at hlen
    cases operator with
    | index => exact List.eq_nil_of_length_eq_zero hlen
    | normalizedIndex => exact List.eq_nil_of_length_eq_zero hlen
    | unary op => cases op <;> simp [Term.kind, Term.head, Operator.kind, UnaryOp.kind] at hk
    | binary op => cases op <;> simp [Term.kind, Term.head, Operator.kind, BinaryOp.kind] at hk
    | _ => simp [Term.kind, Term.head, Operator.kind] at hk

/-- Nothing is converted to a buffer. -/
theorem not_buffer_of_convert (h : Expression Γ term) (hk : term.kind = .cast ∨ term.kind = .constructor) :
    term.type.isBuffer = false := by
  cases h with
  | reference | constant | laneOf => rcases hk with hk | hk <;> cases hk
  | apply operator operands _ ht => exact Operator.isBuffer_of_result? ht

/-- A buffer of one dimension is sampled at an integer. -/
theorem index_type_of_sample1d {buffer index : Term} (h : Expression Γ term) (hk : term.kind = .sample1d)
    (hc : term.children = [buffer, index]) : index.type = .int := by
  cases h with
  | reference | constant | laneOf => cases hk
  | @apply operator operands type _ ht =>
    cases operator with
    | unary op => cases op <;> cases hk
    | binary op => cases op <;> cases hk
    | sample1d =>
      obtain rfl : operands = [buffer, index] := hc
      have hsample : Typing.sample? ValueType.isBuffer1d 1 [buffer.type, index.type] = some type := ht
      obtain ⟨_, indices, htypes, -, -, -, hint, -⟩ := Typing.of_sample? hsample
      cases htypes
      exact hint index.type (by simp)
    | _ => cases hk

end Recorded

/-- No function of the language makes a vector of two indices. -/
theorem builtin_ne_pair (builtin : Builtin) (arguments : List Expr) (x y : Expr) :
    Expr.builtin builtin arguments ≠ .call "ivec2" [x, y] := by
  have named : ∀ {name : String}, name ≠ "ivec2" → Expr.call name arguments ≠ .call "ivec2" [x, y] :=
    fun hn he => hn (Expr.call.inj he).1
  cases builtin with
  | index | normalizedIndex => rintro ⟨⟩
  | _ => exact named (by decide)

/-- An integer expression is not written as a vector of two indices. -/
theorem ne_pair_of_int {scope : Scope} {tree : Tree} {expr : Expr} (h : expression scope tree = .ok expr)
    (ht : tree.type = .int) (x y : Expr) : expr ≠ .call "ivec2" [x, y] := by
  cases Glsl.rendered_of_expression h with
  | var | literal | member | index | normalizedIndex | unary | binary => rintro ⟨⟩
  | convert hk hn =>
    rw [ht] at hn
    cases hn
    exact fun he => absurd (Expr.call.inj he).1 (by decide)
  | call => exact builtin_ne_pair _ _ x y
  | sample1d | sample2d =>
    unfold Expr.texel
    split
    · rintro ⟨⟩
    · exact fun he => absurd (Expr.call.inj he).1 (by decide)

/-! ## Values -/

section Values

variable {Γ : Ledger} {scope : Scope}

/-- The variables that a scope sees hold what the cells hold. -/
def HoldsCells (scope : Scope) (store : Store V) (env : Env V) : Prop :=
  ∀ symbol, scope.isVisible symbol = true → env.lookup (scope.variableOf symbol).spelling = some (store symbol)

/-- A row of expressions has the values of its trees if each expression has the value of its tree. -/
theorem exists_values {trees : List Tree} {exprs : List Expr} (h : trees.mapM (expression scope) = .ok exprs)
    (ih : ∀ tree ∈ trees, ∀ expr, expression scope tree = .ok expr →
      ∃ value, evalTree I store tree = some value ∧ evalExpr I env expr = some value) :
    ∃ values, evalTrees I store trees = some values ∧ evalExprs I env exprs = some values := by
  induction trees generalizing exprs with
  | nil =>
    cases h
    exact ⟨[], rfl, rfl⟩
  | cons tree trees ihl =>
    obtain ⟨expr, rest, hexpr, hrest, rfl⟩ := mapM_cons_eq_ok_iff.1 h
    obtain ⟨value, hv, hv'⟩ := ih tree List.mem_cons_self expr hexpr
    obtain ⟨values, hvs, hvs'⟩ := ihl hrest fun other hm => ih other (List.mem_cons_of_mem _ hm)
    exact ⟨value :: values, by rw [evalTrees, hv, hvs]; rfl, by rw [evalExprs, hv', hvs']; rfl⟩

/-- A constant means its literal. -/
theorem evalTree_constant {tree : Tree} {value : Literal} (h : Expression Γ tree.term)
    (hl : tree.head.literal? = some value) : evalTree I store tree = some (I.literal value) := by
  generalize hterm : tree.term = term at h
  cases h with
  | reference | laneOf | apply =>
    rw [(Glsl.head_and_children_of_term hterm).1] at hl
    cases hl
  | constant =>
    obtain ⟨hhead, hc⟩ := Glsl.head_and_children_of_term hterm
    rw [evalTree_eq (by rw [List.map_eq_nil_iff.1 hc]; rfl)]
    simp only [valueOf, Tree.kind, hhead, Head.ofLiteral]
    rw [hhead] at hl
    cases hl
    rfl

/-- A recorded expression and what is written for it have the same value. -/
theorem eval_expression (henv : HoldsCells scope store env) (tree : Tree) {expr : Expr} (h : expression scope tree = .ok expr)
    (hr : Expression Γ tree.term) : ∃ value, evalTree I store tree = some value ∧ evalExpr I env expr = some value := by
  have rendered := Glsl.rendered_of_expression h
  have below : ∀ child ∈ tree.children, ∀ e, expression scope child = .ok e →
      ∃ value, evalTree I store child = some value ∧ evalExpr I env e = some value := by
    intro child hm e he
    have hlt : child.size < tree.size := Tree.size_lt_of_mem_children hm
    refine eval_expression henv child he (hr.children child.term ?_)
    rw [Tree.term_children]
    exact List.mem_map_of_mem hm
  have leaf : tree.kind ∈ [.var, .literal, .member, .index, .normalizedIndex] →
      evalTree I store tree = valueOf I store tree [] := by
    intro hk
    have hc := children_of_leaf hr (by rwa [Tree.term_kind])
    rw [Tree.term_children, List.map_eq_nil_iff] at hc
    exact evalTree_eq (by rw [hc]; rfl)
  have hnameable : tree.type.isNameable = true := by
    rw [← tree.term_type]
    exact hr.isNameable
  cases rendered with
  | var hk hs hv =>
    refine ⟨_, ?_, by rw [evalExpr, henv _ hv]⟩
    rw [leaf (by simp [hk])]
    simp only [valueOf, hk, hs, Option.map_some]
  | literal hk hl =>
    refine ⟨_, ?_, by rw [evalExpr]⟩
    rw [leaf (by simp [hk])]
    simp only [valueOf, hk, hl, Option.map_some]
  | member hk hp hv =>
    refine ⟨_, ?_, by rw [evalExpr_lane, henv _ hv, Option.map_some]⟩
    rw [leaf (by simp [hk])]
    simp only [valueOf, hk, hp]
  | index hk =>
    refine ⟨_, ?_, evalExpr_index⟩
    rw [leaf (by simp [hk])]
    simp only [valueOf, hk]
  | normalizedIndex hk =>
    refine ⟨_, ?_, evalExpr_normalizedIndex⟩
    rw [leaf (by simp [hk])]
    simp only [valueOf, hk]
  | unary op hk hc he =>
    obtain ⟨value, hv, hv'⟩ := below _ (by simp [hc]) _ he
    refine ⟨I.unary op value, ?_, by rw [evalExpr, hv', Option.map_some]⟩
    rw [evalTree_eq (by rw [hc, evalTrees, hv]; rfl), valueOf_unary op hk]
  | binary op hk hc hl hr =>
    obtain ⟨l, hvl, hvl'⟩ := below _ (by simp [hc]) _ hl
    obtain ⟨r, hvr, hvr'⟩ := below _ (by simp [hc]) _ hr
    refine ⟨I.binary op l r, ?_, evalExpr_binary hvl' hvr'⟩
    rw [evalTree_eq (by rw [hc, evalTrees, hvl, evalTrees, hvr]; rfl), valueOf_binary op hk]
  | convert hk hn hc he =>
    obtain ⟨values, hvs, hvs'⟩ := exists_values he below
    have hbuffer : tree.type.isBuffer = false := by
      rw [← tree.term_type]
      exact not_buffer_of_convert hr (by rwa [Tree.term_kind])
    obtain ⟨hne, happly⟩ := @applyNamed?_convert V I _ _ hnameable hbuffer hn values
    refine ⟨I.convert tree.type values, ?_, by rw [evalExpr_call hne hvs', happly]⟩
    rw [evalTree_eq hvs, valueOf_convert hk]
  | @call first _ builtin arguments _ hk hc hl hb ha he =>
    obtain ⟨values, hvs, hvs'⟩ := exists_values he fun argument hm => below argument (by simp [hc, hm])
    have hfirst : Expression Γ first.term := by
      refine hr.children first.term ?_
      rw [Tree.term_children, hc]
      exact List.mem_cons_self
    refine ⟨I.call builtin values, ?_, evalExpr_builtin builtin (by rw [length_of_mapM he, ha]) hvs'⟩
    rw [evalTree_eq (by rw [hc, evalTrees, evalTree_constant hfirst hl, hvs]; rfl)]
    simp only [valueOf, hk, Tree.builtinCall_eq_ok_iff.2 ⟨_, _, hc, hl, hb⟩]
    rfl
  | sample1d hk hc _ _ hb hi =>
    obtain ⟨b, hvb, hvb'⟩ := below _ (by simp [hc]) _ hb
    obtain ⟨i, hvi, hvi'⟩ := below _ (by simp [hc]) _ hi
    have hint := index_type_of_sample1d hr (by rw [Tree.term_kind, hk]) (by rw [Tree.term_children, hc]; rfl)
    rw [Tree.term_type] at hint
    refine ⟨I.sample tree.type.lanes b [i], ?_, ?_⟩
    · rw [evalTree_eq (by rw [hc, evalTrees, hvb, evalTrees, hvi]; rfl)]
      simp only [valueOf, hk]
    · rw [evalExpr_texel hnameable, evalFetch_one _ hvb' hvi' (ne_pair_of_int hi hint)]
  | sample2d hk hc _ _ hb hx hy =>
    obtain ⟨b, hvb, hvb'⟩ := below _ (by simp [hc]) _ hb
    obtain ⟨x, hvx, hvx'⟩ := below _ (by simp [hc]) _ hx
    obtain ⟨y, hvy, hvy'⟩ := below _ (by simp [hc]) _ hy
    refine ⟨I.sample tree.type.lanes b [x, y], ?_, ?_⟩
    · rw [evalTree_eq (by rw [hc, evalTrees, hvb, evalTrees, hvx, evalTrees, hvy]; rfl)]
      simp only [valueOf, hk]
    · rw [evalExpr_texel hnameable, evalFetch_two _ hvb' hvx' hvy']
termination_by tree.size

end Values

end ShaderTrace.Execution
