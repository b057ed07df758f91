import Mathlib.Data.List.Perm.Basic
import ShaderTrace.Compile
import ShaderTrace.Proofs.Generator.Acceptance
import ShaderTrace.Proofs.Recording.Program
import ShaderTrace.Proofs.Recording.Script

/-!
# Why a recording has no shader

Whatever is recorded has the shape that the generator wants, so only three reasons against a shader are left: there is no main
section, two names have the same spelling, or a symbol is read where it is not visible. The main statement is
`generate_of_finished`.
-/

namespace ShaderTrace.Glsl

open Recording (Ledger Gives Expression Target Item Fitting Header)

/-- The computation fails only for a symbol that is not visible. -/
def OnlyUndeclared {α : Type} : Except GenerateError α → Prop :=
  Yields anyAnswer fun e => ∃ node symbol, e = .undeclaredSymbol node symbol

namespace OnlyUndeclared

variable {α β : Type}

/-- A result is no failure. -/
theorem ok (a : α) : OnlyUndeclared (.ok a) := trivial

/-- There is a result, or a symbol that is not visible. -/
theorem ok_or_undeclared {x : Except GenerateError α} (h : OnlyUndeclared x) :
    (∃ a, x = .ok a) ∨ ∃ node symbol, x = .error (.undeclaredSymbol node symbol) := by
  cases x with
  | ok a => exact .inl ⟨a, rfl⟩
  | error e =>
    obtain ⟨node, symbol, rfl⟩ := h
    exact .inr ⟨node, symbol, rfl⟩

/-- A chain of computations, where the second one may rely on the result of the first. -/
theorem bind {x : Except GenerateError α} {f : α → Except GenerateError β} (h : OnlyUndeclared x)
    (hf : ∀ a, x = .ok a → OnlyUndeclared (f a)) : OnlyUndeclared (x >>= f) :=
  Yields.bind h fun a ha _ => hf a ha

/-- A row of computations. -/
theorem mapM {f : α → Except GenerateError β} {as : List α} (h : ∀ a ∈ as, OnlyUndeclared (f a)) :
    OnlyUndeclared (as.mapM f) :=
  (Yields.mapM h).mono (fun _ _ => trivial) fun _ => id

/-- The symbol that a scope does not see is the only reason why it is not resolved. -/
theorem resolve (scope : Scope) (node : NodeId) (symbol : SymbolId) : OnlyUndeclared (scope.resolve node symbol) := by
  unfold Scope.resolve
  split
  · exact ok _
  · exact ⟨node, symbol, rfl⟩

end OnlyUndeclared

/-! ## Expressions -/

/-- A node whose shape is right fails only where its operands do. -/
theorem onlyUndeclared_of_operands {scope : Scope} {tree : Tree} (operands : List Tree) (hops : tree.operands = .ok operands)
    (h : ∀ operand ∈ operands, OnlyUndeclared (expression scope operand))
    (hr : ∀ exprs : List Expr, exprs.length = operands.length → ∃ expr, render scope tree exprs = .ok expr) :
    OnlyUndeclared (expression scope tree) := by
  rw [expression_eq, hops]
  refine (OnlyUndeclared.mapM h).bind fun exprs hexprs => ?_
  obtain ⟨expr, hexpr⟩ := hr exprs (length_of_mapM hexprs)
  rw [hexpr]
  exact OnlyUndeclared.ok expr

/-- An expression that is valid where everything is visible. -/
theorem onlyUndeclared_expression {term : Term} (h : ValidExpression Set.univ term) (scope : Scope) :
    ∀ tree : Tree, tree.term = term → OnlyUndeclared (expression scope tree) := by
  have all : ∀ {trees : List Tree} {terms : List Term}, trees.map Tree.term = terms →
      (∀ term ∈ terms, ∀ tree : Tree, tree.term = term → OnlyUndeclared (expression scope tree)) →
      ∀ tree ∈ trees, OnlyUndeclared (expression scope tree) := by
    rintro trees _ rfl hterms tree hm
    exact hterms tree.term (List.mem_map_of_mem hm) tree rfl
  induction h with
  | var hk hs _ =>
    intro tree ht
    obtain ⟨rfl, -⟩ := head_and_children_of_term ht
    rw [expression_var hk, symbolOf_eq_ok_iff.2 hs]
    exact (OnlyUndeclared.resolve _ _ _).bind fun v _ => OnlyUndeclared.ok _
  | literal hk hl =>
    intro tree ht
    obtain ⟨rfl, -⟩ := head_and_children_of_term ht
    rw [expression_of_rendered (.literal hk hl)]
    exact OnlyUndeclared.ok _
  | member hk hp _ =>
    intro tree ht
    obtain ⟨rfl, -⟩ := head_and_children_of_term ht
    rw [expression_member hk, hp]
    exact (OnlyUndeclared.resolve _ _ _).bind fun v _ => OnlyUndeclared.ok _
  | coordinate hk =>
    intro tree ht
    obtain ⟨rfl, -⟩ := head_and_children_of_term ht
    rcases hk with hk | hk
    · rw [expression_index hk]
      exact OnlyUndeclared.ok _
    · rw [expression_normalizedIndex hk]
      exact OnlyUndeclared.ok _
  | unary op hk _ ih =>
    intro tree ht
    obtain ⟨rfl, hc⟩ := head_and_children_of_term ht
    obtain ⟨operand, hc, hoperand⟩ := List.map_eq_singleton_iff.1 hc
    refine onlyUndeclared_of_operands [operand] ?_ ?_ ?_
    · rw [operands_unary op hk]
      exact Tree.childrenExactly_eq_ok_iff.2 ⟨by rw [hc]; rfl, hc.symm⟩
    · simpa using ih operand hoperand
    · intro exprs hlen
      obtain ⟨expr, rfl⟩ := List.length_eq_one_iff.1 hlen
      exact ⟨_, render_unary op hk expr⟩
  | binary op hk _ _ ihl ihr =>
    intro tree ht
    obtain ⟨rfl, hc⟩ := head_and_children_of_term ht
    obtain ⟨left, rest, hc, hleft, hrest⟩ := List.map_eq_cons_iff.1 hc
    obtain ⟨right, rfl, hright⟩ := List.map_eq_singleton_iff.1 hrest
    refine onlyUndeclared_of_operands [left, right] ?_ ?_ ?_
    · rw [operands_binary op hk]
      exact Tree.childrenExactly_eq_ok_iff.2 ⟨by rw [hc]; rfl, hc.symm⟩
    · simpa using ⟨ihl left hleft, ihr right hright⟩
    · intro exprs hlen
      obtain ⟨l, r, rfl⟩ := List.length_eq_two.1 hlen
      exact ⟨_, render_binary op hk l r⟩
  | convert hk htype hne _ ih =>
    intro tree ht
    obtain ⟨rfl, hc⟩ := head_and_children_of_term ht
    obtain ⟨name, hname⟩ : ∃ name, typeName? tree.type = some name := Option.isSome_iff_exists.1 htype
    have hne' : tree.children ≠ [] := fun hnil => hne (by rw [← hc, hnil]; rfl)
    refine onlyUndeclared_of_operands tree.children ?_ (all hc ih) ?_
    · rw [operands_convert hk, spell_eq_ok_iff.2 hname]
      exact if_neg (by simpa using hne')
    · intro exprs hlen
      have hexprs : exprs ≠ [] := by
        rintro rfl
        exact hne' (List.eq_nil_of_length_eq_zero hlen.symm)
      rw [render_convert hk hexprs, spell_eq_ok_iff.2 hname]
      exact ⟨_, rfl⟩
  | call hk hl hb ha _ ih =>
    intro tree ht
    obtain ⟨rfl, hc⟩ := head_and_children_of_term ht
    obtain ⟨first, arguments, hchildren, rfl, hrest⟩ := List.map_eq_cons_iff.1 hc
    rw [Tree.term_head] at hl
    rw [← hrest, List.length_map] at ha
    have hcall := Tree.builtinCall_eq_ok_iff.2 ⟨_, _, hchildren, hl, hb⟩
    refine onlyUndeclared_of_operands arguments ?_ (all hrest ih) ?_
    · rw [operands_function hk, hcall]
      exact if_pos ha
    · intro exprs _
      rw [render_function hk, hcall]
      exact ⟨_, rfl⟩
  | sample hk hb htype _ _ ihb ih =>
    intro tree ht
    obtain ⟨rfl, hc⟩ := head_and_children_of_term ht
    obtain ⟨buffer, indices, hchildren, rfl, hrest⟩ := List.map_eq_cons_iff.1 hc
    rw [Tree.term_kind] at hb
    rw [Tree.term_type] at htype
    rw [← hrest, List.length_map] at hk
    have hoperands : ∀ operand ∈ tree.children, OnlyUndeclared (expression scope operand) := by
      rw [hchildren, List.forall_mem_cons]
      exact ⟨ihb buffer rfl, all hrest ih⟩
    refine onlyUndeclared_of_operands tree.children ?_ hoperands ?_
    · unfold Tree.operands
      rcases hk with ⟨hk, hlen⟩ | ⟨hk, hlen⟩ <;> rw [show tree.kind = _ from hk] <;>
        exact Tree.sampleOperands_eq_ok_iff.2 ⟨rfl, by rw [hchildren, List.length_cons, hlen], _, _, hchildren, hb, htype⟩
    · intro exprs hlen
      rw [hchildren, List.length_cons] at hlen
      rcases hk with ⟨hk, hindices⟩ | ⟨hk, hindices⟩
      · obtain ⟨b, i, rfl⟩ := List.length_eq_two.1 (hlen.trans (by rw [hindices]))
        exact ⟨_, by unfold render; rw [show tree.kind = _ from hk]⟩
      · obtain ⟨b, x, y, rfl⟩ := List.length_eq_three.1 (hlen.trans (by rw [hindices]))
        exact ⟨_, by unfold render; rw [show tree.kind = _ from hk]⟩

/-- A built-in function is found by its number. -/
theorem ofId?_id (builtin : Builtin) : Builtin.ofId? builtin.id = some builtin := by
  cases builtin <;> rfl

/-- What has one or two dimensions is a buffer. -/
theorem isBuffer_of_dimension {type : ValueType} (h : type.isNameable = true)
    (hb : type.isBuffer1d = true ∨ type.isBuffer2d = true) : type.isBuffer = true := by
  have hall : ∀ type ∈ ValueType.nameable, type.isBuffer1d = true ∨ type.isBuffer2d = true → type.isBuffer = true := by
    decide
  exact hall type (ValueType.mem_nameable h) hb

/-- What is sampled is a buffer, with as many indices as it has dimensions. -/
theorem valid_sample {Γ : Ledger} {isBuffer : ValueType → Bool} {count : Nat} {operands : List Term} {type : ValueType}
    (hb : ∀ type : ValueType, isBuffer type = true → type.isBuffer1d = true ∨ type.isBuffer2d = true)
    (ht : Typing.sample? isBuffer count (operands.map Term.type) = some type)
    (hs : ∃ symbol type indices, operands = Recording.reference type symbol :: indices ∧ Gives Γ symbol type true ∧
      ∀ index, Recording.constant (.int index) ∈ indices → ¬index < 0) :
    ∃ buffer indices, operands = buffer :: indices ∧ buffer.kind = .var ∧ buffer.type.isBuffer = true ∧
      indices.length = count := by
  obtain ⟨symbol, bufferType, indices, rfl, hg, -⟩ := hs
  obtain ⟨buffer, rest, heq, -, hbuffer, hlen, -⟩ := Typing.of_sample? ht
  rw [List.map_cons] at heq
  obtain ⟨rfl, rfl⟩ := List.cons.inj heq
  rw [List.length_map] at hlen
  exact ⟨_, indices, rfl, rfl, isBuffer_of_dimension hg.isNameable (hb _ hbuffer), hlen⟩

/-- A recorded expression is valid where everything is visible. -/
theorem valid_of_recorded {Γ : Ledger} {term : Term} (h : Expression Γ term) : ValidExpression Set.univ term := by
  induction h with
  | reference => exact .var rfl rfl (Set.mem_univ _)
  | constant => exact .literal rfl rfl
  | laneOf => exact .member rfl rfl (Set.mem_univ _)
  | @apply operator operands type ho ht hs ih =>
    have hlen := Operator.length_of_result? ht
    rw [List.length_map] at hlen
    have hspelled : (typeName? type).isSome = true :=
      ValueType.isSome_typeName? (Expression.apply operator operands ho ht hs).isNameable
    cases operator with
    | unary op =>
      obtain ⟨operand, rfl⟩ := List.length_eq_one_iff.1 hlen
      exact .unary op rfl (ih operand (by simp))
    | binary op =>
      obtain ⟨left, right, rfl⟩ := List.length_eq_two.1 hlen
      exact .binary op rfl (ih left (by simp)) (ih right (by simp))
    | call builtin => exact .call rfl rfl (ofId?_id builtin) hlen ih
    | cast target =>
      refine .convert (.inl rfl) hspelled ?_ ih
      rintro rfl
      cases hlen
    | construct target =>
      refine .convert (.inr rfl) hspelled ?_ ih
      rintro rfl
      have hlanes := (Typing.of_construct? ht).2.2.1
      rw [show target.lanes = 0 from hlen.symm] at hlanes
      cases hlanes
    | index => exact .coordinate (.inl rfl)
    | normalizedIndex => exact .coordinate (.inr rfl)
    | sample1d =>
      obtain ⟨buffer, indices, rfl, hk, hb, hcount⟩ := valid_sample (fun _ h => .inl h) ht hs
      exact .sample (.inl ⟨rfl, hcount⟩) hk hb (ih buffer (by simp)) fun index hm => ih index (by simp [hm])
    | sample2d =>
      obtain ⟨buffer, indices, rfl, hk, hb, hcount⟩ := valid_sample (fun _ h => .inr h) ht hs
      exact .sample (.inr ⟨rfl, hcount⟩) hk hb (ih buffer (by simp)) fun index hm => ih index (by simp [hm])

/-- An expression that was recorded fails only for a symbol that is not visible. -/
theorem onlyUndeclared_recorded {Γ : Ledger} {tree : Tree} (h : Expression Γ tree.term) (scope : Scope) :
    OnlyUndeclared (expression scope tree) :=
  onlyUndeclared_expression (valid_of_recorded h) scope tree rfl

/-! ## Statements -/

/-- The inputs of the scope are inputs of the recording. -/
def InputsGiven (Γ : Ledger) (scope : Scope) : Prop := ∀ symbol ∈ scope.inputs, ∃ type, Gives Γ symbol type true

/-- What may be written is no input. -/
theorem isInput_eq_false {Γ : Ledger} {scope : Scope} (h : InputsGiven Γ scope) {symbol : SymbolId} {type : ValueType}
    (hg : Gives Γ symbol type false) : scope.isInput symbol = false := by
  rw [← not_mem_fixed_iff]
  intro hm
  obtain ⟨type', hg'⟩ := h symbol hm
  exact Bool.false_ne_true (hg.unique hg').2

/-- An assignment that was recorded fails only for a symbol that is not visible. -/
theorem onlyUndeclared_assignment {Γ : Ledger} {scope : Scope} {tree target source : Tree}
    (hc : tree.children = [target, source]) (hi : InputsGiven Γ scope) (ht : Target Γ target.term)
    (hv : Expression Γ source.term) : OnlyUndeclared (assignment scope tree) := by
  unfold assignment
  rw [hc]
  refine (onlyUndeclared_recorded hv scope).bind fun value _ => ?_
  generalize hterm : target.term = term at ht
  cases ht with
  | @reference symbol type hg =>
    obtain ⟨hhead, -⟩ := head_and_children_of_term hterm
    obtain ⟨name, hname⟩ : ∃ name, typeName? target.type = some name := by
      rw [Tree.type, hhead]
      exact Option.isSome_iff_exists.1 (ValueType.isSome_typeName? hg.isNameable)
    simp only [Tree.kind, hhead, Head.ofSymbol, isInput_eq_false hi hg, Bool.false_eq_true, if_false]
    split
    · exact OnlyUndeclared.ok _
    · rw [spell_eq_ok_iff.2 hname]
      exact OnlyUndeclared.ok _
  | @laneOf owner ownerType type lane hg hl =>
    obtain ⟨hhead, -⟩ := head_and_children_of_term hterm
    obtain ⟨name, hname⟩ := Option.isSome_iff_exists.1 (ValueType.isSome_typeName? hg.isNameable)
    simp only [Tree.kind, hhead, Head.ofMember, isInput_eq_false hi hg, Bool.false_eq_true, if_false]
    split
    · exact OnlyUndeclared.ok _
    · rw [spell_eq_ok_iff.2 hname]
      exact OnlyUndeclared.ok _

/-- No statement changes which symbols are inputs. -/
theorem inputs_of_generated {scope scope' : Scope} {tree : Tree} {stmts : List Stmt}
    (h : Generated scope tree stmts scope') : scope'.inputs = scope.inputs := by
  cases h <;> rfl

/-- Where a node may be recorded it may be generated. -/
theorem follows_of_fits {parent kind : NodeKind} {before : List NodeKind} (h : Recording.fits parent before kind = true) :
    Follows before.getLast? kind := by
  intro hk
  have hany : before.getLast?.any (·.isConditional) = true := by
    rcases hk with rfl | rfl <;> exact (Bool.and_eq_true_iff.1 h).2
  exact (Option.any_eq_true ..).1 hany

/-- The blocks of a recording that are statements, with the kinds of their headers. -/
theorem onlyUndeclared_block {Γ : Ledger} {scope : Scope} {tree : Tree} {head : Head} {header body : List Term}
    (hh : Header Γ head header) (hs : Recording.isStatement head.kind = true) (hhead : tree.head = head)
    (hc : tree.children.map Tree.term = header ++ body)
    (hb : ∀ (trees : List Tree) (inner : Scope), trees.Sublist tree.children → trees.map Tree.term = body →
      inner.inputs = scope.inputs → OnlyUndeclared (statements inner none trees)) :
    OnlyUndeclared (statement scope tree) := by
  cases hh with
  | @plain kind hk =>
    have hbody := fun inner => hb tree.children inner (List.Sublist.refl _) hc
    have hkind : kind = .block ∨ kind = .elseBranch := by
      simp only [List.mem_cons, List.not_mem_nil, or_false] at hk
      rcases hk with rfl | rfl | rfl | rfl | rfl | rfl
      · cases hs
      · cases hs
      · cases hs
      · cases hs
      · exact .inl rfl
      · exact .inr rfl
    rcases hkind with rfl | rfl
    · rw [statement_block (by rw [Tree.kind, hhead])]
      exact (hbody scope rfl).bind fun _ _ => OnlyUndeclared.ok _
    · rw [statement_otherwise (by rw [Tree.kind, hhead])]
      exact (hbody scope rfl).bind fun _ _ => OnlyUndeclared.ok _
  | @condition kind _ hk hcond _ =>
    obtain ⟨first, rest, hchildren, rfl, hrest⟩ := List.map_eq_cons_iff.1 hc
    obtain ⟨keyword, rfl⟩ : ∃ keyword : Keyword, kind = keyword.kind := by
      simp only [List.mem_cons, List.not_mem_nil, or_false] at hk
      rcases hk with rfl | rfl | rfl
      · exact ⟨.if, rfl⟩
      · exact ⟨.elseIf, rfl⟩
      · exact ⟨.while, rfl⟩
    rw [statement_guarded keyword (by rw [Tree.kind, hhead]) hchildren]
    refine (onlyUndeclared_recorded hcond scope).bind fun _ _ => ?_
    refine (hb rest scope ?_ hrest rfl).bind fun _ _ => OnlyUndeclared.ok _
    rw [hchildren]
    exact List.sublist_cons_self _ _
  | @count symbol _ _ _ _ hstart _ hstop _ =>
    obtain ⟨first, later, hchildren, rfl, hlater⟩ := List.map_eq_cons_iff.1 hc
    obtain ⟨second, rest, rfl, rfl, hrest⟩ := List.map_eq_cons_iff.1 hlater
    rw [statement_count (by rw [Tree.kind, hhead]; rfl) hchildren,
      symbolOf_eq_ok_iff.2 (show tree.head.symbol? = some symbol by rw [hhead]; rfl)]
    refine (onlyUndeclared_recorded hstart scope).bind fun _ _ => ?_
    refine (onlyUndeclared_recorded hstop scope).bind fun _ _ => ?_
    refine (hb rest (scope.declare symbol) ?_ hrest rfl).bind fun _ _ => OnlyUndeclared.ok _
    rw [hchildren]
    exact List.sublist_append_right [first, second] rest

/-- The statements of a recorded block. -/
theorem onlyUndeclared_statements {Γ : Ledger} {parent : NodeKind} (hp : parent.acceptsStatements = true)
    (trees : List Tree) (scope : Scope) (before : List NodeKind) (hi : InputsGiven Γ scope)
    (h : ∀ tree ∈ trees, Item Γ tree.term) (hf : Fitting parent before (trees.map Tree.kind)) :
    OnlyUndeclared (statements scope before.getLast? trees) := by
  cases trees with
  | nil => exact OnlyUndeclared.ok []
  | cons tree rest =>
    have hrest := tree.sizeAll_lt_cons rest
    have hfirst : OnlyUndeclared (statement scope tree) := by
      have hitem := h tree List.mem_cons_self
      have hs := Recording.isStatement_of_fits hp hf.1
      generalize hterm : tree.term = term at hitem
      cases hitem with
      | input | output =>
        rw [Tree.kind, (head_and_children_of_term hterm).1] at hs
        cases hs
      | assign ht hv _ =>
        obtain ⟨hhead, hc⟩ := head_and_children_of_term hterm
        obtain ⟨target, rest, hchildren, rfl, hrest⟩ := List.map_eq_cons_iff.1 hc
        obtain ⟨source, rfl, rfl⟩ := List.map_eq_singleton_iff.1 hrest
        rw [statement_assignment (by rw [Tree.kind, hhead])]
        exact onlyUndeclared_assignment hchildren hi ht hv
      | @block head header body hh hb hfit =>
        obtain ⟨hhead, hc⟩ := head_and_children_of_term hterm
        rw [Tree.kind, hhead] at hs
        refine onlyUndeclared_block hh hs hhead hc ?_
        rintro trees inner hsub rfl hinner
        have hlt := Tree.sizeAll_lt_of_sublist hsub rest
        have haccepts := Recording.acceptsStatements_of_isStatement hs hh.shape.2
        refine @onlyUndeclared_statements Γ head.kind haccepts trees inner [] ?_ ?_ ?_
        · intro symbol hm
          exact hi symbol (hinner ▸ hm)
        · exact fun tree hm => hb tree.term (List.mem_map_of_mem hm)
        · rwa [List.map_map, show Term.kind ∘ Tree.term = Tree.kind from funext Tree.term_kind] at hfit
    rw [statements]
    refine OnlyUndeclared.bind ?_ fun _ _ => ?_
    · rw [checkFollows_eq_ok_iff.2 (follows_of_fits hf.1)]
      exact OnlyUndeclared.ok ()
    refine hfirst.bind ?_
    rintro ⟨stmts, scope'⟩ hstmts
    have hinputs := inputs_of_generated (statement_eq_ok_iff.1 hstmts)
    refine OnlyUndeclared.bind ?_ fun _ _ => OnlyUndeclared.ok _
    have hlast : (before ++ [tree.kind]).getLast? = some tree.kind := by simp
    rw [← hlast]
    refine @onlyUndeclared_statements Γ parent hp rest scope' (before ++ [tree.kind]) ?_ ?_ hf.2
    · intro symbol hm
      exact hi symbol (hinputs ▸ hm)
    · exact fun other hm => h other (List.mem_cons_of_mem _ hm)
termination_by Tree.sizeAll trees

/-! ## Programs -/

/-- What was recorded as an input is declared as one. -/
theorem declaresInput_of_recorded {Γ : Ledger} {term : Term} (h : Recording.IsInput Γ term) : DeclaresInput term := by
  obtain ⟨symbol, type, name, rfl, hg⟩ := h
  exact ⟨rfl, rfl, rfl, ValueType.isSome_typeName? hg.isNameable⟩

/-- What was recorded as an output is declared as one. -/
theorem declaresOutput_of_recorded {Γ : Ledger} {term : Term} (h : Recording.IsOutput Γ term) : DeclaresOutput term := by
  obtain ⟨symbol, type, name, rfl, hg, hn⟩ := h
  have hall : ∀ type ∈ ValueType.nameable, type.isNumeric = true → type.isBuffer = false ∧ type ≠ .bool := by decide
  obtain ⟨hbuffer, hbool⟩ := hall type (ValueType.mem_nameable hg.isNameable) hn
  exact ⟨rfl, rfl, rfl, ValueType.isSome_typeName? hg.isNameable, hbuffer, hbool⟩

/-- The declarations of a program, whatever the order of its sections. -/
theorem declared_perm (root : Term) : (declared root).Perm (Recording.declarationsOf root) := by
  unfold declared below Recording.declarationsOf
  induction root.children with
  | nil => exact List.Perm.refl _
  | cons child children ih =>
    by_cases hin : child.kind = .constData
    · simpa [List.filter_cons, hin] using ih.append_left child.children
    · by_cases hout : child.kind = .outData
      · simp only [List.filter_cons, hout, List.flatMap_cons, beq_self_eq_true, Bool.or_true, if_true]
        exact (List.perm_append_comm_assoc _ _ _).trans (ih.append_left child.children)
      · simpa [List.filter_cons, hin, hout] using ih

/-- The children of the section of a kind, which is recorded. -/
theorem recorded_childrenOf {Γ : Ledger} {root : Tree} (h : Item Γ root.term) (hk : root.kind = .program) {kind : NodeKind}
    {tree : Tree} (hm : tree ∈ childrenOf (firstOf kind root.children)) :
    ∃ parent : Term, Item Γ parent ∧ parent.kind = kind ∧ tree.term ∈ parent.children := by
  unfold childrenOf at hm
  cases hfirst : firstOf kind root.children with
  | none =>
    rw [hfirst] at hm
    cases hm
  | some parent =>
    rw [hfirst] at hm
    have hparent : parent ∈ root.children := List.mem_of_find?_eq_some hfirst
    have hkind : parent.kind = kind := by simpa using List.find?_some hfirst
    refine ⟨parent.term, ?_, by rw [Tree.term_kind, hkind], ?_⟩
    · have hall := (h.sections (by rw [Tree.term_kind, hk])).1
      rw [Tree.term_children, List.forall_mem_map] at hall
      exact (hall parent hparent).1
    · rw [Tree.term_children]
      exact List.mem_map_of_mem hm

/-- What a recorded program declares: no two of the symbols are the same, and those of the inputs were given out for inputs. -/
theorem exists_declarations {Γ : Ledger} {root : Tree} (h : Item Γ root.term) (hk : root.kind = .program)
    (hf : Recording.Fresh [] root.term.heads) (honce : (root.children.map Tree.kind).Nodup) :
    ∃ inputs outputs,
      List.Forall₂ (Declares .constVar inputSpelling) (childrenOf (firstOf .constData root.children)) inputs ∧
      List.Forall₂ (Declares .outVar outputSpelling) (childrenOf (firstOf .outData root.children)) outputs ∧
      ((declared root.term).filterMap (·.head.name)).map identFor = (inputs ++ outputs).map (·.ident) ∧
      ((inputs ++ outputs).map (·.symbol)).Nodup ∧ ∀ symbol ∈ inputs.map (·.symbol), ∃ type, Gives Γ symbol type true := by
  have hkterm : root.term.kind = .program := by rw [Tree.term_kind, hk]
  obtain ⟨inputs, hin⟩ := exists_forall₂_iff.2 fun tree hm => by
    obtain ⟨parent, hparent, hkind, hmem⟩ := @recorded_childrenOf Γ root h hk .constData tree hm
    exact exists_declares_input_iff.2 (declaresInput_of_recorded (hparent.inputs hkind _ hmem))
  obtain ⟨outputs, hout⟩ := exists_forall₂_iff.2 fun tree hm => by
    obtain ⟨parent, hparent, hkind, hmem⟩ := @recorded_childrenOf Γ root h hk .outData tree hm
    exact exists_declares_output_iff.2 (declaresOutput_of_recorded (hparent.outputs hkind _ hmem))
  obtain ⟨hsymbols, hidents⟩ := @declared_eq root ⟨false, inputs, outputs, []⟩ honce hin hout
  refine ⟨inputs, outputs, hin, hout, hidents, ?_, ?_⟩
  · rw [← hsymbols]
    exact ((declared_perm root.term).filterMap _).nodup_iff.2 (Recording.nodup_symbols h hkterm hf)
  · intro symbol hm
    rw [← filterMap_symbol_of_declares hin] at hm
    obtain ⟨term, hterm, hs⟩ := List.mem_filterMap.1 hm
    obtain ⟨tree, htree, rfl⟩ := List.mem_map.1 hterm
    obtain ⟨parent, hparent, hkind, hmem⟩ := recorded_childrenOf h hk htree
    obtain ⟨symbol', type, name, heq, hg⟩ := hparent.inputs hkind _ hmem
    rw [heq] at hs
    cases hs
    exact ⟨type, hg⟩

/-- Without a main section there is no shader. -/
theorem shaderOf_of_missing {root : Tree} {sections : Sections} (h : sectionsOf root = .ok sections)
    (hm : sections.main = none) : shaderOf root = .error .missingMain := by
  unfold shaderOf
  rw [h]
  simp only [Bind.bind, Except.bind, hm]
  rfl

/-- With a main section the declarations are gone through first, and then the statements. -/
theorem shaderOf_of_found {root main : Tree} {sections : Sections} (h : sectionsOf root = .ok sections)
    (hm : sections.main = some main) : shaderOf root =
      declarations .constVar .inputDeclaration inputSpelling [] (childrenOf sections.inputs) >>= fun inputs =>
        declarations .outVar .outputDeclaration outputSpelling (globalsOf inputs) (childrenOf sections.outputs) >>=
          fun outputs =>
            statements (Scope.outermost (globalsOf inputs ++ globalsOf outputs) (inputs.map (·.symbol))) none main.children >>=
              fun body => .ok { usesDispatchSize := main.any needsDispatchSize, inputs, outputs, body } := by
  unfold shaderOf
  rw [h]
  simp only [Bind.bind, Except.bind, hm]
  rfl

/-- What becomes of a recorded program. -/
theorem shaderOf_cases {Γ : Ledger} {root : Tree} (h : Item Γ root.term) (hk : root.kind = .program)
    (hf : Recording.Fresh [] root.term.heads) :
    (.main ∉ root.children.map Tree.kind ∧ shaderOf root = .error .missingMain) ∨
    (.main ∈ root.children.map Tree.kind ∧ ¬(((declared root.term).filterMap (·.head.name)).map identFor).Nodup ∧
      ∃ name, shaderOf root = .error (.duplicateName name)) ∨
    (.main ∈ root.children.map Tree.kind ∧ (((declared root.term).filterMap (·.head.name)).map identFor).Nodup ∧
      OnlyUndeclared (shaderOf root)) := by
  obtain ⟨hsections, honce⟩ := h.sections (by rw [Tree.term_kind, hk])
  rw [map_kind_children] at honce
  rw [Tree.term_children, List.forall_mem_map] at hsections
  have hfound : sectionsOf root = .ok (Sections.after {} root.children) := by
    refine sectionsOf_eq_ok_iff.2 ⟨hk, ?_, honce, rfl⟩
    intro tree hm
    rw [← tree.term_kind]
    exact (hsections tree hm).2
  obtain ⟨inputs, outputs, hin, hout, hidents, hsymbols, hgiven⟩ := exists_declarations h hk hf honce
  cases hmain : firstOf .main root.children with
  | none =>
    refine .inl ⟨?_, shaderOf_of_missing hfound (by simpa [Sections.after] using hmain)⟩
    rw [List.mem_map]
    rintro ⟨main, hm⟩
    rw [(firstOf_eq_some_iff honce).2 hm] at hmain
    cases hmain
  | some main =>
    obtain ⟨hmem, hkind⟩ := (firstOf_eq_some_iff honce).1 hmain
    have hthere : .main ∈ root.children.map Tree.kind := List.mem_map.2 ⟨main, hmem, hkind⟩
    rw [hidents, shaderOf_of_found hfound (by simpa [Sections.after] using hmain),
      show (Sections.after {} root.children).inputs = firstOf .constData root.children by simp [Sections.after],
      show (Sections.after {} root.children).outputs = firstOf .outData root.children by simp [Sections.after]]
    by_cases hnodup : ((inputs ++ outputs).map (·.ident)).Nodup
    · obtain ⟨hapart, hapart'⟩ := apartAll_globalsOf_iff.2 ⟨hsymbols, hnodup⟩
      obtain ⟨hitems, hfit⟩ := (hsections main hmem).1.statements (by rw [Tree.term_kind, hkind])
      rw [map_kind_children] at hfit
      rw [Tree.term_children, List.forall_mem_map] at hitems
      have hscope : InputsGiven Γ (Scope.outermost (globalsOf inputs ++ globalsOf outputs) (inputs.map (·.symbol))) := hgiven
      have hbody := onlyUndeclared_statements rfl main.children _ [] hscope hitems hfit
      rw [declarations_eq_ok_iff.2 ⟨hin, hapart⟩]
      show _ ∨ _ ∨ _ ∧ _ ∧ OnlyUndeclared (declarations _ _ _ _ _ >>= _)
      rw [declarations_eq_ok_iff.2 ⟨hout, hapart'⟩]
      exact .inr (.inr ⟨hthere, hnodup, hbody.bind fun _ _ => OnlyUndeclared.ok _⟩)
    · refine .inr (.inl ⟨hthere, hnodup, ?_⟩)
      rcases declarations_cases hin [] with hok | ⟨name, herror⟩
      · rcases declarations_cases hout (globalsOf inputs) with hok' | ⟨name, herror⟩
        · refine absurd ?_ hnodup
          exact (apartAll_globalsOf_iff.1 ⟨(declarations_eq_ok_iff.1 hok).2, (declarations_eq_ok_iff.1 hok').2⟩).2
        · rw [hok]
          show ∃ name, declarations _ _ _ _ _ >>= _ = _
          rw [herror]
          exact ⟨name, rfl⟩
      · rw [herror]
        exact ⟨name, rfl⟩

/-! ## Finished recordings -/

/-- The kind of a node. -/
def kindOf? (arena : Arena) (id : NodeId) : Option NodeKind := (arena.get? id).map (·.kind)

/-- The kinds of the sections that a recording has opened, in the order in which it opened them. -/
def openedSections (source : Source) : List NodeKind :=
  (((source.arena.get? Session.root).map (·.children)).getD []).filterMap (kindOf? source.arena)

/-- Two of the names have the same spelling. -/
def Clash (names : List String) : Prop := ∃ a ∈ names, ∃ b ∈ names, a ≠ b ∧ identFor a = identFor b

/-- The kind of a node is that of the tree that is found there. -/
theorem kind_of_unfold {arena : Arena} {bound : Nat} {id : NodeId} {tree : Tree} (h : arena.unfold bound id = .ok tree) :
    kindOf? arena id = some tree.kind := by
  cases bound with
  | zero => cases h
  | succ bound =>
    obtain ⟨node, hnode, h⟩ := bind_eq_ok_iff.1 h
    obtain ⟨children, -, h⟩ := bind_eq_ok_iff.1 h
    cases h
    rw [kindOf?, Arena.find_eq_ok_iff.1 hnode]
    rfl

/-- The kinds of nodes are those of the trees that are found there. -/
theorem filterMap_kind_of_mapM {arena : Arena} {bound : Nat} : ∀ {ids : List NodeId} {trees : List Tree},
    ids.mapM (arena.unfold bound) = .ok trees → ids.filterMap (kindOf? arena) = trees.map Tree.kind
  | [], _, h => by
    cases h
    rfl
  | id :: ids, _, h => by
    obtain ⟨first, rest, hfirst, hrest, rfl⟩ := mapM_cons_eq_ok_iff.1 h
    rw [List.filterMap_cons_some (kind_of_unfold hfirst), filterMap_kind_of_mapM hrest, List.map_cons]

/-- The sections are what stands under the program. -/
theorem openedSections_eq {source : Source} {tree : Tree} (h : source.arena.tree Session.root = .ok tree) :
    openedSections source = tree.children.map Tree.kind := by
  obtain ⟨node, hnode, h⟩ := bind_eq_ok_iff.1 h
  obtain ⟨children, hchildren, h⟩ := bind_eq_ok_iff.1 h
  cases h
  rw [openedSections, Arena.find_eq_ok_iff.1 hnode]
  exact filterMap_kind_of_mapM hchildren

/-- Different names clash exactly if two of them have the same identifier. -/
theorem clash_iff {names : List String} (h : names.Nodup) : Clash names ↔ ¬(names.map identFor).Nodup := by
  rw [List.nodup_map_iff_inj_on h]
  unfold Clash
  constructor
  · rintro ⟨a, ha, b, hb, hne, heq⟩ hinj
    exact hne (hinj a ha b hb heq)
  · intro hinj
    by_contra hno
    exact hinj fun a ha b hb heq => not_not.1 fun hne => hno ⟨a, ha, b, hb, hne, heq⟩

/-- To generate is to make a shader and to write its text. -/
theorem generate_eq_shaderOf {source : Source} {tree : Tree} (h : source.arena.tree Session.root = .ok tree)
    (config : Config) : source.generate config = shaderOf tree >>= fun shader => .ok (shader.program config) := by
  unfold Source.generate generate
  rw [h]
  rfl

/-- What succeeds gives a program. -/
theorem exists_program_of_isOk {source : Source} {config : Config} (h : (source.generate config).isOk = true) :
    ∃ program, source.generate config = .ok program := by
  cases hprogram : source.generate config with
  | error e =>
    rw [hprogram] at h
    cases h
  | ok program => exact ⟨program, rfl⟩

/-- The names of a finished recording are those that its program declares. It has no shader exactly if it has no main section, or
two of its names have the same spelling, or a symbol is not visible where it is read. -/
theorem generate_of_finished (steps : List Script.Step) (config : Config) (source : Source)
    (h : (Script.runEvery steps .start).2.session.finish = .ok source) :
    (∃ root, source.arena.tree Session.root = .ok root ∧
      (Script.runEvery steps .start).2.session.names = (Recording.declarationsOf root.term).filterMap (·.head.name)) ∧
    (source.generate config = .error .missingMain ↔ .main ∉ openedSections source) ∧
    ((∃ name, source.generate config = .error (.duplicateName name)) ↔
      .main ∈ openedSections source ∧ Clash (Script.runEvery steps .start).2.session.names) ∧
    (.main ∈ openedSections source → ¬Clash (Script.runEvery steps .start).2.session.names →
      (∃ program, source.generate config = .ok program) ∨
        ∃ node symbol, source.generate config = .error (.undeclaredSymbol node symbol)) := by
  obtain ⟨Γ, tree, htree, hitem, hkind, hfresh, hnames, hnodup⟩ := Recording.exists_recorded_of_finish h
  rw [Recording.filterMap_declared hitem (by rw [Tree.term_kind, hkind])] at hnames
  have hclash : Clash (Script.runEvery steps .start).2.session.names ↔
      ¬(((declared tree.term).filterMap (·.head.name)).map identFor).Nodup := by
    rw [clash_iff hnodup, hnames, (((declared_perm tree.term).filterMap _).map identFor).nodup_iff]
  refine ⟨⟨tree, htree, hnames⟩, ?_⟩
  rw [openedSections_eq htree, generate_eq_shaderOf htree, hclash]
  rcases shaderOf_cases hitem hkind hfresh with ⟨hmain, hshader⟩ | ⟨hmain, hidents, name, hshader⟩ | ⟨hmain, hidents, honly⟩
  · rw [hshader]
    refine ⟨iff_of_true rfl hmain, iff_of_false ?_ fun hboth => hmain hboth.1, fun hthere => absurd hthere hmain⟩
    rintro ⟨name, ⟨⟩⟩
  · rw [hshader]
    refine ⟨iff_of_false ?_ (not_not.2 hmain), iff_of_true ⟨name, rfl⟩ ⟨hmain, hidents⟩, fun _ hno => absurd hidents hno⟩
    rintro ⟨⟩
  · have hprogram : OnlyUndeclared (shaderOf tree >>= fun shader => .ok (shader.program config)) :=
      honly.bind fun shader _ => OnlyUndeclared.ok (shader.program config)
    refine ⟨iff_of_false (fun he => ?_) (not_not.2 hmain), iff_of_false ?_ fun hboth => hboth.2 hidents,
      fun _ _ => hprogram.ok_or_undeclared⟩
    · rw [he] at hprogram
      obtain ⟨_, _, ⟨⟩⟩ := hprogram
    · rintro ⟨name, he⟩
      rw [he] at hprogram
      obtain ⟨_, _, ⟨⟩⟩ := hprogram

/-- A call that is refused, then an input and an output whose names are both spelled `v1_`, and an assignment. -/
def clashingSteps : List Script.Step :=
  [.call .exit none true, .block (.enter .constData) none [.call (.input .float "v1") (some "a") false] false,
    .block (.enter .outData) none [.call (.output .float "v1_") (some "b") false] false,
    .block (.enter .main) none [.call (.assign "b" (.register "a")) none false] false]

/-- An input and an output that are both spelled `v1_` clash. -/
theorem generate_of_finished_clash :
    (Script.runEvery clashingSteps .start).2.session.finish = .ok (Recording.sourceOf clashingSteps) ∧
      ∃ name, (Recording.sourceOf clashingSteps).generate {} = .error (.duplicateName name) := by
  have hfinish : (Script.runEvery clashingSteps .start).2.session.finish = .ok (Recording.sourceOf clashingSteps) :=
    Recording.finish_eq_ok_iff.2 ⟨by decide +kernel, rfl⟩
  refine ⟨hfinish, (generate_of_finished clashingSteps {} _ hfinish).2.2.1.2 ⟨by decide +kernel, ?_⟩⟩
  exact ⟨"v1", by decide +kernel, "v1_", by decide +kernel, by decide, by decide⟩

end ShaderTrace.Glsl
