import ShaderTrace.Proofs.Recording.Script

/-!
# Finished recordings are well typed

What a node may say, given what its children say: `WellTyped` asks of each kind of node the relation between types that belongs
to it, and `Arena.Sound` asks it of a node of an arena, with as many children as its kind admits. Orphans that a failed
operation leaves behind need not be sound; every node that can be reached from the program of a finished recording is.
-/

namespace ShaderTrace

/-! ## What a node may say -/

/-- There is one child, and its type is so. -/
def OnOne (accepts : ValueType → Prop) : List Head → Prop
  | [a] => accepts a.type
  | _ => False

/-- There are two children, and their types are so related. -/
def OnTwo (related : ValueType → ValueType → Prop) : List Head → Prop
  | [a, b] => related a.type b.type
  | _ => False

/-- A variable of the type of a buffer, and integers after it, none of them a negative constant. -/
def Samples (buffer : ValueType) (count : Nat) : List Head → Prop
  | first :: indices => first.kind = .var ∧ first.type = buffer ∧ indices.length = count ∧
      ∀ index ∈ indices, index.type = .int ∧ ∀ value, index.payload = .literal (.int value) → ¬value < 0
  | [] => False

/-- The number of a function of the language, and arguments after it that the function takes. -/
def Calls (type : ValueType) : List Head → Prop
  | first :: arguments => ∃ builtin : Builtin, first = .ofLiteral (.int builtin.id) ∧
      arguments.length = builtin.arity ∧ Typing.call? builtin (arguments.map Head.type) = some type
  | [] => False

/-- A node may have these children. -/
def WellTyped (head : Head) (children : List Head) : Prop :=
  match head.kind with
  | .program | .constData | .outData | .main | .block | .elseBranch => head.type = .void
  | .ifBranch | .elseIfBranch | .whileLoop => head.type = .void ∧ OnOne (· = .bool) (children.take 1)
  | .forRange => head.type = .void ∧ head.symbol?.isSome = true ∧ OnTwo (fun a b => a = .int ∧ b = .int) (children.take 2)
  | .outVar => head.symbol?.isSome = true ∧ head.type.isNumeric = true
  | .constVar | .var => head.symbol?.isSome = true ∧ head.type.isNameable = true
  | .literal => ∃ value, head = .ofLiteral value
  | .assignment => OnTwo (fun a b => a = head.type ∧ b = head.type) children ∧
      ∀ target ∈ children.take 1, target.kind = .var ∨ target.kind = .member
  | .equal | .notEqual => OnTwo (fun a b => Typing.equality a b = true ∧ head.type = .bool) children
  | .greater | .greaterEqual | .less | .lessEqual => OnTwo (fun a b => Typing.ordered a b = true ∧ head.type = .bool) children
  | .logicalAnd | .logicalOr => OnTwo (fun a b => a = .bool ∧ b = .bool ∧ head.type = .bool) children
  | .logicalNot => OnOne (fun a => a = .bool ∧ head.type = .bool) children
  | .bitwiseAnd | .bitwiseOr | .bitwiseXor => OnTwo (fun a b => Typing.bitwise a b = true ∧ head.type = a) children
  | .bitwiseNot => OnOne (fun a => a.isIntegral = true ∧ head.type = a) children
  | .shiftLeft | .shiftRight => OnTwo (fun a b => Typing.shift a b = true ∧ head.type = a) children
  | .negate => OnOne (fun a => a.isSigned = true ∧ head.type = a) children
  | .add | .subtract => OnTwo (fun a b => Typing.arith? a b = some head.type) children
  | .multiply => OnTwo (fun a b => Typing.product? a b = some head.type) children
  | .divide => OnTwo (fun a b => Typing.quotient? a b = some head.type) children
  | .modulo => OnTwo (fun a b => Typing.modulo? a b = some head.type) children
  | .constructor => head.type.isValid = true ∧ head.type.isVector = true ∧ children.length = head.type.lanes ∧
      ∀ child ∈ children, head.type.lane? = some child.type
  | .cast => OnOne (fun a => Typing.castable a head.type = true) children
  | .function => Calls head.type children
  | .sample1d => Samples head.type.buffer1d 1 children
  | .sample2d => Samples head.type.buffer2d 2 children
  | .member => ∃ owner ownerType lane, head.payload = .member owner ownerType lane ∧
      Recording.LaneOf ownerType lane head.type
  | .index => head.type = .int2
  | .normalizedIndex => head.type = .float2

/-- A node of an arena has as many children as its kind admits, and may have those that it has. -/
def Arena.Sound (arena : Arena) (id : NodeId) : Prop :=
  ∃ (node : Node) (children : List Node), arena.get? id = some node ∧ node.children.map arena.get? = children.map some ∧
    node.kind.arity.admits node.children.length = true ∧ WellTyped node.head (children.map Node.head)

namespace ValueType

/-- A buffer of one dimension is the one of its base. -/
theorem buffer1d_base {type : ValueType} (h : type.isNameable = true) (hb : type.isBuffer1d = true) :
    type.base.buffer1d = type := by
  have hall : ∀ type ∈ nameable, type.isBuffer1d = true → type.base.buffer1d = type := by decide
  exact hall type (mem_nameable h) hb

/-- A buffer of two dimensions is the one of its base. -/
theorem buffer2d_base {type : ValueType} (h : type.isNameable = true) (hb : type.isBuffer2d = true) :
    type.base.buffer2d = type := by
  have hall : ∀ type ∈ nameable, type.isBuffer2d = true → type.base.buffer2d = type := by decide
  exact hall type (mem_nameable h) hb

end ValueType

namespace Recording

/-! ## Operations -/

section Operations

variable {Γ : Ledger} {operands : List Term} {type : ValueType}

/-- An operation on one operand that has a type is well typed. -/
theorem wellTyped_unary {op : UnaryOp} {a : Term} (h : Typing.unary? op a.type = some type) :
    WellTyped { kind := op.kind, type } [a.head] := by
  cases op with
  | neg | not | bitNot =>
    rw [Typing.unary?, Option.ite_none_right_eq_some] at h
    exact ⟨h.1, (Option.some.inj h.2).symm⟩

/-- An operation on two operands that has a type is well typed. -/
theorem wellTyped_binary {op : BinaryOp} {a b : Term} (h : Typing.binary? op a.type b.type = some type) :
    WellTyped { kind := op.kind, type } [a.head, b.head] := by
  cases op with
  | add | sub | mul | div | rem => exact h
  | and | or =>
    rw [Typing.binary?, Option.ite_none_right_eq_some] at h
    exact ⟨h.1.1, h.1.2, (Option.some.inj h.2).symm⟩
  | _ =>
    rw [Typing.binary?, Option.ite_none_right_eq_some] at h
    exact ⟨h.1, (Option.some.inj h.2).symm⟩

/-- A constructor that has a type is well typed. -/
theorem wellTyped_construct {vector : ValueType} (h : Typing.construct? vector (operands.map Term.type) = some type) :
    WellTyped { kind := .constructor, type } (operands.map Term.head) := by
  obtain ⟨rfl, hlen, -, -⟩ := Typing.of_construct? h
  rw [Typing.construct?, Option.ite_none_right_eq_some] at h
  obtain ⟨⟨hvalid, hvector, -, hlanes⟩, -⟩ := h
  refine ⟨hvalid, hvector, by simpa using hlen, ?_⟩
  intro head hm
  obtain ⟨term, hterm, rfl⟩ := List.mem_map.1 hm
  have := List.all_eq_true.1 hlanes term.type (List.mem_map_of_mem hterm)
  exact (beq_iff_eq.1 this).symm

/-- Only constants carry constants. -/
theorem Expression.eq_constant {term : Term} (h : Expression Γ term) {value : Literal}
    (hp : term.head.payload = .literal value) : term = Recording.constant value := by
  cases h with
  | constant other => cases hp; rfl
  | reference | laneOf | apply => cases hp

/-- A sampling that has a type reads a buffer, and has the type of its base. -/
theorem samples_of_sampled {isBuffer : ValueType → Bool} {count : Nat} (symbol : SymbolId) {buffer : ValueType}
    {indices : List Term} (hi : ∀ index ∈ indices, Expression Γ index)
    (ht : Typing.sample? isBuffer count (buffer :: indices.map Term.type) = some type)
    (hs : ∀ index, constant (.int index) ∈ indices → ¬index < 0) :
    Samples buffer count ((reference buffer symbol :: indices).map Term.head) ∧ isBuffer buffer = true ∧ type = buffer.base := by
  obtain ⟨_, _, heq, -, hbuffer, hlen, hint, rfl⟩ := Typing.of_sample? ht
  cases heq
  refine ⟨⟨rfl, rfl, by simpa using hlen, ?_⟩, hbuffer, rfl⟩
  intro head hm
  obtain ⟨index, hindex, rfl⟩ := List.mem_map.1 hm
  refine ⟨hint index.type (List.mem_map_of_mem hindex), ?_⟩
  intro value hp
  exact hs value ((hi index hindex).eq_constant hp ▸ hindex)

/-- An operation may have the operands that its operator accepts. -/
theorem wellTyped_applied {operator : Operator} (ho : ∀ term ∈ operands, Expression Γ term)
    (ht : operator.result? (operands.map Term.type) = some type) (hs : Sampled Γ operator operands) :
    WellTyped { kind := operator.kind, type } ((applied operator operands).map Term.head) := by
  have hlen := Operator.length_of_result? ht
  rw [List.length_map] at hlen
  cases operator with
  | unary op =>
    obtain ⟨a, rfl⟩ := List.length_eq_one_iff.1 hlen
    exact wellTyped_unary ht
  | binary op =>
    obtain ⟨a, b, rfl⟩ := List.length_eq_two.1 hlen
    exact wellTyped_binary ht
  | cast target =>
    obtain ⟨a, rfl⟩ := List.length_eq_one_iff.1 hlen
    rw [List.map_singleton, Operator.result?, Option.ite_none_right_eq_some] at ht
    obtain ⟨hcast, ⟨⟩⟩ := ht
    exact hcast
  | call builtin =>
    refine ⟨builtin, rfl, by simpa [Operator.operandCount] using hlen, ?_⟩
    rw [List.map_map]
    exact ht
  | construct vector => exact wellTyped_construct ht
  | index =>
    obtain rfl := List.length_eq_zero_iff.1 hlen
    exact (Option.some.inj ht).symm
  | normalizedIndex =>
    obtain rfl := List.length_eq_zero_iff.1 hlen
    exact (Option.some.inj ht).symm
  | sample1d =>
    obtain ⟨symbol, buffer, indices, rfl, hg, hneg⟩ := hs
    obtain ⟨hsamples, hbuffer, rfl⟩ :=
      samples_of_sampled symbol (fun index hm => ho index (List.mem_cons_of_mem _ hm)) ht hneg
    show Samples buffer.base.buffer1d 1 ((reference buffer symbol :: indices).map Term.head)
    rw [ValueType.buffer1d_base hg.isNameable hbuffer]
    exact hsamples
  | sample2d =>
    obtain ⟨symbol, buffer, indices, rfl, hg, hneg⟩ := hs
    obtain ⟨hsamples, hbuffer, rfl⟩ :=
      samples_of_sampled symbol (fun index hm => ho index (List.mem_cons_of_mem _ hm)) ht hneg
    show Samples buffer.base.buffer2d 2 ((reference buffer symbol :: indices).map Term.head)
    rw [ValueType.buffer2d_base hg.isNameable hbuffer]
    exact hsamples

/-- An operator takes a number of operands that the kind of its nodes admits. -/
theorem admits_applied {operator : Operator} (ht : operator.result? (operands.map Term.type) = some type) :
    operator.kind.arity.admits (applied operator operands).length = true := by
  have hlen := Operator.length_of_result? ht
  rw [List.length_map] at hlen
  cases operator with
  | unary op => simp only [applied, hlen]; cases op <;> rfl
  | binary op => simp only [applied, hlen]; cases op <;> rfl
  | call builtin => simp only [applied, List.length_cons, hlen]; cases builtin <;> rfl
  | construct vector =>
    obtain ⟨-, -, hlanes, -⟩ := Typing.of_construct? ht
    have hfour := vector.lanes_le_four
    simp only [applied, hlen, Operator.operandCount, Operator.kind, NodeKind.arity, Arity.admits, Option.all_some,
      Bool.and_eq_true, decide_eq_true_eq]
    omega
  | _ => simp only [applied, hlen]; rfl

end Operations

/-! ## Expressions and items -/

section Terms

variable {Γ : Ledger} {term : Term}

/-- An expression is well typed. -/
theorem Expression.wellTyped (h : Expression Γ term) : WellTyped term.head (term.children.map Term.head) := by
  cases h with
  | reference h => exact ⟨rfl, h.isNameable⟩
  | constant value => exact ⟨value, rfl⟩
  | laneOf h hl => exact ⟨_, _, _, rfl, hl⟩
  | apply operator operands ho ht hs => exact wellTyped_applied ho ht hs

/-- An expression has as many operands as its kind admits. -/
theorem Expression.admits (h : Expression Γ term) : term.kind.arity.admits term.children.length = true := by
  cases h with
  | reference | constant | laneOf => rfl
  | apply operator operands ho ht hs => exact admits_applied ht

/-- A block is well typed by its header, whatever its body. -/
theorem Header.wellTyped {head : Head} {header : List Term} (h : Header Γ head header) (body : List Term) :
    WellTyped head ((header ++ body).map Term.head) := by
  cases h with
  | @plain kind h => cases kind <;> simp at h <;> rfl
  | @condition kind _ h _ ht => cases kind <;> simp at h <;> exact ⟨rfl, ht⟩
  | count h _ ht _ ht' => exact ⟨rfl, rfl, ht, ht'⟩

/-- What can be assigned to is a variable or a lane. -/
theorem Target.kind (h : Target Γ term) : term.kind = .var ∨ term.kind = .member := by
  cases h with
  | reference => exact .inl rfl
  | laneOf => exact .inr rfl

/-- An item of a block is well typed. -/
theorem Item.wellTyped (h : Item Γ term) : WellTyped term.head (term.children.map Term.head) := by
  cases h with
  | input h => exact ⟨rfl, h.isNameable⟩
  | output h ht => exact ⟨rfl, ht⟩
  | @assign target value ht hv hty =>
    refine ⟨⟨rfl, hty⟩, ?_⟩
    intro head hm
    rw [List.mem_singleton.1 hm]
    exact ht.kind
  | block header body hh => exact hh.wellTyped body

/-- An item of a block has as many children as its kind admits. -/
theorem Item.admits (h : Item Γ term) : term.kind.arity.admits term.children.length = true := by
  cases h with
  | input | output | assign => rfl
  | @block head header body hh =>
    obtain ⟨hlen, hblock⟩ := hh.shape
    show head.kind.arity.admits (header ++ body).length = true
    rw [NodeKind.arity_of_isBlock hblock, List.length_append, hlen]
    simp [Arity.admits, Arity.atLeast]

/-- Below an item there are expressions and items. -/
theorem Item.children (h : Item Γ term) : ∀ child ∈ term.children, Expression Γ child ∨ Item Γ child := by
  cases h with
  | input | output => intro child hm; cases hm
  | assign ht hv =>
    intro child hm
    rcases List.mem_pair.1 hm with rfl | rfl
    · exact .inl ht.expression
    · exact .inl hv
  | block header body hh hb =>
    intro child hm
    rcases List.mem_append.1 hm with hm | hm
    · exact .inl (hh.expression child hm)
    · exact .inr (hb child hm)

end Terms

/-! ## Nodes -/

section Nodes

variable {Γ : Ledger} {arena : Arena}

/-- The nodes at the roots of trees that the arena holds. -/
theorem exists_nodes {trees : List Tree} (h : ∀ tree ∈ trees, arena.Holds tree) :
    ∃ nodes : List Node, (trees.map Tree.id).map arena.get? = nodes.map some ∧ nodes.map Node.head = trees.map Tree.head := by
  induction trees with
  | nil => exact ⟨[], rfl, rfl⟩
  | cons tree trees ih =>
    obtain ⟨nodes, hnodes, hheads⟩ := ih fun other hm => h other (List.mem_cons_of_mem _ hm)
    obtain ⟨node, hnode, hhead, -⟩ := Arena.get?_of_content? (h tree List.mem_cons_self).content
    exact ⟨node :: nodes, by simp [hnode, hnodes], by simp [hhead, hheads]⟩

/-- The nodes of expressions and items are sound. -/
theorem sound_of_holds {tree : Tree} (h : arena.Holds tree) (ht : Expression Γ tree.term ∨ Item Γ tree.term) :
    arena.Sound tree.id := by
  obtain ⟨node, hnode, hhead, hids⟩ := Arena.get?_of_content? h.content
  obtain ⟨nodes, hnodes, hheads⟩ := exists_nodes fun child hm => h.child hm
  refine ⟨node, nodes, hnode, by rw [hids, hnodes], ?_, ?_⟩
  · have hadmits := ht.elim Expression.admits Item.admits
    rw [Term.kind, Tree.term_head, Tree.term_children, List.length_map] at hadmits
    rw [Node.kind, hhead, hids, List.length_map]
    exact hadmits
  · have htyped := ht.elim Expression.wellTyped Item.wellTyped
    rw [Tree.term_head, Tree.term_children, List.map_map] at htyped
    rw [hhead, hheads]
    rwa [← List.map_congr_left fun child _ => Tree.term_head child]

/-- What can be reached from an item is part of an expression or an item. -/
theorem exists_tree_of_reachable {root : Tree} (hroot : arena.Holds root) (hitem : Item Γ root.term) {id : NodeId}
    (hpath : Relation.ReflTransGen (fun parent child => child ∈ arena.childrenOf parent) root.id id) :
    ∃ tree, arena.Holds tree ∧ tree.id = id ∧ (Expression Γ tree.term ∨ Item Γ tree.term) := by
  induction hpath with
  | refl => exact ⟨root, hroot, rfl, .inr hitem⟩
  | tail _ hchild ih =>
    obtain ⟨tree, htree, rfl, hterm⟩ := ih
    rw [Arena.childrenOf_eq htree.content] at hchild
    obtain ⟨child, hmem, rfl⟩ := List.mem_map.1 hchild
    have hbelow : child.term ∈ tree.term.children := by
      rw [Tree.term_children]
      exact List.mem_map_of_mem hmem
    exact ⟨child, htree.child hmem, rfl, hterm.elim (fun h => .inl (h.children _ hbelow)) (fun h => h.children _ hbelow)⟩

end Nodes

/-- Every node that can be reached from the program of a finished recording is sound. -/
theorem sound_of_finished (steps : List Script.Step) (source : Source)
    (h : (Script.runEvery steps .start).2.session.finish = .ok source) (id : NodeId)
    (hpath : Relation.ReflTransGen (fun parent child => child ∈ source.arena.childrenOf parent) Session.root id) :
    source.arena.Sound id := by
  obtain ⟨Γ, root, hroot, hrecorded⟩ := exists_recorded_of_finish h
  obtain ⟨hholds, hid⟩ := Arena.holds_of_unfold _ hroot
  rw [← hid] at hpath
  obtain ⟨tree, htree, rfl, hterm⟩ := exists_tree_of_reachable hholds hrecorded.item hpath
  exact sound_of_holds htree hterm

/-- A kernel that reads an image and writes a colour. One of its sums is refused after its first operand was taken. -/
def samplingSteps : List Script.Step :=
  [.block (.enter .constData) none [.call (.input (.buffer2d .float) "image") (some "image") false] false,
    .block (.enter .outData) none [.call (.output .float4 "color") (some "color") false] false,
    .block (.enter .main) none
      [.call (.express .index []) (some "place") false,
        .call (.sampleAt "image" (.register "place")) (some "texel") false,
        .call (.express (.call .sqrt) [.register "texel"]) (some "root") false,
        .call (.unbound .float) (some "nothing") false,
        .call (.express (.binary .add) [.register "root", .register "nothing"]) none true,
        .call (.express (.cast .float) [.literal (.int 1)]) (some "alpha") false,
        .call (.express (.construct .float4)
          [.register "texel", .register "root", .register "root", .register "alpha"]) (some "whole") false,
        .call (.assign "color" (.register "whole")) none false] false]

/-- A sample below the colour is sound; the sum that was refused is not, and cannot be reached. -/
theorem sound_of_finished_sampling :
    (Script.runEvery samplingSteps .start).2.session.finish = .ok (sourceOf samplingSteps) ∧
      Relation.ReflTransGen (fun parent child => child ∈ (sourceOf samplingSteps).arena.childrenOf parent) Session.root ⟨25⟩ ∧
      (sourceOf samplingSteps).arena.Sound ⟨25⟩ ∧ ¬(sourceOf samplingSteps).arena.Sound ⟨15⟩ := by
  have hfinish : (Script.runEvery samplingSteps .start).2.session.finish = .ok (sourceOf samplingSteps) :=
    finish_eq_ok_iff.2 ⟨by decide +kernel, rfl⟩
  have hpath : Relation.ReflTransGen (fun parent child => child ∈ (sourceOf samplingSteps).arena.childrenOf parent)
      Session.root ⟨25⟩ := by
    refine .head (b := ⟨5⟩) (by decide +kernel) ?_
    refine .head (b := ⟨36⟩) (by decide +kernel) ?_
    refine .head (b := ⟨18⟩) (by decide +kernel) ?_
    refine .head (b := ⟨23⟩) (by decide +kernel) ?_
    exact .single (by decide +kernel)
  refine ⟨hfinish, hpath, sound_of_finished samplingSteps _ hfinish ⟨25⟩ hpath, ?_⟩
  rintro ⟨node, children, hnode, -, hadmits, -⟩
  have hsum : ((sourceOf samplingSteps).arena.get? ⟨15⟩).map (fun node => node.kind.arity.admits node.children.length) =
      some false := by decide +kernel
  rw [hnode, Option.map_some, hadmits] at hsum
  cases hsum

end Recording

end ShaderTrace
