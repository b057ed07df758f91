import ShaderTrace.Proofs.Attaching
import ShaderTrace.Proofs.Generator.Recursion
import ShaderTrace.Proofs.Generator.Statements
import ShaderTrace.Proofs.Listing

/-!
# Every walk over an arena ends

The walks over an arena have no bound of their own and do not mark the nodes that they have come to. They end because ownership is
sound: each node is come to from the one node it belongs to. The walks with a stack are `Worklist.Ends`. The recursion over
statements is `statementAt`, which goes from node to node of the arena and notes each; it is given a bound on its depth, and
what it answers is what `statement` makes of the tree below the node, for every bound that is not below the number of nodes
(`within_statementAt`). The main statement is `walks_end`.
-/

namespace ShaderTrace.Glsl

/-! ## Computations that note the nodes they come to -/

/-- A computation that notes the nodes it comes to, also if it fails. -/
abbrev Noting := ExceptT GenerateError (StateM (List NodeId))

/-- The computation gives the answer, and what it notes is a part of the nodes given, in their order. -/
def Within {α : Type} (x : Noting α) (answer : Except GenerateError α) (ids : List NodeId) : Prop :=
  ∃ noted : List NodeId, noted.Sublist ids ∧ ∀ before, x.run.run before = (answer, before ++ noted)

section Within

variable {α β : Type} {x : Noting α} {answer : Except GenerateError α} {ids ids' : List NodeId}

/-- A computation that looks at no node notes none. -/
theorem within_lift (answer : Except GenerateError α) : Within (liftM answer) answer [] := by
  refine ⟨[], List.Sublist.refl _, fun before => ?_⟩
  rw [List.append_nil]
  rfl

theorem within_pure (a : α) : Within (pure a) (.ok a) [] := within_lift (.ok a)

/-- To note a node is to look at it. -/
theorem within_note (id : NodeId) : Within (modify (· ++ [id])) (.ok ()) [id] :=
  ⟨[id], List.Sublist.refl _, fun _ => rfl⟩

theorem lift_ok_bind (a : α) (f : α → Noting β) : (liftM (Except.ok a : Except GenerateError α) : Noting α) >>= f = f a := rfl

/-- A computation after another one looks at the nodes of both, in that order. -/
theorem Within.bind {f : α → Noting β} {g : α → Except GenerateError β} (h : Within x answer ids)
    (hf : ∀ a, Within (f a) (g a) ids') : Within (x >>= f) (answer >>= g) (ids ++ ids') := by
  obtain ⟨noted, hnoted, hrun⟩ := h
  cases answer with
  | error error =>
    refine ⟨noted, hnoted.trans (List.sublist_append_left _ _), fun before => ?_⟩
    simp only [ExceptT.run_bind, StateT.run_bind, hrun]
    rfl
  | ok a =>
    obtain ⟨noted', hnoted', hrun'⟩ := hf a
    refine ⟨noted ++ noted', hnoted.append hnoted', fun before => ?_⟩
    simp only [ExceptT.run_bind, StateT.run_bind, hrun]
    rw [← List.append_assoc]
    exact hrun' _

/-- More nodes may be allowed for. -/
theorem Within.mono (h : Within x answer ids) (hsub : ids.Sublist ids') : Within x answer ids' := by
  obtain ⟨noted, hnoted, hrun⟩ := h
  exact ⟨noted, hnoted.trans hsub, hrun⟩

end Within

/-! ## The recursion over statements -/

/-- The node with this number. -/
def nodeAt (arena : Arena) (id : NodeId) : Except GenerateError Node := (arena.find id).mapError .noTree

/-- The tree below a node. -/
def treeAt (arena : Arena) (id : NodeId) : Except GenerateError Tree := (arena.tree id).mapError .noTree

/-- The expression of a node. -/
def expressionAt (arena : Arena) (scope : Scope) (id : NodeId) : Except GenerateError Expr :=
  treeAt arena id >>= expression scope

/-- A node by itself, without what is below it. -/
def single (id : NodeId) (node : Node) : Tree := .node id node.head []

/-- The statements of a row of nodes, each by `one`. -/
def rowOf (arena : Arena) (one : Scope → NodeId → Noting (List Stmt × Scope)) (scope : Scope) (previous : Option NodeKind) :
    List NodeId → Noting (List Stmt)
  | [] => return []
  | id :: ids => do
    let node ← nodeAt arena id
    checkFollows previous (single id node)
    let (stmts, scope) ← one scope id
    return stmts ++ (← rowOf arena one scope (some node.kind) ids)

/-- The statements of a node, by recursion from node to node, at most `bound` nodes deep. Every node is noted when the recursion
comes to it. A node that is not followed by a body has no statements below it. -/
def statementAt (arena : Arena) : (bound : Nat) → Scope → NodeId → Noting (List Stmt × Scope)
  | 0, _, id => throw (.noTree (.endless id))
  | bound + 1, scope, id => do
    modify (· ++ [id])
    let node ← nodeAt arena id
    match node.kind, node.children with
    | .ifBranch, condition :: body => do
      let condition ← expressionAt arena scope condition
      return ([.guarded .if condition (← rowOf arena (statementAt arena bound) scope none body)], scope)
    | .elseIfBranch, condition :: body => do
      let condition ← expressionAt arena scope condition
      return ([.guarded .elseIf condition (← rowOf arena (statementAt arena bound) scope none body)], scope)
    | .whileLoop, condition :: body => do
      let condition ← expressionAt arena scope condition
      return ([.guarded .while condition (← rowOf arena (statementAt arena bound) scope none body)], scope)
    | .elseBranch, body => do
      return ([.otherwise (← rowOf arena (statementAt arena bound) scope none body)], scope)
    | .block, body => do
      return ([.block (← rowOf arena (statementAt arena bound) scope none body)], scope)
    | .forRange, start :: stop :: body => do
      let symbol ← (single id node).symbolOf
      let start ← expressionAt arena scope start
      let stop ← expressionAt arena scope stop
      let body ← rowOf arena (statementAt arena bound) (scope.declare symbol) none body
      return ([.count (scope.variableOf symbol) start stop body], scope)
    | _, _ => do statement scope (← treeAt arena id)

section Recursion

variable {arena : Arena}

/-- The tree at a node is the one that the arena holds there. -/
theorem treeAt_eq (ho : arena.Owned) {tree : Tree} (h : arena.Holds tree) : treeAt arena tree.id = .ok tree := by
  rw [treeAt, ho.tree_eq_ok_iff.2 ⟨h, rfl⟩]
  rfl

/-- The expression at a node is that of the tree that the arena holds there. -/
theorem expressionAt_eq (ho : arena.Owned) {tree : Tree} (h : arena.Holds tree) (scope : Scope) :
    expressionAt arena scope tree.id = expression scope tree := by
  rw [expressionAt, treeAt_eq ho h]
  rfl

/-- The node at the root of a tree says what the tree says. -/
theorem nodeAt_eq {tree : Tree} (h : arena.Holds tree) :
    ∃ node, nodeAt arena tree.id = .ok node ∧ node.head = tree.head ∧ node.children = tree.children.map Tree.id := by
  obtain ⟨node, hn, hhead, hchildren⟩ := Arena.get?_of_content? h.content
  refine ⟨node, ?_, hhead, hchildren⟩
  rw [nodeAt, Arena.find_eq_ok_iff.2 hn]
  rfl

/-- A row of statements is generated within the nodes of its trees if each statement is. -/
theorem within_rowOf {one : Scope → NodeId → Noting (List Stmt × Scope)} :
    ∀ {trees : List Tree} (scope : Scope) (previous : Option NodeKind), (∀ tree ∈ trees, arena.Holds tree) →
      (∀ tree ∈ trees, ∀ scope, Within (one scope tree.id) (statement scope tree) tree.ids) →
      Within (rowOf arena one scope previous (trees.map Tree.id)) (statements scope previous trees) (Tree.idsAll trees) := by
  intro trees
  induction trees with
  | nil => exact fun scope previous _ _ => within_pure []
  | cons tree trees ih =>
    intro scope previous h hone
    rw [List.forall_mem_cons] at h hone
    obtain ⟨node, hnode, hhead, -⟩ := nodeAt_eq h.1
    have hkind : node.kind = tree.kind := by rw [Node.kind, hhead, Tree.kind]
    have hfollows : checkFollows previous (single tree.id node) = checkFollows previous tree := by
      unfold checkFollows
      rw [single, hhead]
      rfl
    have hrest : ∀ first : List Stmt × Scope, Within
        (rowOf arena one first.2 (some node.kind) (trees.map Tree.id) >>= fun rest => pure (first.1 ++ rest))
        (statements first.2 (some node.kind) trees >>= fun rest => .ok (first.1 ++ rest)) (Tree.idsAll trees) := by
      intro first
      have hrow := (ih first.2 (some node.kind) h.2 hone.2).bind fun rest => within_pure (first.1 ++ rest)
      rwa [List.append_nil] at hrow
    rw [List.map_cons, rowOf, hnode, lift_ok_bind, hfollows, statements, Tree.idsAll, ← hkind]
    exact (within_lift _).bind fun _ => (hone.1 scope).bind hrest

section Forms

variable {tree : Tree} {scope : Scope} {row : Scope → List NodeId → Noting (List Stmt)}

/-- A branch or a loop with a condition, if the rows of its body answer what they should. -/
theorem within_guarded (ho : arena.Owned) (h : arena.Holds tree)
    (hrow : ∀ (scope : Scope) (body : List Tree), body.Sublist tree.children →
      Within (row scope (body.map Tree.id)) (statements scope none body) (Tree.idsAll body))
    (keyword : Keyword) (hk : tree.kind = keyword.kind) {condition : NodeId} {body : List NodeId}
    (hc : tree.children.map Tree.id = condition :: body) :
    Within (liftM (expressionAt arena scope condition) >>= fun cond => row scope body >>= fun stmts =>
        pure ([.guarded keyword cond stmts], scope)) (statement scope tree) (Tree.idsAll tree.children) := by
  obtain ⟨first, rest, hfirst, rfl, rfl⟩ := List.map_eq_cons_iff.1 hc
  rw [hfirst] at hrow
  rw [statement_guarded keyword hk hfirst, expressionAt_eq ho (h.child (by rw [hfirst]; exact List.mem_cons_self)), hfirst]
  have hbody := (hrow scope rest (List.sublist_cons_self first rest)).mono (List.sublist_append_right first.ids _)
  have hall := (within_lift (expression scope first)).bind fun cond =>
    hbody.bind fun stmts => within_pure ([Stmt.guarded keyword cond stmts], scope)
  rwa [List.append_nil, List.nil_append] at hall

/-- A loop that counts. -/
theorem within_count (ho : arena.Owned) (h : arena.Holds tree)
    (hrow : ∀ (scope : Scope) (body : List Tree), body.Sublist tree.children →
      Within (row scope (body.map Tree.id)) (statements scope none body) (Tree.idsAll body))
    (hk : tree.kind = .forRange) {start stop : NodeId} {body : List NodeId}
    (hc : tree.children.map Tree.id = start :: stop :: body) :
    Within (liftM tree.symbolOf >>= fun symbol => liftM (expressionAt arena scope start) >>= fun start =>
        liftM (expressionAt arena scope stop) >>= fun stop => row (scope.declare symbol) body >>= fun stmts =>
          pure ([.count (scope.variableOf symbol) start stop stmts], scope))
      (statement scope tree) (Tree.idsAll tree.children) := by
  obtain ⟨first, others, hfirst, rfl, hothers⟩ := List.map_eq_cons_iff.1 hc
  obtain ⟨second, rest, rfl, rfl, rfl⟩ := List.map_eq_cons_iff.1 hothers
  have hheld : ∀ child ∈ first :: second :: rest, arena.Holds child := fun child hm => h.child (hfirst ▸ hm)
  rw [hfirst] at hrow
  rw [statement_count hk hfirst, expressionAt_eq ho (hheld first List.mem_cons_self),
    expressionAt_eq ho (hheld second (List.mem_cons_of_mem _ List.mem_cons_self)), hfirst]
  have hsub : (Tree.idsAll rest).Sublist (Tree.idsAll (first :: second :: rest)) :=
    (List.sublist_append_right second.ids _).trans (List.sublist_append_right first.ids _)
  have hbody := fun symbol => (hrow (scope.declare symbol) rest (List.sublist_append_right [first, second] rest)).mono hsub
  have hall := (within_lift tree.symbolOf).bind fun symbol => (within_lift (expression scope first)).bind fun start =>
    (within_lift (expression scope second)).bind fun stop => (hbody symbol).bind fun stmts =>
      within_pure ([Stmt.count (scope.variableOf symbol) start stop stmts], scope)
  rwa [List.append_nil, List.nil_append, List.nil_append, List.nil_append] at hall

end Forms

/-- The recursion over the statements below a node answers what is made of the tree, and comes to no node twice. -/
theorem within_statementAt (ho : arena.Owned) (bound : Nat) : ∀ (tree : Tree) (scope : Scope), arena.Holds tree →
    tree.size ≤ bound → Within (statementAt arena bound scope tree.id) (statement scope tree) tree.ids := by
  induction bound with
  | zero =>
    intro tree scope _ hb
    have := tree.size_pos
    omega
  | succ bound ih =>
    intro tree scope h hb
    have hrow : ∀ (scope : Scope) (body : List Tree), body.Sublist tree.children →
        Within (rowOf arena (statementAt arena bound) scope none (body.map Tree.id)) (statements scope none body)
          (Tree.idsAll body) := by
      intro scope body hsub
      refine within_rowOf scope none (fun child hm => h.child (hsub.subset hm)) fun child hm scope => ?_
      have hlt := Tree.size_lt_of_mem_children (hsub.subset hm)
      exact ih child scope (h.child (hsub.subset hm)) (by omega)
    obtain ⟨node, hnode, hhead, hchildren⟩ := nodeAt_eq h
    have hkind : tree.kind = node.kind := by rw [Node.kind, hhead, Tree.kind]
    -- the node is noted first, and what remains are the nodes below it
    rw [statementAt, tree.ids_eq_cons, ← List.singleton_append]
    refine @Within.bind _ _ _ _ [tree.id] _ _ (fun _ => statement scope tree) (within_note tree.id) fun _ => ?_
    rw [hnode, lift_ok_bind]
    split
    · exact within_guarded ho h hrow .if (hkind.trans ‹_›) (hchildren.symm.trans ‹_›)
    · exact within_guarded ho h hrow .elseIf (hkind.trans ‹_›) (hchildren.symm.trans ‹_›)
    · exact within_guarded ho h hrow .while (hkind.trans ‹_›) (hchildren.symm.trans ‹_›)
    · rename_i hk
      rw [statement_otherwise (hkind.trans hk), hchildren]
      have hall := (hrow scope _ (List.Sublist.refl _)).bind fun stmts => within_pure ([Stmt.otherwise stmts], scope)
      rwa [List.append_nil] at hall
    · rename_i hk
      rw [statement_block (hkind.trans hk), hchildren]
      have hall := (hrow scope _ (List.Sublist.refl _)).bind fun stmts => within_pure ([Stmt.block stmts], scope)
      rwa [List.append_nil] at hall
    · rename_i hk hc
      have hsymbol : (single tree.id node).symbolOf = tree.symbolOf := by
        unfold Tree.symbolOf Tree.unexpected Tree.kind
        rw [single, Tree.head, hhead]
        rfl
      rw [hsymbol]
      exact within_count ho h hrow (hkind.trans hk) (hchildren.symm.trans hc)
    · rw [treeAt_eq ho h, lift_ok_bind]
      exact (within_lift _).mono (List.nil_sublist _)

end Recursion

/-! ## The walk over an expression -/

/-- The nodes that a task comes to. A node that is put together has been come to before. -/
def Task.visited : Task → List NodeId
  | .visit tree => [tree.id]
  | .render _ _ => []

/-- The nodes that a task may come to, with all tasks that it leads to. -/
def Task.extent : Task → List NodeId
  | .visit tree => tree.ids
  | .render _ _ => []

/-- What is left of trees that will be visited is all of their nodes. -/
theorem extent_visits (trees : List Tree) : (trees.map Task.visit).flatMap Task.extent = Tree.idsAll trees := by
  induction trees with
  | nil => rfl
  | cons tree trees ih =>
    rw [List.map_cons, List.flatMap_cons, ih]
    rfl

/-- Fewer trees have fewer nodes, in the same order. -/
theorem idsAll_sublist {trees trees' : List Tree} (h : trees.Sublist trees') :
    (Tree.idsAll trees).Sublist (Tree.idsAll trees') := by
  induction h with
  | slnil => exact List.Sublist.refl _
  | cons tree _ ih => exact ih.trans (List.sublist_append_right tree.ids _)
  | cons_cons tree _ ih => exact (List.Sublist.refl tree.ids).append ih

/-- One task visits a node at most, and leaves no more than what was left before. -/
theorem perform_extent {scope : Scope} {finished : List Expr} {task : Task} {next : List Expr × List Task}
    (h : perform scope finished task = .ok next) : (task.visited ++ next.2.flatMap Task.extent).Sublist task.extent := by
  cases task with
  | visit tree =>
    obtain ⟨operands, hops, hnext⟩ := bind_eq_ok_iff.1 h
    cases hnext
    have hsub := idsAll_sublist (Tree.sublist_of_operands hops)
    obtain ⟨id, head, children⟩ := tree
    rw [List.flatMap_append, extent_visits]
    show (id :: (Tree.idsAll operands ++ [])).Sublist (id :: Tree.idsAll children)
    rw [List.append_nil]
    exact hsub.cons_cons id
  | render tree count =>
    obtain ⟨expr, -, hnext⟩ := bind_eq_ok_iff.1 h
    cases hnext
    exact List.Sublist.refl _

/-- The walk over an expression ends. It comes to no node twice, and has at most two tasks for each node of the tree. -/
theorem ends_perform (scope : Scope) (tree : Tree) :
    ∃ done, Worklist.Ends (perform scope) id [] [.visit tree] done ((expression scope tree).map fun expr => [expr]) ∧
      done.length ≤ 2 * tree.size ∧ (done.flatMap Task.visited).Sublist tree.ids := by
  have hne : GenerateError.missingMain ≠ .noTree (.endless tree.id) := by rintro ⟨⟩
  obtain ⟨done, hlen, hends⟩ :=
    Worklist.exists_ends_of_run id hne fun exhausted => run_perform exhausted scope tree
  have hsub := hends.sublist perform_extent fun task => by
    cases task with
    | visit tree => exact List.singleton_sublist.2 tree.id_mem_ids
    | render tree count => exact List.Sublist.refl _
  rw [List.flatMap_singleton] at hsub
  exact ⟨done, hends, hlen, hsub⟩

/-! ## All walks -/

theorem idsAll_eq_flatten (trees : List Tree) : Tree.idsAll trees = (trees.map Tree.ids).flatten := by
  induction trees with
  | nil => rfl
  | cons tree trees ih => rw [Tree.idsAll, ih, List.map_cons, List.flatten_cons]

/-- The walks over the children, one after the other. -/
theorem mapM_preorder {arena : Arena} (ho : arena.Owned) {trees : List Tree} (h : ∀ tree ∈ trees, arena.Holds tree) :
    (trees.map Tree.id).mapM arena.preorder = .ok (trees.map Tree.ids) := by
  refine mapM_eq_ok_iff.2 ?_
  rw [List.forall₂_map_left_iff, List.forall₂_map_right_iff, List.forall₂_same]
  exact fun tree hm => ho.preorder_eq (h tree hm)

/-- Let `root` be a node of the arena. The walk from it ends. It comes once to each node from which the way upwards passes through
`root` and to no other: first to `root`, then to what the walks from its children come to, from left to right. The walks that list
the tree and that copy it end and come to the same nodes in the same order. The walk that makes an expression of the tree ends and
comes to no node twice. The recursion over its statements ends for every bound that is not below the number of nodes, with the
statements of the tree, and comes to no node twice. -/
theorem walks_end (arena : Arena) (ho : arena.Owned) (root : NodeId) (hroot : root.index < arena.size) :
    ∃ ids node tree, arena.get? root = some node ∧ arena.tree root = .ok tree ∧
      (arena.preorder root = .ok ids ∧ Worklist.Ends arena.visit id #[] [root] ids (.ok ids.toArray)) ∧
      (ids.Nodup ∧ ids.length ≤ arena.size ∧ ∀ other, other ∈ ids ↔ ∃ chain, arena.Climbs other chain ∧ root ∈ chain) ∧
      (∃ walks, node.children.mapM arena.preorder = .ok walks ∧ ids = root :: walks.flatten) ∧
      (∀ style, ∃ text, arena.dump style root = .ok text ∧
        Worklist.Ends (arena.dumpLine style) Prod.fst "" [(root, 0)] ids (.ok text)) ∧
      (∃ copy arena' below, arena.clone root = .ok (copy, arena') ∧ ids = root :: below ∧
        Worklist.Ends Arena.copyStep Prod.fst (arena.alloc node.head).2 (node.children.map fun child => (child, copy)) below
          (.ok arena')) ∧
      ∀ scope,
        (∃ done, Worklist.Ends (perform scope) id [] [.visit tree] done ((expression scope tree).map fun expr => [expr]) ∧
          done.length ≤ 2 * ids.length ∧ (done.flatMap Task.visited).Sublist ids) ∧
        ∀ bound, ids.length ≤ bound → Within (statementAt arena bound scope root) (statement scope tree) ids ∧
          ∀ previous, Within (rowOf arena (statementAt arena bound) scope previous node.children)
            (statements scope previous tree.children) ids := by
  obtain ⟨tree, hholds, rfl⟩ := ho.exists_tree root hroot
  obtain ⟨node, hnode, hhead, hchildren⟩ := Arena.get?_of_content? hholds.content
  have htree := ho.tree_eq_ok_iff.2 ⟨hholds, rfl⟩
  have hbelow : ∀ child ∈ tree.children, arena.Holds child := fun child hm => hholds.child hm
  refine ⟨tree.ids, node, tree, hnode, htree, ⟨ho.preorder_eq hholds, Arena.ends_preorder hholds⟩,
    ⟨ho.nodup_ids tree hholds, ?_, fun other => ho.mem_ids_iff_climbs hholds⟩,
    ⟨tree.children.map Tree.ids, ?_, ?_⟩, fun style => ⟨_, ho.dump_eq style htree, Arena.ends_listing style hholds⟩,
    ⟨_, _, _, ho.clone_eq hholds, tree.ids_eq_cons, ?_⟩, fun scope => ⟨?_, fun bound hb => ⟨?_, fun previous => ?_⟩⟩⟩
  · rw [Tree.length_ids]
    exact ho.size_le hholds
  · rw [hchildren]
    exact mapM_preorder ho hbelow
  · rw [tree.ids_eq_cons, idsAll_eq_flatten]
  · rw [hhead, hchildren, List.map_map]
    exact Arena.ends_copies hholds
  · rw [Tree.length_ids]
    exact ends_perform scope tree
  · rw [Tree.length_ids] at hb
    exact within_statementAt ho bound tree scope hholds hb
  · rw [hchildren]
    refine (within_rowOf scope previous hbelow fun child hm scope => ?_).mono
      (tree.ids_eq_cons ▸ List.sublist_cons_self _ _)
    have hlt := Tree.size_lt_of_mem_children hm
    rw [Tree.length_ids] at hb
    exact within_statementAt ho bound child scope (hbelow child hm) (by omega)

/-- A block with a branch, and in the branch another block. -/
def branchEdits : List Edit :=
  [.alloc { kind := .block, type := .void }, .alloc { kind := .ifBranch, type := .void }, .alloc (.ofLiteral (.bool true)),
    .alloc { kind := .block, type := .void }, .attach ⟨1⟩ ⟨2⟩, .attach ⟨1⟩ ⟨3⟩, .attach ⟨0⟩ ⟨1⟩]

/-- Four nodes, and a recursion that may go four nodes deep. -/
theorem walks_end_branch :
    (Arena.empty.editAll branchEdits).Owned ∧ 0 < (Arena.empty.editAll branchEdits).size ∧
      (Arena.empty.editAll branchEdits).preorder ⟨0⟩ = .ok [⟨0⟩, ⟨1⟩, ⟨2⟩, ⟨3⟩] ∧
      (∃ chain, (Arena.empty.editAll branchEdits).Climbs ⟨3⟩ chain ∧ ⟨0⟩ ∈ chain) ∧
      ∃ tree noted, (Arena.empty.editAll branchEdits).tree ⟨0⟩ = .ok tree ∧
        (statementAt (Arena.empty.editAll branchEdits) 4 ⟨[], [], []⟩ ⟨0⟩).run.run [] = (statement ⟨[], [], []⟩ tree, noted) ∧
        (statement ⟨[], [], []⟩ tree).toOption.isSome ∧ noted.Sublist [⟨0⟩, ⟨1⟩, ⟨2⟩, ⟨3⟩] := by
  have howned := Arena.owned_editAll branchEdits
  have hsize : 0 < (Arena.empty.editAll branchEdits).size := by decide +kernel
  have hwalk : (Arena.empty.editAll branchEdits).preorder ⟨0⟩ = .ok [⟨0⟩, ⟨1⟩, ⟨2⟩, ⟨3⟩] := by decide +kernel
  have hmade : ((Arena.empty.editAll branchEdits).tree ⟨0⟩).map
      (fun tree => (statement ⟨[], [], []⟩ tree).toOption.isSome) = .ok true := by decide +kernel
  obtain ⟨ids, node, tree, -, htree, ⟨hids, -⟩, ⟨-, -, hclimbs⟩, -, -, -, hscope⟩ := walks_end _ howned ⟨0⟩ hsize
  obtain rfl := Except.ok.inj (hwalk.symm.trans hids)
  obtain ⟨noted, hnoted, hrun⟩ := ((hscope ⟨[], [], []⟩).2 4 (by decide)).1
  rw [htree] at hmade
  exact ⟨howned, hsize, hwalk, (hclimbs ⟨3⟩).1 (by decide), tree, noted, htree, hrun [], Except.ok.inj hmade, hnoted⟩

end ShaderTrace.Glsl
