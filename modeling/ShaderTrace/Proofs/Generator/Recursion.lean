import Mathlib.Logic.Relation
import ShaderTrace.Proofs.Generator.Expressions

/-!
# The walk over an expression is a recursion

`Tree.recurse` is the recursion that the walk stands for: the shape of a node is checked, its operands are seen to from left to
right up to the first that fails, and the node is put together from what they gave. `renderText` puts texts together, and the
recursion with it gives the text of the expression that the walk makes (`text_expression`).

At any point of the walk, what the tasks on the stack will do to the finished expressions can be foretold from the shapes of their
nodes alone: `Ready` runs the tasks on the trees of these expressions. A step keeps it (`Underway.step`), so that a node always
finds its own operands on top. The main statement is `walk_recurses`.
-/

namespace ShaderTrace

namespace Worklist

variable {σ τ ε : Type}

/-- One step of a walk: the task on top is done, and those that it leaves go on top of the rest. -/
inductive Moves (step : σ → τ → Except ε (σ × List τ)) : σ × List τ → σ × List τ → Prop
  | task {state state' : σ} {task : τ} {next : List τ} (rest : List τ) (h : step state task = .ok (state', next)) :
    Moves step (state, task :: rest) (state', next ++ rest)

end Worklist

/-! ## Recursion -/

namespace Tree

variable {α β : Type}

/-- Recursion over an expression. -/
def recurse (assemble : Tree → List α → Except GenerateError α) (tree : Tree) : Except GenerateError α :=
  match _ : tree.operands with
  | .error error => .error error
  | .ok operands => operands.attach.mapM (fun operand => recurse assemble operand.1) >>= assemble tree
termination_by tree.size
decreasing_by exact size_lt_of_mem_children ((sublist_of_operands ‹_›).subset operand.2)

/-- The recursion assembles a node from the results for its operands. -/
theorem recurse_eq (assemble : Tree → List α → Except GenerateError α) (tree : Tree) :
    tree.recurse assemble = tree.operands >>= fun operands => operands.mapM (recurse assemble) >>= assemble tree := by
  rw [recurse]
  split
  · rename_i error h
    rw [h]
    rfl
  · rename_i operands h
    rw [h, List.mapM_subtype (fun _ _ => rfl), List.unattach_attach]
    rfl

/-- What is made by the recursion, seen through a view that every node hands on from its operands. -/
theorem map_eq_recurse {f : Tree → Except GenerateError α} {assemble : Tree → List α → Except GenerateError α}
    {assemble' : Tree → List β → Except GenerateError β} {view : α → β}
    (hf : ∀ tree, f tree = tree.operands >>= fun operands => operands.mapM f >>= assemble tree)
    (hview : ∀ tree parts, (assemble tree parts).map view = assemble' tree (parts.map view)) (tree : Tree) :
    (f tree).map view = tree.recurse assemble' := by
  rw [hf, recurse_eq]
  cases hops : tree.operands with
  | error error => rfl
  | ok operands =>
    have hrow : (operands.mapM f).map (List.map view) = operands.mapM (recurse assemble') := by
      refine map_mapM fun operand hm => ?_
      have hlt : operand.size < tree.size := size_lt_of_mem_children ((sublist_of_operands hops).subset hm)
      exact map_eq_recurse hf hview operand
    show (operands.mapM f >>= assemble tree).map view = operands.mapM (recurse assemble') >>= assemble' tree
    rw [← hrow]
    cases operands.mapM f with
    | error error => rfl
    | ok parts => exact hview tree parts
termination_by tree.size

end Tree

namespace Glsl

/-! ## Texts -/

/-- A call of a function with the texts of its arguments. -/
def callText (function : String) (arguments : List String) : String := function ++ "(" ++ ", ".intercalate arguments ++ ")"

/-- The text of a built-in function that is called with arguments. -/
def builtinText : Builtin → List String → String
  | .index, _ => "ivec2(gl_FragCoord.xy)"
  | .normalizedIndex, _ => "(gl_FragCoord.xy / vec2(dispatch_size))"
  | function, arguments => callText (Expr.functionName function) arguments

/-- What is written after a fetched texel for an element of so many lanes. -/
def swizzle (lanes : Nat) : String :=
  match texelLanes? lanes with
  | some lanes => "." ++ lanes
  | none => ""

/-- The text of a node over the texts of its operands. -/
def renderText (scope : Scope) (tree : Tree) (operands : List String) : Except GenerateError String :=
  match tree.kind, operands with
  | .var, [] => do
    let symbol ← tree.symbolOf
    return (← scope.resolve tree.id symbol).spelling
  | .literal, [] =>
    match tree.head.payload with
    | .literal value => .ok (literalText value)
    | _ => .error (tree.unexpected .literalValue)
  | .member, [] =>
    match tree.head.payload with
    | .member owner _ lane => do
      return (← scope.resolve tree.id owner).spelling ++ "." ++ lane.accessor
    | _ => .error (tree.unexpected .memberReference)
  | .index, [] => .ok "ivec2(gl_FragCoord.xy)"
  | .normalizedIndex, [] => .ok "(gl_FragCoord.xy / vec2(dispatch_size))"
  | .cast, _ :: _ | .constructor, _ :: _ => do
    return callText (← tree.spell tree.type) operands
  | .function, _ => do
    let (builtin, _) ← tree.builtinCall
    return builtinText builtin operands
  | .sample1d, [buffer, index] => .ok (callText "texelFetch" [buffer, index] ++ swizzle tree.type.lanes)
  | .sample2d, [buffer, x, y] =>
    .ok (callText "texelFetch" [buffer, callText "ivec2" [x, y]] ++ swizzle tree.type.lanes)
  | kind, [operand] =>
    match UnaryOp.ofKind? kind with
    | some op => .ok (op.sign ++ "(" ++ operand ++ ")")
    | none => .error tree.malformed
  | kind, [left, right] =>
    match BinaryOp.ofKind? kind with
    | some op => .ok ("(" ++ left ++ " " ++ op.sign ++ " " ++ right ++ ")")
    | none => .error tree.malformed
  | _, _ => .error tree.malformed

section Texts

variable {scope : Scope} {tree : Tree}

/-- The texts of arguments are separated by commas. -/
theorem textAll_eq (exprs : List Expr) : Expr.textAll exprs = ", ".intercalate (exprs.map Expr.text) := by
  induction exprs with
  | nil => rfl
  | cons expr exprs ih =>
    cases exprs with
    | nil => rw [Expr.textAll, List.map_cons, List.map_nil, String.intercalate_singleton]
    | cons next exprs =>
      rw [List.map_cons, List.map_cons, String.intercalate_cons_cons, ← List.map_cons, ← ih]
      rfl

/-- The text of a call is made from the texts of its arguments. -/
theorem text_call (function : String) (exprs : List Expr) :
    (Expr.call function exprs).text = callText function (exprs.map Expr.text) := by
  rw [Expr.text, textAll_eq, callText]

/-- The text of a call of a built-in function is made from the texts of its arguments. -/
theorem text_builtin (builtin : Builtin) (exprs : List Expr) :
    (Expr.builtin builtin exprs).text = builtinText builtin (exprs.map Expr.text) := by
  cases builtin with
  | index | normalizedIndex => rfl
  | _ => exact text_call _ exprs

/-- The text of a texel ends with the lanes that are kept. -/
theorem text_texel (type : ValueType) (fetched : Expr) : (Expr.texel type fetched).text = fetched.text ++ swizzle type.lanes := by
  unfold Expr.texel swizzle
  cases texelLanes? type.lanes with
  | none => simp
  | some lanes => rw [Expr.text, String.append_assoc]

/-- The text of an expression made from a result is made from that result. -/
theorem map_text_bind {α : Type} (x : Except GenerateError α) (f : α → Expr) :
    (x >>= fun a => .ok (f a)).map Expr.text = x >>= fun a => .ok (f a).text := by
  cases x <;> rfl

/-- The text of a cast or a constructor is that of a call of the name of its type. -/
theorem renderText_convert (hk : tree.kind = .cast ∨ tree.kind = .constructor) {texts : List String} (hne : texts ≠ []) :
    renderText scope tree texts = tree.spell tree.type >>= fun name => .ok (callText name texts) := by
  obtain ⟨text, rest, rfl⟩ := List.exists_cons_of_ne_nil hne
  unfold renderText
  rcases hk with hk | hk <;> rw [hk] <;> rfl

/-- The text of a call is that of a call of its function. -/
theorem renderText_function (hk : tree.kind = .function) (texts : List String) :
    renderText scope tree texts = tree.builtinCall >>= fun call => .ok (builtinText call.1 texts) := by
  unfold renderText
  rw [hk]
  rfl

/-- The text of a node that is put together depends on its operands by their texts. -/
theorem text_render (scope : Scope) (tree : Tree) (exprs : List Expr) :
    (render scope tree exprs).map Expr.text = renderText scope tree (exprs.map Expr.text) := by
  -- the two forms that take any number of operands come first, the others by that number
  by_cases hf : tree.kind = .function
  · rw [render_function hf, renderText_function hf, map_text_bind]
    simp only [text_builtin]
  by_cases hc : (tree.kind = .cast ∨ tree.kind = .constructor) ∧ exprs ≠ []
  · rw [render_convert hc.1 hc.2, renderText_convert hc.1 (by simpa using hc.2), map_text_bind]
    simp only [text_call]
  unfold render renderText
  generalize tree.kind = kind at hf hc ⊢
  rcases exprs with _ | ⟨a, _ | ⟨b, _ | ⟨c, _ | ⟨d, exprs⟩⟩⟩⟩
  · cases kind with
    | var => cases tree.symbolOf with
      | error error => rfl
      | ok symbol => exact map_text_bind _ _
    | literal => cases tree.head.payload <;> rfl
    | member => cases tree.head.payload with
      | member owner ownerType lane => exact map_text_bind _ _
      | _ => rfl
    | function => exact absurd rfl hf
    | _ => rfl
  · cases kind with
    | cast | constructor | function => simp at hf hc
    | _ => rfl
  · cases kind with
    | cast | constructor | function => simp at hf hc
    | sample1d => exact congrArg Except.ok ((text_texel tree.type _).trans (by simp [text_call]))
    | _ => rfl
  · cases kind with
    | cast | constructor | function => simp at hf hc
    | sample2d => exact congrArg Except.ok ((text_texel tree.type _).trans (by simp [text_call]))
    | _ => rfl
  · cases kind with
    | cast | constructor | function => simp at hf hc
    | _ => rfl

end Texts

/-- The text of the expression that the walk makes is the one that the recursion makes. -/
theorem text_expression (scope : Scope) (tree : Tree) :
    (expression scope tree).map Expr.text = tree.recurse (renderText scope) :=
  Tree.map_eq_recurse (expression_eq scope) (text_render scope) tree

/-! ## The stack -/

/-- The tasks are right for the stack: done in their turn, on the trees instead of their expressions, they leave `root` alone. A
node that is put together takes its own operands from the top. -/
def Ready (root : Tree) : (done : List Tree) → List Task → Prop
  | done, [] => done = [root]
  | done, .visit tree :: rest => Ready root (tree :: done) rest
  | done, .render tree count :: rest => ∃ operands below, tree.operands = .ok operands ∧ operands.length = count ∧
    done = operands.reverse ++ below ∧ Ready root (tree :: below) rest

/-- After the visits of trees in a row their results lie on the stack, the last one on top. -/
theorem ready_visits {root : Tree} (trees : List Tree) (rest : List Task) : ∀ done : List Tree,
    Ready root done (trees.map .visit ++ rest) ↔ Ready root (trees.reverse ++ done) rest := by
  induction trees with
  | nil => exact fun done => Iff.rfl
  | cons tree trees ih =>
    intro done
    rw [List.map_cons, List.cons_append, Ready, ih, List.reverse_cons, List.append_assoc, List.singleton_append]

/-- A point of the walk over `root`: the stack holds the expressions of trees that the tasks are right for. -/
def Underway (scope : Scope) (root : Tree) (point : List Expr × List Task) : Prop :=
  ∃ done, List.Forall₂ (fun tree expr => expression scope tree = .ok expr) done point.1 ∧ Ready root done point.2

section Stack

variable {scope : Scope} {root : Tree}

/-- A node that is put together has its operands on top of the stack, and what is below them is left to the other tasks. -/
theorem Underway.operands {finished : List Expr} {node : Tree} {count : Nat} {rest : List Task}
    (h : Underway scope root (finished, .render node count :: rest)) :
    ∃ operands below, node.operands = .ok operands ∧ operands.length = count ∧ count ≤ finished.length ∧
      operands.mapM (expression scope) = .ok (finished.take count).reverse ∧
      List.Forall₂ (fun tree expr => expression scope tree = .ok expr) below (finished.drop count) ∧
      Ready root (node :: below) rest := by
  obtain ⟨done, hdone, operands, below, hops, hlen, rfl, hready⟩ := h
  have hlen' : operands.reverse.length = count := by rw [List.length_reverse, hlen]
  have hfront := List.forall₂_take count hdone
  have hback := List.forall₂_drop count hdone
  rw [List.take_left' hlen'] at hfront
  rw [List.drop_left' hlen'] at hback
  refine ⟨operands, below, hops, hlen, ?_, ?_, hback, hready⟩
  · have hlength : (operands.reverse ++ below).length = finished.length := hdone.length_eq
    rw [List.length_append, hlen'] at hlength
    omega
  · refine mapM_eq_ok_iff.2 ?_
    rw [← List.forall₂_reverse_iff, List.reverse_reverse]
    exact hfront

/-- The walk starts underway. -/
theorem underway_start (scope : Scope) (root : Tree) : Underway scope root ([], [.visit root]) :=
  ⟨[], .nil, rfl⟩

/-- A step of the walk stays underway. -/
theorem Underway.step {point point' : List Expr × List Task} (h : Underway scope root point)
    (hm : Worklist.Moves (perform scope) point point') : Underway scope root point' := by
  obtain ⟨rest, hp⟩ := hm
  rename_i finished finished' task next
  cases task with
  | visit tree =>
    obtain ⟨done, hdone, hready⟩ := h
    obtain ⟨operands, hops, hp⟩ := bind_eq_ok_iff.1 hp
    cases hp
    refine ⟨done, hdone, ?_⟩
    -- coming to the operands puts them on the stack, from which the node takes them
    rw [List.append_assoc, ready_visits]
    exact ⟨operands, done, hops, rfl, rfl, hready⟩
  | render node count =>
    obtain ⟨operands, below, hops, hlen, -, hexprs, hbelow, hready⟩ := h.operands
    obtain ⟨expr, hexpr, hp⟩ := bind_eq_ok_iff.1 hp
    cases hp
    refine ⟨node :: below, .cons ?_ hbelow, hready⟩
    rw [expression_eq, hops]
    show operands.mapM (expression scope) >>= _ = _
    rw [hexprs]
    exact hexpr

/-- The walk over `root` comes to this point. -/
def Reached (scope : Scope) (root : Tree) (point : List Expr × List Task) : Prop :=
  Relation.ReflTransGen (Worklist.Moves (perform scope)) ([], [.visit root]) point

/-- At every point that the walk reaches it is underway. -/
theorem Reached.underway {point : List Expr × List Task} (h : Reached scope root point) : Underway scope root point := by
  induction h with
  | refl => exact underway_start scope root
  | tail _ hm ih => exact ih.step hm

/-- The walk ends with one expression on the stack, and the steps that it may take are enough. -/
theorem run_perform (exhausted : GenerateError) (scope : Scope) (tree : Tree) :
    Worklist.run (perform scope) exhausted (2 * tree.size) [] [.visit tree] =
      (expression scope tree).map fun expr => [expr] := by
  obtain ⟨bound, -, hrun⟩ := visits scope tree exhausted (2 * tree.size) [] [] (Nat.le_refl _)
  rw [hrun]
  cases expression scope tree with
  | error error => rfl
  | ok expr => exact Worklist.run_nil bound [expr]

end Stack

/-- At every node of an arena the walk gives the text, or the error, of the recursion over the tree of the node, in whatever scope.
It ends with that text alone on the stack, and never for want of steps. Whenever a node is put together, the stack holds at least
as many texts as the node has operands, and those that are taken are the texts of these operands in their order. -/
theorem walk_recurses (arena : Arena) (ho : arena.Owned) (id : NodeId) (hid : id.index < arena.size) (scope : Scope) :
    ∃ tree, arena.tree id = .ok tree ∧
      (expression scope tree).map Expr.text = tree.recurse (renderText scope) ∧
      (∀ exhausted, (Worklist.run (perform scope) exhausted (2 * tree.size) [] [.visit tree]).map (List.map Expr.text) =
        (tree.recurse (renderText scope)).map fun text => [text]) ∧
      (∀ finished node count rest, Reached scope tree (finished, .render node count :: rest) →
        count ≤ finished.length ∧ ∃ operands, node.operands = .ok operands ∧ operands.length = count ∧
          operands.mapM (Tree.recurse (renderText scope)) = .ok ((finished.take count).reverse.map Expr.text)) ∧
      ∀ finished, Reached scope tree (finished, []) →
        ∃ expr, finished = [expr] ∧ tree.recurse (renderText scope) = .ok expr.text := by
  obtain ⟨tree, hholds, rfl⟩ := ho.exists_tree id hid
  refine ⟨tree, ho.tree_eq_ok_iff.2 ⟨hholds, rfl⟩, text_expression scope tree, ?_, ?_, ?_⟩
  · intro exhausted
    rw [run_perform, ← text_expression]
    cases expression scope tree <;> rfl
  · intro finished node count rest hreached
    obtain ⟨operands, -, hops, hlen, hle, hexprs, -⟩ := hreached.underway.operands
    refine ⟨hle, operands, hops, hlen, ?_⟩
    rw [← map_mapM fun operand _ => text_expression scope operand, hexprs]
    rfl
  · intro finished hreached
    obtain ⟨done, hdone, rfl⟩ := hreached.underway
    obtain ⟨expr, rest, hexpr, hrest, rfl⟩ := List.forall₂_cons_left_iff.1 hdone
    obtain rfl := List.forall₂_nil_left_iff.1 hrest
    refine ⟨expr, rfl, ?_⟩
    rw [← text_expression, hexpr]
    rfl

/-- The lesser of a variable and the negative of another one. -/
def leastEdits : List Edit :=
  [.alloc { kind := .function, type := .float }, .alloc (.ofLiteral (.int Builtin.min.id)), .alloc (.ofSymbol .var .float ⟨0⟩),
    .alloc { kind := .negate, type := .float }, .alloc (.ofSymbol .var .float ⟨1⟩), .attach ⟨3⟩ ⟨4⟩, .attach ⟨0⟩ ⟨1⟩,
    .attach ⟨0⟩ ⟨2⟩, .attach ⟨0⟩ ⟨3⟩]

/-- The walk over a call, where both variables are visible and where the second one is not. -/
theorem walk_recurses_call :
    (Arena.empty.editAll leastEdits).Owned ∧ 0 < (Arena.empty.editAll leastEdits).size ∧
      ∃ tree, (Arena.empty.editAll leastEdits).tree ⟨0⟩ = .ok tree ∧
        tree.recurse (renderText ⟨[], [], [⟨0⟩, ⟨1⟩]⟩) = .ok "min(v0, -(v1))" ∧
        tree.recurse (renderText ⟨[], [], [⟨0⟩]⟩) = .error (.undeclaredSymbol ⟨4⟩ ⟨1⟩) := by
  have howned := Arena.owned_editAll leastEdits
  have hsize : 0 < (Arena.empty.editAll leastEdits).size := by decide +kernel
  have hseen : ((Arena.empty.editAll leastEdits).tree ⟨0⟩).map
      (fun tree => (expression ⟨[], [], [⟨0⟩, ⟨1⟩]⟩ tree).map Expr.text) = .ok (.ok "min(v0, -(v1))") := by decide +kernel
  have hhidden : ((Arena.empty.editAll leastEdits).tree ⟨0⟩).map
      (fun tree => (expression ⟨[], [], [⟨0⟩]⟩ tree).map Expr.text) = .ok (.error (.undeclaredSymbol ⟨4⟩ ⟨1⟩)) := by
    decide +kernel
  obtain ⟨tree, htree, htext, -⟩ := walk_recurses _ howned ⟨0⟩ hsize ⟨[], [], [⟨0⟩, ⟨1⟩]⟩
  obtain ⟨tree', htree', htext', -⟩ := walk_recurses _ howned ⟨0⟩ hsize ⟨[], [], [⟨0⟩]⟩
  obtain rfl : tree = tree' := Except.ok.inj (htree.symm.trans htree')
  rw [htree] at hseen hhidden
  exact ⟨howned, hsize, tree, htree, htext.symm.trans (Except.ok.inj hseen), htext'.symm.trans (Except.ok.inj hhidden)⟩

end Glsl

end ShaderTrace
