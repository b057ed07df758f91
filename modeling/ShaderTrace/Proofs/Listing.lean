import ShaderTrace.Arena.Dump
import ShaderTrace.Proofs.Copying

/-!
# What a dump shows

A dump of an arena shows the term below a node and nothing else: one line a node, from the top and from left to right, with the
level of the node and its label (`Owned.dump_eq`).
-/

namespace ShaderTrace

namespace Term

/-- The function that a call calls. -/
def called? (term : Term) : Option Builtin :=
  match term.kind, term.children with
  | .function, first :: _ =>
    match first.head.payload with
    | .literal (.int id) => Builtin.ofId? id
    | _ => none
  | _, _ => none

def label (style : DumpStyle) (term : Term) : String :=
  Word.renderAll style.coloured (Word.ofHead style.types term.head term.called?)

mutual

/-- The nodes of a term from the top and from left to right, each with its level. -/
def rows (level : Nat) : Term → List (Nat × Term)
  | node head children => (level, node head children) :: rowsAll (level + 1) children

def rowsAll (level : Nat) : List Term → List (Nat × Term)
  | [] => []
  | term :: terms => term.rows level ++ rowsAll level terms

end

/-- The lines of nodes. -/
def listing (style : DumpStyle) (rows : List (Nat × Term)) : String :=
  String.join (rows.map fun row => Arena.indentation row.1 ++ row.2.label style ++ "\n")

@[simp] theorem listing_nil (style : DumpStyle) : listing style [] = "" := rfl

/-- The listing of rows is the listings of its parts. -/
theorem listing_append (style : DumpStyle) (rows rows' : List (Nat × Term)) :
    listing style (rows ++ rows') = listing style rows ++ listing style rows' := by
  rw [listing, List.map_append, String.join_append, listing, listing]

/-- The listing of rows starts with the line of the first one. -/
theorem listing_cons (style : DumpStyle) (row : Nat × Term) (rows : List (Nat × Term)) :
    listing style (row :: rows) = Arena.indentation row.1 ++ row.2.label style ++ "\n" ++ listing style rows := by
  rw [listing, List.map_cons, String.join_cons, listing]

end Term

namespace Arena

section Dump

variable {arena : Arena}

/-- The function that a node calls is the one that the term of its tree calls. -/
theorem called?_eq {tree : Tree} (h : arena.Holds tree) {node : Node} (hh : node.head = tree.head)
    (hc : node.children = tree.children.map Tree.id) : arena.called? node = .ok tree.term.called? := by
  have hkind : node.kind = tree.term.kind := by rw [Node.kind, hh, Tree.term_kind, Tree.kind]
  unfold called? Term.called?
  rw [hkind, hc, Tree.term_children]
  cases hcs : tree.children with
  | nil => cases tree.term.kind <;> rfl
  | cons first rest =>
    -- the number of the called function is read off the first child
    have hfirst : arena.Holds first := h.child (by rw [hcs]; exact List.mem_cons_self)
    obtain ⟨number, hn, hhead, -⟩ := get?_of_content? hfirst.content
    cases tree.term.kind with
    | function =>
      simp only [List.map_cons, find_eq_ok_iff.2 hn, bind, Except.bind, Tree.term_head, hhead]
      cases first.head.payload with
      | literal value => cases value <;> rfl
      | _ => rfl
    | _ => rfl

/-- The label of a node is that of the term of its tree. -/
theorem label_eq (style : DumpStyle) {tree : Tree} (h : arena.Holds tree) {node : Node} (hh : node.head = tree.head)
    (hc : node.children = tree.children.map Tree.id) : arena.label style node = .ok (tree.term.label style) := by
  unfold Arena.label
  rw [called?_eq h hh hc, hh, Term.label, Tree.term_head]
  rfl

/-- One step of the listing writes the line of a node, and goes on with its children one level deeper. -/
theorem dumpLine_eq (style : DumpStyle) (out : String) (level : Nat) {tree : Tree} (h : arena.Holds tree) :
    arena.dumpLine style out (tree.id, level) = .ok (out ++ indentation level ++ tree.term.label style ++ "\n",
      tree.children.map fun child => (child.id, level + 1)) := by
  obtain ⟨node, hn, hh, hc⟩ := get?_of_content? h.content
  unfold dumpLine
  show (arena.find tree.id >>= fun node => _) = _
  rw [find_eq_ok_iff.2 hn]
  show (arena.label style node >>= fun label => _) = _
  rw [label_eq style h hh hc, hc, List.map_map]
  rfl

variable (style : DumpStyle)

mutual

/-- The task of a tree comes to all its nodes, and leaves the lines of its term. -/
theorem ends_dump : ∀ (tree : Tree) (level : Nat) {out : String} {rest : List (NodeId × Nat)} {ids : List NodeId}
    {result : Except ArenaError String}, arena.Holds tree →
      Worklist.Ends (arena.dumpLine style) Prod.fst (out ++ Term.listing style (tree.term.rows level)) rest ids result →
      Worklist.Ends (arena.dumpLine style) Prod.fst out ((tree.id, level) :: rest) (tree.ids ++ ids) result
  | .node id head children, level, out, rest, ids, result, h, hrest => by
    have htext : out ++ Term.listing style ((Tree.node id head children).term.rows level) =
        out ++ indentation level ++ (Tree.node id head children).term.label style ++ "\n" ++
          Term.listing style (Term.rowsAll (level + 1) (Tree.terms children)) := by
      rw [Tree.term, Term.rows, Term.listing_cons]
      simp only [String.append_assoc]
    have hstep := dumpLine_eq style out level h
    rw [htext] at hrest
    rw [Holds] at h
    rw [Tree.ids]
    exact .task hstep (ends_dumpAll children (level + 1) h.2 hrest)

/-- The walk over trees in a row writes their lines, level by level, and then goes on. -/
theorem ends_dumpAll : ∀ (trees : List Tree) (level : Nat) {out : String} {rest : List (NodeId × Nat)} {ids : List NodeId}
    {result : Except ArenaError String}, arena.HoldsAll trees →
      Worklist.Ends (arena.dumpLine style) Prod.fst (out ++ Term.listing style (Term.rowsAll level (Tree.terms trees))) rest ids
        result →
      Worklist.Ends (arena.dumpLine style) Prod.fst out (trees.map (fun tree => (tree.id, level)) ++ rest)
        (Tree.idsAll trees ++ ids) result
  | [], level, out, rest, ids, result, _, hrest => by
    rw [Tree.terms, Term.rowsAll, Term.listing_nil, String.append_empty] at hrest
    exact hrest
  | tree :: trees, level, out, rest, ids, result, h, hrest => by
    rw [HoldsAll] at h
    rw [Tree.terms, Term.rowsAll, Term.listing_append, ← String.append_assoc] at hrest
    rw [Tree.idsAll, List.append_assoc]
    exact ends_dump tree level h.1 (ends_dumpAll trees level h.2 hrest)

end

/-- The walk that lists a tree ends. -/
theorem ends_listing {tree : Tree} (h : arena.Holds tree) :
    Worklist.Ends (arena.dumpLine style) Prod.fst "" [(tree.id, 0)] tree.ids
      (.ok (Term.listing style (tree.term.rows 0))) := by
  have hends := @ends_dump arena style tree 0 "" [] [] _ h .done
  rwa [List.append_nil, String.empty_append] at hends

/-- A dump lists the term below a node. -/
theorem Owned.dump_eq {arena : Arena} (ho : arena.Owned) {root : NodeId} {tree : Tree} (h : arena.tree root = .ok tree) :
    arena.dump style root = .ok (Term.listing style (tree.term.rows 0)) := by
  obtain ⟨hh, rfl⟩ := ho.tree_eq_ok_iff.1 h
  have hle := ho.size_le hh
  rw [← Tree.length_ids] at hle
  exact (ends_listing style hh).run_eq (.endless tree.id) (Nat.le_succ_of_le hle)

end Dump

end Arena

end ShaderTrace
