import ShaderTrace.Proofs.Listing
import ShaderTrace.Proofs.Text.Layout
import ShaderTrace.Proofs.Text.Written

/-!
# Trees read off indented lines

What a dump can show of a term is its outline: its nodes with their kinds, types, payloads and names as far as they are written.
The levels of the lines alone determine which node is a child of which: all lines that follow the line of a node on deeper levels
are below it (`outline_eq_of_rows`). If no label has a line of its own or begins with a space, the lines and their levels can be
read off the text (`linesOf_listing`, `indented_inj`).
-/

namespace ShaderTrace

/-! ## Outlines -/

/-- What is shown of a payload. A literal shows its type and its text, and a lane does not show the type of its vector. -/
inductive PayloadFace where
  | none
  | symbol (symbol : SymbolId)
  | literal (type : ValueType) (text : String)
  | member (owner : SymbolId) (lane : Lane)
deriving DecidableEq

/-- What is shown of a node. -/
structure Face where
  kind : NodeKind
  type : ValueType
  payload : PayloadFace
  name : Option String
deriving DecidableEq

def Payload.face : Payload → PayloadFace
  | .none => .none
  | .symbol target => .symbol target
  | .literal value => .literal value.type value.text
  | .member owner _ lane => .member owner lane

def Head.face (head : Head) : Face := ⟨head.kind, head.type, head.payload.face, head.name⟩

/-- A tree of faces. -/
inductive Outline where
  | node (face : Face) (children : List Outline)

namespace Term

mutual

def outline : Term → Outline
  | node head children => .node head.face (outlineAll children)

def outlineAll : List Term → List Outline
  | [] => []
  | term :: terms => term.outline :: outlineAll terms

end

/-! ## Levels -/

/-- The faces of a row of nodes, each with its level. -/
def faces (rows : List (Nat × Term)) : List (Nat × Face) := rows.map fun row => (row.1, row.2.head.face)

/-- What follows does not go on at this level or deeper. -/
def EndsLevel (level : Nat) (rest : List (Nat × Face)) : Prop := ∀ row ∈ rest.head?, row.1 < level

/-- The faces of a node in rows are its own and then those of its children. -/
theorem faces_rows_node (level : Nat) (head : Head) (children : List Term) (rest : List (Nat × Face)) :
    faces ((node head children).rows level) ++ rest =
      (level, head.face) :: (faces (rowsAll (level + 1) children) ++ rest) := by
  rw [rows]
  rfl

/-- The faces of terms in a row are those of the first one and then those of the rest. -/
theorem faces_rowsAll_cons (level : Nat) (term : Term) (terms : List Term) (rest : List (Nat × Face)) :
    faces (rowsAll level (term :: terms)) ++ rest = faces (term.rows level) ++ (faces (rowsAll level terms) ++ rest) := by
  rw [rowsAll, faces, List.map_append, List.append_assoc]
  rfl

/-- The first of the faces of a term is its own. -/
theorem head?_faces (level : Nat) (term : Term) (rest : List (Nat × Face)) :
    (faces (term.rows level) ++ rest).head? = some (level, term.head.face) := by
  obtain ⟨head, children⟩ := term
  rw [faces_rows_node]
  rfl

/-- Terms on a level are no end of it, but one of every deeper level. -/
theorem ends_succ {level : Nat} {rest : List (Nat × Face)} (h : EndsLevel level rest) (terms : List Term) :
    EndsLevel (level + 1) (faces (rowsAll level terms) ++ rest) := by
  cases terms with
  | nil => exact fun row hm => Nat.lt_succ_of_lt (h row hm)
  | cons term terms =>
    intro row hm
    rw [faces_rowsAll_cons, head?_faces] at hm
    cases hm
    exact Nat.lt_succ_self level

mutual

/-- The tree below a node is what stands on deeper levels, up to the first row that does not. -/
theorem outline_eq_of_rows : ∀ (a b : Term) (level : Nat) {rest rest' : List (Nat × Face)}, EndsLevel (level + 1) rest →
    EndsLevel (level + 1) rest' → faces (a.rows level) ++ rest = faces (b.rows level) ++ rest' →
    a.outline = b.outline ∧ rest = rest'
  | .node head children, .node head' children', level, rest, rest', h, h', heq => by
    rw [faces_rows_node, faces_rows_node, List.cons.injEq, Prod.mk.injEq] at heq
    obtain ⟨hchildren, hrest⟩ := outlineAll_eq_of_rows children children' (level + 1) h h' heq.2
    rw [outline, outline, heq.1.2, hchildren]
    exact ⟨rfl, hrest⟩

/-- Terms with the same faces at the same levels have the same outlines, and what follows is the same too. -/
theorem outlineAll_eq_of_rows : ∀ (as bs : List Term) (level : Nat) {rest rest' : List (Nat × Face)}, EndsLevel level rest →
    EndsLevel level rest' → faces (rowsAll level as) ++ rest = faces (rowsAll level bs) ++ rest' →
    outlineAll as = outlineAll bs ∧ rest = rest'
  | [], [], _, _, _, _, _, heq => ⟨rfl, heq⟩
  | [], b :: bs, level, rest, rest', h, _, heq => by
    have hfirst : rest.head? = some (level, b.head.face) := by
      rw [← head?_faces level b (faces (rowsAll level bs) ++ rest'), ← faces_rowsAll_cons]
      exact congrArg List.head? heq
    exact absurd (h _ hfirst) (Nat.lt_irrefl level)
  | a :: as, [], level, rest, rest', _, h', heq => by
    have hfirst : rest'.head? = some (level, a.head.face) := by
      rw [← head?_faces level a (faces (rowsAll level as) ++ rest), ← faces_rowsAll_cons]
      exact congrArg List.head? heq.symm
    exact absurd (h' _ hfirst) (Nat.lt_irrefl level)
  | a :: as, b :: bs, level, rest, rest', h, h', heq => by
    rw [faces_rowsAll_cons, faces_rowsAll_cons] at heq
    obtain ⟨hfirst, hmore⟩ := outline_eq_of_rows a b level (ends_succ h as) (ends_succ h' bs) heq
    obtain ⟨hothers, hrest⟩ := outlineAll_eq_of_rows as bs level h h' hmore
    rw [outlineAll, outlineAll, hfirst, hothers]
    exact ⟨rfl, hrest⟩

end

/-! ## Words -/

/-- The characters of what a node carries. -/
def isPayloadChar (c : Char) : Bool := isConstantChar c || "$xyzw".toList.contains c

/-- The words of a payload consist of its characters. -/
theorem isPayloadChar_of_mem {payload : Payload} {word : Word} {c : Char} (hw : word ∈ Word.ofPayload payload)
    (hc : c ∈ (word.text ++ word.tail).toList) : isPayloadChar c = true := by
  have hconstant : ∀ c, isConstantChar c = true → isPayloadChar c = true := by
    intro c h
    rw [isPayloadChar, h, Bool.true_or]
  have hsymbol : ∀ (symbol : SymbolId) c, c ∈ (toString symbol).toList → isPayloadChar c = true := by
    intro symbol c h
    rw [show toString symbol = "$" ++ toString symbol.index from rfl, String.toList_append, List.mem_append] at h
    rcases h with h | h
    · rw [List.mem_singleton.1 h]
      rfl
    · exact hconstant c (@isConstantChar_toString c symbol.index h)
  rw [String.toList_append, List.mem_append] at hc
  cases payload with
  | none => cases hw
  | symbol symbol =>
    rw [List.mem_singleton.1 hw] at hc
    rcases hc with hc | hc
    · exact hsymbol symbol c hc
    · cases hc
  | literal value =>
    rw [List.mem_singleton.1 hw] at hc
    rcases hc with hc | hc
    · exact hconstant c (isConstantChar_text hc)
    · cases hc
  | member owner type lane =>
    have hlane : ("." ++ lane.accessor).toList.all isPayloadChar = true := by cases lane <;> decide
    rw [List.mem_singleton.1 hw] at hc
    rcases hc with hc | hc
    · exact hsymbol owner c hc
    · exact List.all_eq_true.1 hlane c hc

/-! ## Lines -/

/-- A line of a dump. -/
def lineOf (style : DumpStyle) (row : Nat × Term) : List Char :=
  List.replicate (2 * row.1) ' ' ++ (row.2.label style).toList

/-- If no label has an end of a line in it, the lines are those of the nodes. -/
theorem linesOf_listing {style : DumpStyle} {rows : List (Nat × Term)}
    (h : ∀ row ∈ rows, '\n' ∉ (row.2.label style).toList) :
    Glsl.linesOf (listing style rows) = rows.map (lineOf style) ++ [[]] := by
  induction rows with
  | nil => rfl
  | cons row rows ih =>
    have htext : (Arena.indentation row.1 ++ row.2.label style).toList = lineOf style row := by
      rw [String.toList_append, Arena.indentation, String.toList_ofList, lineOf]
    have hline : '\n' ∉ lineOf style row := by
      rw [lineOf, List.mem_append, List.mem_replicate, not_or]
      exact ⟨fun hm => absurd hm.2 (by decide), h row List.mem_cons_self⟩
    rw [← htext] at hline
    rw [listing_cons, Glsl.linesOf_line, Glsl.linesOf_of_not_mem hline, htext,
      ih fun row hm => h row (List.mem_cons_of_mem _ hm)]
    rfl

/-- Spaces and what comes after them can be told apart if that does not begin with a space. -/
theorem indented_inj {n n' : Nat} {cs cs' : List Char} (h : ' ' ∉ cs.head?) (h' : ' ' ∉ cs'.head?)
    (heq : List.replicate n ' ' ++ cs = List.replicate n' ' ' ++ cs') : n = n' ∧ cs = cs' := by
  have hdrop : ∀ {n : Nat} {cs : List Char}, ' ' ∉ cs.head? → (List.replicate n ' ' ++ cs).dropWhile (· == ' ') = cs := by
    intro n cs h
    rw [List.dropWhile_append_of_pos (by simp [List.mem_replicate])]
    cases cs with
    | nil => rfl
    | cons c cs => exact List.dropWhile_cons_of_neg (by simpa using h)
  have hcs : cs = cs' := by rw [← @hdrop n cs h, heq, hdrop h']
  subst hcs
  exact ⟨by simpa using congrArg List.length (List.append_cancel_right heq), rfl⟩

end Term

/-! ## Nodes and their levels -/

namespace Tree

mutual

/-- The trees below a tree in the order of a walk, each with its level. -/
def levels (level : Nat) : Tree → List (Nat × Tree)
  | node id head children => (level, node id head children) :: levelsAll (level + 1) children

def levelsAll (level : Nat) : List Tree → List (Nat × Tree)
  | [] => []
  | tree :: trees => tree.levels level ++ levelsAll level trees

end

mutual

/-- The rows of a term are those of its tree, with the numbers left out. -/
theorem rows_term : ∀ (tree : Tree) (level : Nat),
    tree.term.rows level = (tree.levels level).map fun row => (row.1, row.2.term)
  | node id head children, level => by
    rw [term, Term.rows, rowsAll_terms children (level + 1), levels, List.map_cons, term]

/-- The rows of terms are those of their trees, with the numbers left out. -/
theorem rowsAll_terms : ∀ (trees : List Tree) (level : Nat),
    Term.rowsAll level (terms trees) = (levelsAll level trees).map fun row => (row.1, row.2.term)
  | [], _ => rfl
  | tree :: trees, level => by
    rw [terms, Term.rowsAll, rows_term tree level, rowsAll_terms trees level, levelsAll, List.map_append]

end

mutual

/-- The numbers of a tree are those of its rows. -/
theorem ids_eq_levels : ∀ (tree : Tree) (level : Nat), tree.ids = (tree.levels level).map fun row => row.2.id
  | node id head children, level => by
    rw [ids, idsAll_eq_levels children (level + 1), levels, List.map_cons, Tree.id]

/-- The numbers of trees are those of their rows. -/
theorem idsAll_eq_levels : ∀ (trees : List Tree) (level : Nat),
    idsAll trees = (levelsAll level trees).map fun row => row.2.id
  | [], _ => rfl
  | tree :: trees, level => by
    rw [idsAll, ids_eq_levels tree level, idsAll_eq_levels trees level, levelsAll, List.map_append]

end

end Tree

namespace Arena

/-- The node is so many steps below the root. -/
inductive AtLevel (arena : Arena) (root : NodeId) : Nat → NodeId → Prop
  | root : AtLevel arena root 0 root
  | child {level : Nat} {parent id : NodeId} (h : AtLevel arena root level parent) (hu : arena.Under id parent) :
    AtLevel arena root (level + 1) id

section Levels

variable {arena : Arena} {root : NodeId}

mutual

/-- Every row of a tree is at the level that the arena gives its node. -/
theorem Owned.atLevel_levels (ho : arena.Owned) : ∀ (tree : Tree) (level : Nat), arena.Holds tree →
    arena.AtLevel root level tree.id → ∀ row ∈ tree.levels level, arena.Holds row.2 ∧ arena.AtLevel root row.1 row.2.id
  | .node id head children, level, h, hlevel, row, hm => by
    rw [Tree.levels, List.mem_cons] at hm
    rcases hm with rfl | hm
    · exact ⟨h, hlevel⟩
    · refine ho.atLevel_levelsAll children (level + 1) (fun child hc => h.child hc) (fun child hc => ?_) row hm
      have hunder : arena.Under child.id (Tree.node id head children).id := by
        rw [← ho.linked, childrenOf_eq h.content]
        exact List.mem_map_of_mem hc
      exact hlevel.child hunder

/-- Every row of trees at one level is at the level that the arena gives its node. -/
theorem Owned.atLevel_levelsAll (ho : arena.Owned) : ∀ (trees : List Tree) (level : Nat), (∀ tree ∈ trees, arena.Holds tree) →
    (∀ tree ∈ trees, arena.AtLevel root level tree.id) →
    ∀ row ∈ Tree.levelsAll level trees, arena.Holds row.2 ∧ arena.AtLevel root row.1 row.2.id
  | [], _, _, _, _, hm => by cases hm
  | tree :: trees, level, h, hlevel, row, hm => by
    rw [Tree.levelsAll, List.mem_append] at hm
    rcases hm with hm | hm
    · exact ho.atLevel_levels tree level (h tree List.mem_cons_self) (hlevel tree List.mem_cons_self) row hm
    · exact ho.atLevel_levelsAll trees level (fun other hother => h other (List.mem_cons_of_mem _ hother))
        (fun other hother => hlevel other (List.mem_cons_of_mem _ hother)) row hm

end

end Levels

end Arena

end ShaderTrace
