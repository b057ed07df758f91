import ShaderTrace.Arena.Walk

/-!
# Edits of an arena

The three operations that change an arena, as data. An edit that is refused changes nothing.
-/

namespace ShaderTrace

inductive Edit where
  | alloc (head : Head)
  | attach (parent child : NodeId)
  | clone (root : NodeId)

namespace Arena

/-- Carries out an edit: the node that it made, if it made one, or the reason against it, and the arena afterwards. -/
def edit (arena : Arena) : Edit → Except ArenaError (Option NodeId) × Arena
  | .alloc head =>
    let (id, arena) := arena.alloc head
    (.ok (some id), arena)
  | .attach parent child =>
    match arena.attach parent child with
    | .ok arena => (.ok none, arena)
    | .error error => (.error error, arena)
  | .clone root =>
    match arena.clone root with
    | .ok (copy, arena) => (.ok (some copy), arena)
    | .error error => (.error error, arena)

/-- The arena after a row of edits, whether or not each was refused. -/
def editAll (arena : Arena) (edits : List Edit) : Arena :=
  edits.foldl (fun arena edit => (arena.edit edit).2) arena

/-- Attaches children from left to right, until one is refused. -/
def attachAll (arena : Arena) (parent : NodeId) : List NodeId → Except ArenaError Unit × Arena
  | [] => (.ok (), arena)
  | child :: children =>
    match arena.edit (.attach parent child) with
    | (.ok _, arena) => arena.attachAll parent children
    | (.error error, arena) => (.error error, arena)

end Arena

end ShaderTrace
