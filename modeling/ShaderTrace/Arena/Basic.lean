import ShaderTrace.Node.Basic
import ShaderTrace.Worklist

/-!
# Arenas

An arena holds the nodes of one recording. Nodes are never removed: a node is allocated detached, attached at most once,
and keeps its head for ever. Every node belongs to at most one other node.
-/

namespace ShaderTrace

structure Arena where
  nodes : Array Node := #[]

/-- Why an arena refuses an operation. -/
inductive ArenaError where
  | unknownNode (node : NodeId)
  | arityExceeded (parent : NodeId) (kind : NodeKind) (max : Nat)
  | alreadyAttached (child parent : NodeId)
  | sealed (parent : NodeId) (kind : NodeKind)
  | cycle (parent child : NodeId)
  /-- The walk from a node met more nodes than there are. -/
  | endless (node : NodeId)
deriving DecidableEq

namespace ArenaError

def message : ArenaError → String
  | unknownNode node => s!"Ast: node {node} not found (NodeIds must come from the same Ast)"
  | arityExceeded parent kind max => s!"{kind} node {parent} already holds its maximum of {max} children"
  | alreadyAttached child parent => s!"node {child} already belongs to {parent}"
  | sealed parent kind => s!"{kind} node {parent} is sealed"
  | cycle parent child => s!"attaching {child} under {parent} would create a cycle"
  | endless node => s!"the walk from node {node} does not end"

end ArenaError

namespace Arena

/-- The arena without nodes. -/
def empty : Arena := {}

def size (arena : Arena) : Nat := arena.nodes.size

def get? (arena : Arena) (id : NodeId) : Option Node := arena.nodes[id.index]?

/-- The node with this number. -/
def find (arena : Arena) (id : NodeId) : Except ArenaError Node :=
  match arena.get? id with
  | some node => .ok node
  | none => .error (.unknownNode id)

/-- A new node without links, at the end of the arena. -/
def alloc (arena : Arena) (head : Head) : NodeId × Arena :=
  (⟨arena.size⟩, { nodes := arena.nodes.push { head } })

def parent? (arena : Arena) (id : NodeId) : Option NodeId := (arena.get? id).bind (·.parent)

/-- The node itself and the nodes it belongs to, directly or through others, as far as `bound` steps reach. -/
def ancestors (arena : Arena) : (bound : Nat) → NodeId → List NodeId
  | 0, _ => []
  | bound + 1, id => id :: ((arena.parent? id).map (arena.ancestors bound)).getD []

/-- Makes `child` the last child of `parent`. -/
def link (arena : Arena) (parent child : NodeId) : Arena where
  nodes := (arena.nodes.modify child.index fun node => { node with parent := some parent }).modify parent.index
    fun node => { node with children := node.children ++ [child] }

/-- A parent must have room for one more child. -/
def checkRoom (id : NodeId) (node : Node) : Except ArenaError Unit :=
  match node.kind.arity.max with
  | some max => if max ≤ node.children.length then .error (.arityExceeded id node.kind max) else .ok ()
  | none => .ok ()

/-- A node that has been attached takes no further children unless it is a block. -/
def checkUnsealed (id : NodeId) (node : Node) : Except ArenaError Unit :=
  if node.parent.isSome && !node.kind.isBlock then .error (.sealed id node.kind) else .ok ()

/-- A child must belong to no other node. -/
def checkDetached (id : NodeId) (node : Node) : Except ArenaError Unit :=
  match node.parent with
  | some parent => .error (.alreadyAttached id parent)
  | none => .ok ()

/-- A child must not be a node that the parent belongs to, nor the parent itself. -/
def checkAcyclic (arena : Arena) (parent child : NodeId) : Except ArenaError Unit :=
  if (arena.ancestors arena.size parent).contains child then .error (.cycle parent child) else .ok ()

/-- The reasons against attaching `child` to `parent`, in the order in which they count. -/
def checkAttach (arena : Arena) (parent child : NodeId) : Except ArenaError Unit := do
  let parentNode ← arena.find parent
  checkRoom parent parentNode
  checkUnsealed parent parentNode
  let childNode ← arena.find child
  checkDetached child childNode
  arena.checkAcyclic parent child

/-- Attaches `child` as the last child of `parent`. -/
def attach (arena : Arena) (parent child : NodeId) : Except ArenaError Arena := do
  arena.checkAttach parent child
  return arena.link parent child

end Arena

end ShaderTrace
