import ShaderTrace.Arena.Basic

/-!
# Walks over an arena

The nodes below a node in preorder, and a detached copy of them. Both walks keep their own stack, and the number of nodes
bounds them: nothing is met twice because every node belongs to at most one other. One step more than there are nodes is
allowed, so that a walk over no nodes still finds that its first one is missing.
-/

namespace ShaderTrace.Arena

/-- One node is visited; its children are next. -/
def visit (arena : Arena) (visited : Array NodeId) (id : NodeId) : Except ArenaError (Array NodeId × List NodeId) := do
  let node ← arena.find id
  return (visited.push id, node.children)

/-- The node and all nodes below it: each before its children, and the children from left to right. -/
def preorder (arena : Arena) (root : NodeId) : Except ArenaError (List NodeId) := do
  let visited ← Worklist.run arena.visit (.endless root) (arena.size + 1) #[] [root]
  return visited.toList

/-- A new node with the head of `source`, the last child of `parent`. -/
def allocUnder (arena : Arena) (head : Head) (parent : NodeId) : NodeId × Arena :=
  let (copy, arena) := arena.alloc head
  (copy, arena.link parent copy)

/-- One node is copied under the copy of its parent; its children are next. -/
def copyStep (arena : Arena) (task : NodeId × NodeId) : Except ArenaError (Arena × List (NodeId × NodeId)) := do
  let (source, parent) := task
  let node ← arena.find source
  let (copy, arena) := arena.allocUnder node.head parent
  return (arena, node.children.map (·, copy))

/-- A copy of a node and of all nodes below it. The copy belongs to no node. -/
def clone (arena : Arena) (root : NodeId) : Except ArenaError (NodeId × Arena) := do
  let node ← arena.find root
  let (copy, extended) := arena.alloc node.head
  let arena ← Worklist.run copyStep (.endless root) arena.size extended (node.children.map (·, copy))
  return (copy, arena)

end ShaderTrace.Arena
