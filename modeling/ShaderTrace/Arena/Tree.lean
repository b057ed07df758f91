import ShaderTrace.Arena.Basic

/-!
# The tree below a node

What an arena stands for at a node: the tree of heads that is found by following the links downwards. The nodes of the
tree keep their numbers.
-/

namespace ShaderTrace

inductive Tree where
  | node (id : NodeId) (head : Head) (children : List Tree)

namespace Tree

def id : Tree → NodeId
  | node id _ _ => id

def head : Tree → Head
  | node _ head _ => head

def children : Tree → List Tree
  | node _ _ children => children

def kind (tree : Tree) : NodeKind := tree.head.kind

def type (tree : Tree) : ValueType := tree.head.type

mutual

/-- The number of nodes. -/
def size : Tree → Nat
  | node _ _ children => 1 + sizeAll children

def sizeAll : List Tree → Nat
  | [] => 0
  | tree :: trees => tree.size + sizeAll trees

end

mutual

/-- Some node of the tree satisfies `test`. -/
def any (test : Tree → Bool) : Tree → Bool
  | tree@(node _ _ children) => test tree || anyAll test children

def anyAll (test : Tree → Bool) : List Tree → Bool
  | [] => false
  | tree :: trees => tree.any test || anyAll test trees

end

end Tree

namespace Arena

/-- The tree below a node, as far as `bound` levels reach. -/
def unfold (arena : Arena) : (bound : Nat) → NodeId → Except ArenaError Tree
  | 0, id => .error (.endless id)
  | bound + 1, id => do
    let node ← arena.find id
    let children ← node.children.mapM (arena.unfold bound)
    return .node id node.head children

/-- The tree below a node. No path in a tree is longer than the number of nodes. -/
def tree (arena : Arena) (root : NodeId) : Except ArenaError Tree :=
  arena.unfold (arena.size + 1) root

end Arena

end ShaderTrace
