import ShaderTrace.Literal
import ShaderTrace.Node.Kind

/-!
# Nodes

What a node of a recorded kernel says, and what names it. The head of a node is all that it says by itself: its kind, its
type, its payload and its name. Its links to other nodes belong to the arena.
-/

namespace ShaderTrace

/-- The number of a node in its arena. -/
structure NodeId where
  index : Nat
deriving DecidableEq, Repr

instance : ToString NodeId := ⟨fun id => "#" ++ toString id.index⟩

/-- The number of a variable, an input or an output in its session. -/
structure SymbolId where
  index : Nat
deriving DecidableEq, Repr

instance : ToString SymbolId := ⟨fun symbol => "$" ++ toString symbol.index⟩

/-- A lane of a vector. -/
inductive Lane where
  | x
  | y
  | z
  | w
deriving DecidableEq, Repr

namespace Lane

def index : Lane → Nat
  | x => 0
  | y => 1
  | z => 2
  | w => 3

def ofIndex? : Nat → Option Lane
  | 0 => some x
  | 1 => some y
  | 2 => some z
  | 3 => some w
  | _ => none

/-- The letter that selects the lane. -/
def accessor : Lane → String
  | x => "x"
  | y => "y"
  | z => "z"
  | w => "w"

end Lane

/-- What a node carries beside its kind and its type. -/
inductive Payload where
  | none
  /-- The symbol that is declared or referred to, or that a counted loop counts with. -/
  | symbol (symbol : SymbolId)
  | literal (value : Literal)
  /-- One lane of a variable of type `ownerType`. -/
  | member (owner : SymbolId) (ownerType : ValueType) (lane : Lane)
deriving DecidableEq

structure Head where
  kind : NodeKind
  type : ValueType
  payload : Payload := .none
  name : Option String := none
deriving DecidableEq

namespace Head

/-- A reference to, or a declaration of, a symbol. -/
def ofSymbol (kind : NodeKind) (type : ValueType) (symbol : SymbolId) : Head :=
  { kind, type, payload := .symbol symbol }

def ofLiteral (value : Literal) : Head :=
  { kind := .literal, type := value.type, payload := .literal value }

def ofMember (type : ValueType) (owner : SymbolId) (ownerType : ValueType) (lane : Lane) : Head :=
  { kind := .member, type, payload := .member owner ownerType lane }

def named (head : Head) (name : String) : Head := { head with name := some name }

def symbol? (head : Head) : Option SymbolId :=
  match head.payload with
  | .symbol symbol => some symbol
  | _ => none

def literal? (head : Head) : Option Literal :=
  match head.payload with
  | .literal value => some value
  | _ => none

end Head

/-- A node in an arena: its head and its links to its children and to the node it belongs to. -/
structure Node where
  head : Head
  children : List NodeId := []
  parent : Option NodeId := none
deriving DecidableEq

namespace Node

def kind (node : Node) : NodeKind := node.head.kind

end Node

end ShaderTrace
