import ShaderTrace.Arena.Walk
import ShaderTrace.Builtin
import ShaderTrace.Paint

/-!
# Dumps

The nodes below a node as text: one line a node, two spaces of indentation a level; or as a graph in the DOT language. A
label is a row of words, and each word has a role that decides its colour.
-/

namespace ShaderTrace

/-- A word of a label. Its tail stays without colour. -/
structure Word where
  role : Role
  text : String
  tail : String := ""

/-- What a dump shows beside the heads of the nodes. -/
structure DumpStyle where
  types : Bool := false
  coloured : Bool := false

/-- The forms of a dump. -/
inductive DumpForm where
  | lines
  | graph
deriving DecidableEq

namespace Word

def render (coloured : Bool) (word : Word) : String := paint coloured word.role word.text ++ word.tail

/-- Words one after the other, each but the first after a space. -/
def renderAll (coloured : Bool) (words : List Word) : String :=
  " ".intercalate (words.map (render coloured))

/-- The words of a payload. -/
def ofPayload : Payload → List Word
  | .none => []
  | .symbol symbol => [⟨.symbol, toString symbol, ""⟩]
  | .literal value => [⟨.literal, value.text, ""⟩]
  | .member owner _ lane => [⟨.symbol, toString owner, "." ++ lane.accessor⟩]

/-- The words of a label: kind, type unless void, payload, called function and name, as far as they are there. -/
def ofHead (types : Bool) (head : Head) (called : Option Builtin) : List Word :=
  [⟨.kind, head.kind.name, ""⟩]
    ++ (if types && !head.type.isVoid then [⟨.type, head.type.text, ""⟩] else [])
    ++ ofPayload head.payload
    ++ called.toList.map (fun builtin => ⟨.literal, builtin.name, ""⟩)
    ++ head.name.toList.map (fun name => ⟨.name, "\"" ++ name ++ "\"", ""⟩)

end Word

namespace Arena

/-- The function that a call node calls: its first child is the literal of the function's number. -/
def called? (arena : Arena) (node : Node) : Except ArenaError (Option Builtin) :=
  match node.kind, node.children with
  | .function, first :: _ => do
    match (← arena.find first).head.payload with
    | .literal (.int id) => return Builtin.ofId? id
    | _ => return none
  | _, _ => return none

def label (arena : Arena) (style : DumpStyle) (node : Node) : Except ArenaError String := do
  let called ← arena.called? node
  return Word.renderAll style.coloured (Word.ofHead style.types node.head called)

def indentation (level : Nat) : String := String.ofList (List.replicate (2 * level) ' ')

/-- One line is written; the lines of the children are next, one level deeper. -/
def dumpLine (arena : Arena) (style : DumpStyle) (out : String) (task : NodeId × Nat) :
    Except ArenaError (String × List (NodeId × Nat)) := do
  let (id, level) := task
  let node ← arena.find id
  let label ← arena.label style node
  return (out ++ indentation level ++ label ++ "\n", node.children.map (·, level + 1))

/-- The nodes below a node, one line each. -/
def dump (arena : Arena) (style : DumpStyle) (root : NodeId) : Except ArenaError String :=
  Worklist.run (arena.dumpLine style) (.endless root) (arena.size + 1) "" [(root, 0)]

/-- A backslash before every backslash and every quote. -/
def escapeChars : List Char → List Char
  | [] => []
  | c :: cs => if c = '\\' ∨ c = '"' then '\\' :: c :: escapeChars cs else c :: escapeChars cs

def escape (text : String) : String := String.ofList (escapeChars text.toList)

/-- The entry of a node in a graph, and after it one entry an edge to each of its children. -/
def dotEntry (arena : Arena) (types : Bool) (id : NodeId) : Except ArenaError String := do
  let node ← arena.find id
  let label ← arena.label { types } node
  let vertex := s!"  n{id.index} [label=\"" ++ escape label ++ "\"];\n"
  return node.children.foldl (fun out child => out ++ s!"  n{id.index} -> n{child.index};\n") vertex

/-- The nodes below a node as a directed graph, never coloured. -/
def dot (arena : Arena) (types : Bool) (root : NodeId) : Except ArenaError String := do
  let ids ← arena.preorder root
  let entries ← ids.mapM (arena.dotEntry types)
  return "digraph ast \x7b\n" ++ String.join entries ++ "\x7d\n"

/-- The nodes below a node in one of the forms. -/
def print (arena : Arena) (form : DumpForm) (style : DumpStyle) (root : NodeId) : Except ArenaError String :=
  match form with
  | .lines => arena.dump style root
  | .graph => arena.dot style.types root

end Arena

end ShaderTrace
