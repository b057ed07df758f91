import ShaderTrace.Program

/-!
# Manifests

A program as a JSON text, on one line or spread over many.
-/

namespace ShaderTrace

/-- The values that a manifest is made of. -/
inductive Data where
  | text (text : String)
  | number (value : Nat)
  | list (items : List Data)
  | record (fields : List (String × Data))

namespace Data

/-- A character inside a quoted text. -/
def quoteChar (c : Char) : List Char :=
  if c = '"' then ['\\', '"']
  else if c = '\\' then ['\\', '\\']
  else if c = '\n' then ['\\', 'n']
  else if c = '\r' then ['\\', 'r']
  else if c = '\t' then ['\\', 't']
  else if c.toNat = 8 then ['\\', 'b']
  else if c.toNat = 12 then ['\\', 'f']
  else if c.toNat < 32 then
    ['\\', 'u', '0', '0', Nat.digitChar (c.toNat / 16), Nat.digitChar (c.toNat % 16)]
  else [c]

def quote (text : String) : String := String.ofList ('"' :: text.toList.flatMap quoteChar ++ ['"'])

mutual

/-- The value on one line, without spaces. -/
def compact : Data → String
  | text t => quote t
  | number n => toString n
  | list items => "[" ++ ",".intercalate (compactItems items) ++ "]"
  | record fields => "\x7b" ++ ",".intercalate (compactFields fields) ++ "\x7d"

def compactItems : List Data → List String
  | [] => []
  | item :: items => item.compact :: compactItems items

def compactFields : List (String × Data) → List String
  | [] => []
  | (key, value) :: fields => (quote key ++ ":" ++ value.compact) :: compactFields fields

end

/-- Items on lines of their own between two brackets, one level deeper than the brackets. -/
def spread (level : Nat) (left right : String) (items : List String) : String :=
  if items.isEmpty then left ++ right
  else
    let inner := "\n" ++ String.ofList (List.replicate (2 * (level + 1)) ' ')
    let outer := "\n" ++ String.ofList (List.replicate (2 * level) ' ')
    left ++ inner ++ ("," ++ inner).intercalate items ++ outer ++ right

mutual

/-- The value with one item a line, each level indented by two spaces. -/
def pretty (level : Nat) : Data → String
  | text t => quote t
  | number n => toString n
  | list items => spread level "[" "]" (prettyItems (level + 1) items)
  | record fields => spread level "\x7b" "\x7d" (prettyFields (level + 1) fields)

def prettyItems (level : Nat) : List Data → List String
  | [] => []
  | item :: items => item.pretty level :: prettyItems level items

def prettyFields (level : Nat) : List (String × Data) → List String
  | [] => []
  | (key, value) :: fields => (quote key ++ ": " ++ value.pretty level) :: prettyFields level fields

end

end Data

def InputBinding.data (binding : InputBinding) : Data :=
  .record [("name", .text binding.name), ("ident", .text binding.ident), ("type", .text binding.type.text),
    ("slot", .number binding.slot)]

def OutputBinding.data (binding : OutputBinding) : Data :=
  .record [("name", .text binding.name), ("ident", .text binding.ident), ("type", .text binding.type.text),
    ("location", .number binding.location)]

/-- The manifest of a program. -/
def Program.data (program : Program) : Data :=
  .record [("source", .text program.source), ("inputs", .list (program.inputs.map (·.data))),
    ("outputs", .list (program.outputs.map (·.data)))]

end ShaderTrace
