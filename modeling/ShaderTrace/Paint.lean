/-!
# Painted text

A piece of a dump has a role, and a terminal may show each role in a colour of its own.
-/

namespace ShaderTrace

/-- What a piece of a dump stands for. -/
inductive Role where
  | kind
  | type
  | symbol
  | literal
  | name
deriving DecidableEq, Repr

namespace Role

/-- The parameter of the terminal's colour sequence for the role. -/
def colour : Role → String
  | kind => "34"
  | type | symbol => "2"
  | literal => "32"
  | name => "33"

end Role

/-- The text of a role, between the sequence that sets its colour and the one that resets it if `coloured`. -/
def paint (coloured : Bool) (role : Role) (text : String) : String :=
  if coloured then "\x1b[" ++ role.colour ++ "m" ++ text ++ "\x1b[0m" else text

end ShaderTrace
