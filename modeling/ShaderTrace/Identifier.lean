/-!
# Identifiers

Which texts may name a loop, an input or an output, and which have the shape of the names that the generator gives to
local variables.
-/

namespace ShaderTrace.Identifier

def isLetter (c : Char) : Bool := 'a' ≤ c && c ≤ 'z' || 'A' ≤ c && c ≤ 'Z'

def isDigit (c : Char) : Bool := '0' ≤ c && c ≤ '9'

/-- A character that may begin an identifier. -/
def isStart (c : Char) : Bool := isLetter c || c == '_'

/-- A character that may continue an identifier. -/
def isContinue (c : Char) : Bool := isLetter c || isDigit c || c == '_'

/-- A letter or underscore, then letters, digits and underscores, all of ASCII. -/
def isIdentifierChars : List Char → Bool
  | [] => false
  | c :: cs => isStart c && cs.all isContinue

/-- Two underscores stand next to each other. -/
def hasDoubleUnderscore : List Char → Bool
  | '_' :: '_' :: _ => true
  | _ :: cs => hasDoubleUnderscore cs
  | [] => false

/-- An identifier that the target language leaves to its users: it does not begin with `gl_` and has no two underscores
in a row. -/
def isDeclarableChars (cs : List Char) : Bool :=
  isIdentifierChars cs && !"gl_".toList.isPrefixOf cs && !hasDoubleUnderscore cs

/-- The letter `v` and a decimal numeral: the form of a generated local name. -/
def isLocalChars : List Char → Bool
  | 'v' :: cs => !cs.isEmpty && cs.all isDigit
  | _ => false

def isIdentifier (name : String) : Bool := isIdentifierChars name.toList

/-- A name that an input or an output may have. -/
def isDeclarable (name : String) : Bool := isDeclarableChars name.toList

/-- A name that a generated local variable can have. -/
def isLocal (name : String) : Bool := isLocalChars name.toList

end ShaderTrace.Identifier
