import ShaderTrace.Glsl.Expr

/-!
# Statements of the target language

A statement is first a term, then a row of lines, each at its depth of nesting. Only the text of the lines depends on
how far a level is indented.
-/

namespace ShaderTrace.Glsl

/-- The word that begins a statement with a condition. -/
inductive Keyword where
  | «if»
  | elseIf
  | «while»
deriving DecidableEq, Repr

inductive Stmt where
  /-- A new variable with its first value. -/
  | define (type : String) (target : Variable) (value : Expr)
  /-- A new variable without a value. -/
  | declare (type : String) (target : Variable)
  | assign (target : Variable) (value : Expr)
  | assignLane (target : Variable) (lane : Lane) (value : Expr)
  | block (body : List Stmt)
  | guarded (keyword : Keyword) (condition : Expr) (body : List Stmt)
  | otherwise (body : List Stmt)
  /-- A loop that counts from `start` up to and without `stop`. -/
  | count (counter : Variable) (start stop : Expr) (body : List Stmt)

/-- A line of a shader, without its indentation. -/
structure Line where
  depth : Nat
  text : String
deriving DecidableEq

def Keyword.text : Keyword → String
  | «if» => "if"
  | elseIf => "else if"
  | «while» => "while"

/-- The depth of open parentheses after the text, unless one is closed that was not open. -/
def parenDepth? : (depth : Nat) → List Char → Option Nat
  | depth, [] => some depth
  | depth, '(' :: cs => parenDepth? (depth + 1) cs
  | 0, ')' :: _ => none
  | depth + 1, ')' :: cs => parenDepth? depth cs
  | depth, _ :: cs => parenDepth? depth cs

/-- The text without the pair of parentheses that encloses all of it, if there is one. -/
def stripParensChars (cs : List Char) : List Char :=
  match cs with
  | '(' :: rest =>
    if rest.getLast? = some ')' ∧ parenDepth? 0 rest.dropLast = some 0 then rest.dropLast else cs
  | _ => cs

def stripParens (text : String) : String := String.ofList (stripParensChars text.toList)

/-- A body between braces, which stand at the given depth. -/
def braced (depth : Nat) (body : List Line) : List Line := ⟨depth, "\x7b"⟩ :: (body ++ [⟨depth, "\x7d"⟩])

namespace Stmt

mutual

/-- The lines of a statement that stands at the given depth. -/
def lines (depth : Nat) : Stmt → List Line
  | define type target value => [⟨depth, type ++ " " ++ target.spelling ++ " = " ++ value.text ++ ";"⟩]
  | declare type target => [⟨depth, type ++ " " ++ target.spelling ++ ";"⟩]
  | assign target value => [⟨depth, target.spelling ++ " = " ++ value.text ++ ";"⟩]
  | assignLane target lane value =>
    [⟨depth, target.spelling ++ "." ++ lane.accessor ++ " = " ++ value.text ++ ";"⟩]
  | block body => braced depth (linesAll (depth + 1) body)
  | guarded keyword condition body =>
    ⟨depth, keyword.text ++ " (" ++ stripParens condition.text ++ ")"⟩ :: braced depth (linesAll (depth + 1) body)
  | otherwise body => ⟨depth, "else"⟩ :: braced depth (linesAll (depth + 1) body)
  | count counter start stop body =>
    ⟨depth, "for (int " ++ counter.spelling ++ " = " ++ start.text ++ "; " ++ counter.spelling ++ " < " ++ stop.text
      ++ "; " ++ counter.spelling ++ "++)"⟩ :: braced depth (linesAll (depth + 1) body)

/-- The lines of statements that stand at the given depth, one after the other. -/
def linesAll (depth : Nat) : List Stmt → List Line
  | [] => []
  | stmt :: stmts => stmt.lines depth ++ linesAll depth stmts

end

end Stmt

/-- A line of text, each level indented by so many spaces. -/
def Line.render (indent : Nat) (line : Line) : String :=
  String.ofList (List.replicate (indent * line.depth) ' ') ++ line.text ++ "\n"

end ShaderTrace.Glsl
