import ShaderTrace.Glsl.Error
import ShaderTrace.Glsl.Expr

/-!
# Scopes

What a statement of a shader sees: the spellings of inputs and outputs, which symbols are inputs, and which symbols have
a declaration in an enclosing block.
-/

namespace ShaderTrace.Glsl

/-- The inputs and outputs with their spellings, in the order of their declarations. -/
abbrev Globals := List (SymbolId × String)

structure Scope where
  globals : Globals
  inputs : List SymbolId
  visible : List SymbolId

namespace Scope

/-- The scope of the whole shader: inputs and outputs are visible. -/
def outermost (globals : Globals) (inputs : List SymbolId) : Scope where
  globals
  inputs
  visible := globals.map Prod.fst

def isVisible (scope : Scope) (symbol : SymbolId) : Bool := scope.visible.contains symbol

def isInput (scope : Scope) (symbol : SymbolId) : Bool := scope.inputs.contains symbol

/-- The scope after a declaration of `symbol`. -/
def declare (scope : Scope) (symbol : SymbolId) : Scope := { scope with visible := symbol :: scope.visible }

/-- The variable that stands for a symbol: a declared name or a local one. -/
def variableOf (scope : Scope) (symbol : SymbolId) : Variable where
  symbol
  spelling := (scope.globals.lookup symbol).getD (localName symbol)

/-- The variable that stands for a symbol that `node` reads. -/
def resolve (scope : Scope) (node : NodeId) (symbol : SymbolId) : Except GenerateError Variable :=
  if scope.isVisible symbol then .ok (scope.variableOf symbol) else .error (.undeclaredSymbol node symbol)

end Scope

end ShaderTrace.Glsl
