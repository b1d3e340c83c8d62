import Binding.Code.Context
import Binding.Code.Render
import Binding.Parser.Session

/-!
# Code nodes and compilation

A code node is an expression that knows the context its names are read off, so it can write itself.
`Code.builder` makes code nodes of the nodes a parser finds; `compile` parses a source with it and
writes the root.
-/

namespace Binding

/-- An expression together with the context that its bare names are read off. -/
structure Code where
  expr : Expr
  context : String
deriving DecidableEq

namespace Code

/-- The code of the node. -/
def text (code : Code) : String :=
  code.expr.render code.context

/-- The builder of code nodes that share one context. -/
def builder (context : Context) : Builder Unit Code :=
  .ofFunction fun node => ⟨.ofNode (node.mapOperands Code.expr), context.name⟩

end Code

/-- The code of a source, under the default limit on nesting. -/
def compile (context : Context) (source : String) : Except ParseError String :=
  (Parser.run (Code.builder context) (some .default) () source).1.map Code.text

end Binding
