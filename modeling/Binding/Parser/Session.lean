import Binding.Expr.Basic
import Binding.Parser.Progress

/-!
# Parsing

The entry points.  `Parser.parse` takes all that is left of the input and `Parser.parseExpression`
takes one expression and stops behind it; both give the parser that they leave, so that a parser
can be used again, also after an error.

`parse` applied to a source of which nothing but white space is left gives the empty expression.

## Implementation notes

The steps of the grammar count their calls.  The entry points allot `Grammar.budget`, which is
always enough, so no result of theirs is ever about a budget.
-/

namespace Binding

namespace Parser

variable {σ α : Type}

/-- Parses one expression. -/
def parseExpression (build : Builder σ α) (p : Parser σ) : Except ParseError α × Parser σ :=
  ((Grammar.ternary build (Grammar.budget p)).outcome p).get (Grammar.isSome_ternary build p)

/-- Parses an expression that takes up all that is left of the input. -/
def parse (build : Builder σ α) (p : Parser σ) : Except ParseError α × Parser σ :=
  ((Grammar.whole build (Grammar.budget p)).outcome p).get (Grammar.isSome_whole build p)

/-- A parser before the first lexeme of the source. -/
def ofSource (source : String) (allowance : Option Allowance) (built : σ) :
    Except LexError (Parser σ) :=
  ofFeed (.ofSource source) allowance built

/-- Parses a whole source with the builder, and gives the builder's last state along with the
result. -/
def run (build : Builder σ α) (allowance : Option Allowance) (built : σ) (source : String) :
    Except ParseError α × σ :=
  match ofSource source allowance built with
  | .error e => (.error (.lex e), built)
  | .ok p =>
    let (result, p) := p.parse build
    (result, p.built)

end Parser

namespace Expr

/-- The tree of a source, nested no deeper than allowed. -/
def parseWithin (allowance : Option Allowance) (source : String) : Except ParseError Expr :=
  (Parser.run builder allowance () source).1

/-- The tree of a source, under the default limit on nesting. -/
def parse (source : String) : Except ParseError Expr :=
  parseWithin (some .default) source

end Expr

end Binding
