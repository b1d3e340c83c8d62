import Binding.Number
import Binding.Operator
import Binding.Position
import Binding.Text.Visible

/-!
# Tokens and lexemes

A token is a word of the expression language with its value: a string token holds the decoded
text, a number token the number.  A lexeme is a token at its place in a source, together with the
text that spells it there.
-/

namespace Binding

/-- A word of the expression language. -/
inductive Token where
  | number (value : Number)
  /-- A string, decoded. -/
  | string (value : String)
  | boolean (value : Bool)
  | null
  /-- A name that is not one of the words `true`, `false` and `null`. -/
  | identifier (name : String)
  | symbol (value : Symbol)
  /-- The end of the input. -/
  | eof
deriving DecidableEq

namespace Token

/-- The words for the two truth values. -/
def booleanText (value : Bool) : String :=
  if value then "true" else "false"

/-- The wording of a token in messages. -/
def describe : Token → String
  | .number value => s!"number `{value.text}`"
  | .string value => s!"string {Text.visible value}"
  | .boolean value => s!"`{booleanText value}`"
  | .null => "`null`"
  | .identifier name => s!"identifier `{name}`"
  | .symbol value => s!"`{value.spelling}`"
  | .eof => "end of input"

/-- The operator that the token spells before an operand. -/
def unary? : Token → Option UnaryOp
  | .symbol s => UnaryOp.ofSymbol? s
  | _ => none

/-- The operator that the token spells between two operands. -/
def binary? : Token → Option BinaryOp
  | .symbol s => BinaryOp.ofSymbol? s
  | _ => none

end Token

/-- A token at its place in the source. -/
structure Lexeme where
  token : Token
  /-- The source text of the token, with its quotes and escapes. -/
  text : String
  /-- The place of the first character of the text. -/
  position : Position
deriving DecidableEq

end Binding
