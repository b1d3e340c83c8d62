import Binding.Token.Cursor

/-!
# Parse errors

A parse fails in one of three ways: the source cannot be read further, the next token fits nothing
that may stand there, or the expression nests deeper than allowed.  Each error carries its cause
and the place of the lexeme where it was met; the wording is in `ParseError.message` alone.
-/

namespace Binding

/-- A kind of token that could have stood at some place. -/
inductive Expectation where
  | number
  | string
  | boolean (value : Bool)
  | null
  | identifier
  | symbol (value : Symbol)
  | endOfInput
deriving DecidableEq

namespace Expectation

/-- The wording of an expectation in messages. -/
def label : Expectation → String
  | .number => "number"
  | .string => "string"
  | .boolean value => s!"`{Token.booleanText value}`"
  | .null => "`null`"
  | .identifier => "identifier"
  | .symbol value => s!"`{value.spelling}`"
  | .endOfInput => "end of input"

/-- Whether the token is of the expected kind. -/
def admits : Expectation → Token → Bool
  | .number, .number _ => true
  | .string, .string _ => true
  | .boolean a, .boolean b => a = b
  | .null, .null => true
  | .identifier, .identifier _ => true
  | .symbol a, .symbol b => a = b
  | .endOfInput, .eof => true
  | _, _ => false

end Expectation

/-- Why an expression cannot be parsed. -/
inductive ParseError where
  /-- The next lexeme cannot be read. -/
  | lex (error : LexError)
  /-- The token at the position is none of those expected there. -/
  | unexpected (found : Token) (position : Position) (expected : List Expectation)
  /-- The lexeme at the position would begin one level of nesting too many. -/
  | nestingLimit (limit : Nat) (position : Position)
deriving DecidableEq

namespace ParseError

/-- The place that the error points to. -/
def position : ParseError → Position
  | .lex error => error.position
  | .unexpected _ position _ => position
  | .nestingLimit _ position => position

/-- The wording of the error. -/
def message : ParseError → String
  | .lex error => error.message
  | .unexpected found position expected =>
    s!"Unexpected {found.describe} at {position.label}, expected " ++
      " or ".intercalate (expected.map Expectation.label)
  | .nestingLimit limit position =>
    s!"Exceeded nesting limit of {limit} at {position.label}"

end ParseError

end Binding
