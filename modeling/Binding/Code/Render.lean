import Binding.Expr.Basic
import Binding.Text.Quoted
import Binding.Token.Basic

/-!
# Generated code

`Expr.render` writes an expression as JavaScript.

* A bare name is a member of the context, and `this` is the context itself.
* A string is written in double quotes, whatever quotes the source used.
* A pipe is a call: the filter on the right is applied to the value on the left.
* A hole in a list and a missing value in a map are written `null`.
* Parentheses are written where the source has them, and nowhere else.
-/

namespace Binding

/-- The code of a constant. -/
def Literal.render : Literal → String
  | .string value => Text.doubleQuoted value
  | .number value => value.text
  | .boolean value => Token.booleanText value
  | .null => "null"

namespace Expr

/-- What the method of a call adds to its receiver. -/
def renderMethod : Option String → String
  | none => ""
  | some name => "." ++ name

mutual

/-- The code of an expression that reads bare names off `context`. -/
def render (context : String) : Expr → String
  | .empty => ""
  | .literal value => value.render
  | .identifier name => if name = "this" then context else context ++ "." ++ name
  | .unary op operand => op.spelling ++ render context operand
  | .binary op left right =>
    if op = .pipe then render context right ++ "(" ++ render context left ++ ")"
    else render context left ++ " " ++ op.spelling ++ " " ++ render context right
  | .getter receiver name => render context receiver ++ "." ++ name
  | .invoke receiver method none => render context receiver ++ renderMethod method ++ "()"
  | .invoke receiver method (some args) =>
    render context receiver ++ renderMethod method ++ "(" ++
      ",".intercalate (renderArguments context args) ++ ")"
  | .paren child => "(" ++ render context child ++ ")"
  | .index receiver argument =>
    render context receiver ++ "[" ++ render context argument ++ "]"
  | .ternary condition whenTrue whenFalse =>
    render context condition ++ " ? " ++ render context whenTrue ++ " : " ++
      render context whenFalse
  | .map entries => "\x7b" ++ ", ".intercalate (renderEntries context entries) ++ "\x7d"
  | .list items => "[" ++ ", ".intercalate (renderItems context items) ++ "]"

/-- The code of each argument of a call. -/
def renderArguments (context : String) : List Expr → List String
  | [] => []
  | argument :: rest => render context argument :: renderArguments context rest

/-- The code of each entry of a map. -/
def renderEntries (context : String) : List (String × Option Expr) → List String
  | [] => []
  | (key, none) :: rest =>
    (Text.doubleQuoted key ++ ": null") :: renderEntries context rest
  | (key, some value) :: rest =>
    (Text.doubleQuoted key ++ ": " ++ render context value) :: renderEntries context rest

/-- The code of each item of a list. -/
def renderItems (context : String) : List (Option Expr) → List String
  | [] => []
  | none :: rest => "null" :: renderItems context rest
  | some item :: rest => render context item :: renderItems context rest

end

end Expr

end Binding
