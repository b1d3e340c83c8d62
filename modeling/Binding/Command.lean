import Binding.Code.Basic
import Binding.Expr.Dump
import Binding.Json.Text

/-!
# Commands

What can be done with an expression: generate its code, check that it can be parsed, or dump its
tree.  All three look at what they are given in the same order, whether or not they need it: first
that there is an expression, then that the context is a valid one, then the expression itself.  So
they fail on the same requests, and for the same reason.
-/

namespace Binding

/-- What to do with an expression. -/
inductive Command where
  /-- Generate code. -/
  | compile
  /-- Find out whether it can be parsed. -/
  | check
  /-- Dump the tree. -/
  | ast
deriving DecidableEq, Repr

/-- A command with what it is applied to. -/
structure Request where
  command : Command
  /-- The source, if one was given. -/
  expression : Option String
  /-- The name of the context, if one was chosen. -/
  context : Option String
  /-- Whether generated code is wrapped in a JSON document. -/
  json : Bool
deriving DecidableEq

/-- Why a command fails. -/
inductive CommandError where
  /-- There is no expression. -/
  | noInput
  /-- The context is not a valid one. -/
  | context (error : ContextError)
  /-- The expression cannot be parsed. -/
  | parse (error : ParseError)
  /-- The input is not text. -/
  | notText
deriving DecidableEq

namespace CommandError

/-- The wording of the error. -/
def message : CommandError → String
  | .noInput => "No expression provided. Pass it as an argument or pipe it to stdin."
  | .context error => "Configuration error: " ++ error.message
  | .parse error => "Parse error: " ++ error.message
  | .notText => "IO error: stream did not contain valid UTF-8"

end CommandError

/-- What a command gives. -/
inductive Output where
  /-- The expression can be parsed. -/
  | valid
  /-- Generated code. -/
  | code (text : String)
  /-- A document: a tree, or generated code next to its source. -/
  | json (document : Json)

namespace Output

/-- The text of the output.  A document has a line for every part if `pretty` is set. -/
def text (pretty : Bool) : Output → String
  | .valid => "Syntax is valid"
  | .code text => text
  | .json document => if pretty then document.pretty else document.compact

end Output

/-- The document of generated code next to its source. -/
def codeDocument (source code : String) : Json :=
  .object [("code", .string code), ("expression", .string source)]

namespace Command

/-- Applies the command to a source in a context. -/
def apply (command : Command) (json : Bool) (context : Context) (source : String) :
    Except ParseError Output :=
  match command with
  | .check => (Expr.parse source).map fun _ => .valid
  | .ast => (Expr.parse source).map fun tree => .json tree.toJson
  | .compile => (Binding.compile context source).map fun code =>
      if json then .json (codeDocument source code) else .code code

end Command

namespace Request

/-- Carries the request out. -/
def execute (request : Request) : Except CommandError Output := do
  let source ← request.expression.elim (.error .noInput) .ok
  let context ← (Context.choose request.context).mapError .context
  (request.command.apply request.json context source).mapError .parse

end Request

end Binding
