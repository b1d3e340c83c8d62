import Binding.Command
import Binding.Text.Trim

/-!
# One run of the program

A run is a function of how the program was started and of its standard input.  It gives what is
written to the two output streams and the exit status.

* The expression is taken from the command line; if there is none there, it is all of the standard
  input without the line ends that close it.
* The context is taken from the command line, else from the environment.  Commands other than
  `compile` have no context to choose, and neither source counts for them.
* An output goes to the standard output, an error to the standard error with exit status 1.  A line
  feed follows either.
-/

namespace Binding

/-- How the program was started. -/
structure Invocation where
  command : Command
  /-- The expression on the command line. -/
  expression : Option String
  /-- The context on the command line. -/
  context : Option String
  /-- The context in the environment. -/
  environmentContext : Option String
  json : Bool
  pretty : Bool

/-- What a run leaves behind. -/
structure Outcome where
  status : UInt8
  stdout : String
  stderr : String
deriving DecidableEq

namespace Invocation

/-- Whether the character belongs to a line end. -/
def isLineEnd (c : Char) : Bool :=
  c = '\r' || c = '\n'

/-- The expression that the standard input holds. -/
def expressionOfInput (input : ByteArray) : Except CommandError String :=
  match String.fromUTF8? input with
  | some text => .ok (String.ofList (Text.dropTrailing isLineEnd text.toList))
  | none => .error .notText

/-- The expression of the run.  Without an expression on the command line and without an input to
read from there is none. -/
def source (i : Invocation) (input : Option ByteArray) : Except CommandError (Option String) :=
  match i.expression, input with
  | some expression, _ => .ok (some expression)
  | none, some bytes => (expressionOfInput bytes).map some
  | none, none => .ok none

/-- The request that the program was started with. -/
def request (i : Invocation) (expression : Option String) : Request :=
  match i.command with
  | .compile => ⟨.compile, expression, i.context.or i.environmentContext, i.json⟩
  | command => ⟨command, expression, none, false⟩

/-- The output of the run. -/
def output (i : Invocation) (input : Option ByteArray) : Except CommandError Output := do
  (i.request (← i.source input)).execute

/-- Runs the program on its standard input; there is none if it is a terminal. -/
def run (i : Invocation) (input : Option ByteArray) : Outcome :=
  match i.output input with
  | .ok output => ⟨0, output.text i.pretty ++ "\n", ""⟩
  | .error e => ⟨1, "", e.message ++ "\n"⟩

end Invocation

end Binding
