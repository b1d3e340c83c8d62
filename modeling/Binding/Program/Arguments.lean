import Binding.Program.Basic

/-!
# The command line

```
compile [-c NAME | --context NAME | --context=NAME] [--json] [-p | --pretty] [EXPRESSION]
check   [EXPRESSION]
ast     [-p | --pretty] [EXPRESSION]
```

Options and the expression may come in any order.  After `--` everything is an expression, so that
one may begin with a dash.
-/

namespace Binding

namespace Command

/-- The command of a name. -/
def ofName? : String → Option Command
  | "compile" => some .compile
  | "check" => some .check
  | "ast" => some .ast
  | _ => none

/-- Whether the command can write a document. -/
def hasDocument : Command → Bool
  | .compile | .ast => true
  | .check => false

end Command

namespace Invocation

/-- A command started without options. -/
def bare (command : Command) (environmentContext : Option String) : Invocation where
  command := command
  expression := none
  context := none
  environmentContext := environmentContext
  json := false
  pretty := false

/-- The invocation with an expression, of which there can be one only. -/
def withExpression? (i : Invocation) (expression : String) : Option Invocation :=
  if i.expression.isNone then some { i with expression := some expression } else none

/-- Whether an argument is an option and not an expression. -/
def isOption (argument : String) : Bool :=
  argument.startsWith "-" && argument ≠ "-"

/-- The name in an argument `--context=NAME`. -/
def attachedContext? (argument : String) : Option String :=
  if argument.startsWith "--context=" then
    some (String.ofList (argument.toList.drop "--context=".length))
  else none

/-- Reads the arguments after the command. -/
def readArguments (i : Invocation) : List String → Option Invocation
  | [] => some i
  | ["--"] => some i
  | ["--", expression] => i.withExpression? expression
  | "-c" :: name :: rest | "--context" :: name :: rest =>
    if i.command = .compile then readArguments { i with context := some name } rest else none
  | argument :: rest =>
    if let some name := attachedContext? argument then
      if i.command = .compile then readArguments { i with context := some name } rest else none
    else if argument = "--json" then
      if i.command = .compile then readArguments { i with json := true } rest else none
    else if argument = "-p" ∨ argument = "--pretty" then
      if i.command.hasDocument then readArguments { i with pretty := true } rest else none
    else if isOption argument then none
    else (i.withExpression? argument).bind fun i => readArguments i rest

/-- The invocation that a command line stands for. -/
def ofArguments? (environmentContext : Option String) : List String → Option Invocation
  | [] => none
  | name :: rest =>
    (Command.ofName? name).bind fun command => (bare command environmentContext).readArguments rest

/-- What to say when a command line stands for no invocation. -/
def usage : String :=
  "Usage: compile [--context NAME] [--json] [--pretty] [EXPRESSION]\n" ++
  "       check [EXPRESSION]\n" ++
  "       ast [--pretty] [EXPRESSION]\n"

end Invocation

end Binding
