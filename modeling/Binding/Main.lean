import Binding.Program.Arguments

/-!
# The program

Collects the command line, the environment and the standard input, runs the invocation on them, and
writes what it gives.
-/

namespace Binding

/-- Reads the stream to its end. -/
partial def readAll (stream : IO.FS.Stream) (before : ByteArray) : IO ByteArray := do
  let bytes ← stream.read 65536
  if bytes.isEmpty then return before else readAll stream (before ++ bytes)

/-- The standard input, unless it is a terminal. -/
def readInput : IO (Option ByteArray) := do
  let stream ← IO.getStdin
  if ← stream.isTty then return none else return some (← readAll stream .empty)

end Binding

open Binding in
/-- Runs the program. -/
def main (arguments : List String) : IO UInt32 := do
  match Invocation.ofArguments? (← IO.getEnv "BINDEXPR_CONTEXT") arguments with
  | none =>
    IO.eprint Invocation.usage
    return 2
  | some invocation =>
    let input ← if invocation.expression.isSome then pure none else readInput
    let outcome := invocation.run input
    IO.print outcome.stdout
    IO.eprint outcome.stderr
    return outcome.status.toUInt32
