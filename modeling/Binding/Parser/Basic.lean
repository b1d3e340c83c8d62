import Binding.Expr.Node
import Binding.Parser.Error
import Binding.Token.Feed

/-!
# Parser states and steps

A parser holds one lexeme, the *current* one, and the feed of those after it.  It carries two more
things along: how many levels of nesting it may still open, and the state of the builder that makes
the nodes.

A `Step` is a computation on parser states that may fail.  The state outlives a failure, because a
parser can be used again after one and then goes on from where the failure left it.  A step may
also run out of its budget of calls; the entry points of the parser allot enough for that never to
happen.

## The state a failure leaves behind

Three rules fix it, and the steps below are the only places that apply them.

* A token that has been recognised is taken out before the parser moves past it, and if moving
  fails an empty stand-in remains: the end of input for a token that begins an operand
  (`takeOperand`), an empty name or an empty string for a name (`takeName`, `takeKey`).
* `nested` gives its level back on every exit.
* `spend` inside a chain is given back by `restoring`, and only when the whole chain succeeds.
-/

namespace Binding

/-- How deep an expression may nest. -/
structure Allowance where
  /-- The number of levels allowed at the start. -/
  limit : Nat
  /-- The number of levels still allowed. -/
  remaining : Nat
deriving DecidableEq

namespace Allowance

/-- The whole of a limit. -/
def full (limit : Nat) : Allowance := ⟨limit, limit⟩

/-- The limit that applies when none is chosen. -/
def default : Allowance := full 64

end Allowance

/-- The state of a parser. -/
structure Parser (σ : Type) where
  /-- The lexemes after the current one. -/
  feed : Feed
  /-- The lexeme to be parsed next. -/
  current : Lexeme
  /-- The levels of nesting left, if they are limited. -/
  allowance : Option Allowance
  /-- The state of the builder. -/
  built : σ

namespace Parser

/-- How many lexemes other than the end of input a parser can still move past, at most. -/
def size {σ : Type} (p : Parser σ) : Nat :=
  p.feed.ahead.length + if p.current.token = .eof then 0 else 1

/-- A parser before the first lexeme of the feed. -/
def ofFeed {σ : Type} (feed : Feed) (allowance : Option Allowance) (built : σ) :
    Except LexError (Parser σ) :=
  match feed.next with
  | (.ok current, feed) => .ok ⟨feed, current, allowance, built⟩
  | (.error e, _) => .error e

end Parser

/-- A computation on parser states that may fail with a parse error.  It gives no result at all if
its budget is used up. -/
abbrev Step (σ : Type) := ExceptT ParseError (StateT (Parser σ) Option)

namespace Step

variable {σ α β : Type}

/-- The result and the state after it, or nothing if the budget is used up. -/
def outcome (step : Step σ β) (p : Parser σ) : Option (Except ParseError β × Parser σ) :=
  (step.run : StateT (Parser σ) Option (Except ParseError β)).run p

/-- The budget is used up. -/
def exhausted : Step σ β :=
  ExceptT.mk (StateT.lift none)

/-! ### Looking at the current lexeme -/

/-- The token of the current lexeme. -/
def token : Step σ Token := do
  return (← get).current.token

/-- Fails at the current lexeme, where one of the given kinds of tokens was expected. -/
def unexpected (expected : List Expectation) : Step σ β := do
  let lexeme := (← get).current
  throw (.unexpected lexeme.token lexeme.position expected)

/-! ### Moving on -/

/-- Moves to the next lexeme. -/
def advance : Step σ Unit := do
  let p ← get
  match p.feed.next with
  | (.ok lexeme, feed) => set { p with feed, current := lexeme }
  | (.error e, feed) =>
    set { p with feed }
    throw (.lex e)

/-- Puts a token in the place of the current one. -/
def putToken (token : Token) : Step σ Unit :=
  modify fun p => { p with current := { p.current with token } }

/-- Moves past a token of the kind `wanted`; otherwise fails with all the kinds expected. -/
def pass (wanted : Expectation) (expected : List Expectation) : Step σ Unit := do
  if wanted.admits (← token) then advance else unexpected expected

/-- Moves past a token of the one kind expected. -/
def expect (wanted : Expectation) : Step σ Unit :=
  pass wanted [wanted]

/-- Takes the current token out, as the beginning of an operand. -/
def takeOperand : Step σ Unit :=
  putToken .eof

/-- Takes the name of a member and moves past it. -/
def takeName : Step σ String := do
  match ← token with
  | .identifier name =>
    putToken (.identifier "")
    advance
    return name
  | _ => unexpected [.identifier]

/-- Takes the key of a map entry, which is a name or a string, and moves past it. -/
def takeKey : Step σ String := do
  match ← token with
  | .identifier key =>
    putToken (.identifier "")
    advance
    return key
  | .string key =>
    putToken (.string "")
    advance
    return key
  | _ => unexpected [.string, .identifier, .symbol .braceClose]

/-- Moves past the comma after an element.  No comma is needed before the closing symbol. -/
def separator (close : Symbol) (expected : List Expectation) : Step σ Unit := do
  if (← token) = .symbol close then return ()
  else pass (.symbol .comma) expected

/-! ### Levels of nesting -/

/-- Opens a level of nesting. -/
def spend : Step σ Unit := do
  let p ← get
  match p.allowance with
  | none => return ()
  | some a =>
    if a.remaining = 0 then throw (.nestingLimit a.limit p.current.position)
    else set { p with allowance := some { a with remaining := a.remaining - 1 } }

/-- The parser with one more level of nesting left. -/
def refund (p : Parser σ) : Parser σ :=
  { p with allowance := p.allowance.map fun a => { a with remaining := a.remaining + 1 } }

/-- Runs the step one level deeper.  The level is given back whether the step fails or not. -/
def nested (step : Step σ β) : Step σ β := do
  spend
  ExceptT.mk do
    let result ← step.run
    modify refund
    return result

/-- Runs the step and, if it succeeds, gives back all the levels it opened. -/
def restoring (step : Step σ β) : Step σ β := do
  let allowance := (← get).allowance
  let result ← step
  modify fun p => { p with allowance }
  return result

/-! ### Building -/

/-- Hands a node to the builder. -/
def make (build : Builder σ α) (node : Node α) : Step σ α :=
  modifyGet fun p =>
    let (made, built) := build node p.built
    (made, { p with built })

end Step

end Binding
