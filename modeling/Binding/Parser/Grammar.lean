import Binding.Parser.Basic

/-!
# The grammar as steps

One step for each phrase of the language, from the loosest to the tightest:

```
ternary     binary [`?` ternary `:` ternary]
binary      unary {operator binary}             operators by band, grouping from the left
unary       (`!` | `-` | `+`) unary | access
access      operand {`.` name [arguments] | arguments | `[` ternary `]`}
arguments   `(` [ternary {`,` ternary}] `)`
operand     literal | name | `(` ternary `)` | `[` items `]` | `{` entries `}`
```

A level of nesting is opened by a bracketed operand, by an operator before its operand, by either
branch of a conditional, and by every link of a `binary` or `access` chain.

Every step takes a budget, the number of calls it may nest.  A call is always made either to a
tighter phrase or behind a token that has been passed, so a budget in proportion to the number of
lexemes is enough; how much is enough is in `Binding.Parser.Progress`.
-/

namespace Binding.Grammar

open Step

variable {σ α : Type} (build : Builder σ α)

/-- What an operand may begin with. -/
def operandStarts : List Expectation :=
  [.number, .string, .boolean true, .boolean false, .null, .identifier, .symbol .parenOpen,
   .symbol .bracketOpen, .symbol .braceOpen, .symbol .bang, .symbol .minus, .symbol .plus]

/-- An operand of a single token. -/
def leaf (node : Node α) : Step σ α := do
  takeOperand
  let made ← make build node
  advance
  return made

mutual

/-- A conditional, or an expression that is none. -/
def ternary : Nat → Step σ α
  | 0 => exhausted
  | budget + 1 => do
    let condition ← binary budget 1
    if (← token) = .symbol .question then
      advance
      let whenTrue ← nested (ternary budget)
      expect (.symbol .colon)
      let whenFalse ← nested (ternary budget)
      make build (.ternary condition whenTrue whenFalse)
    else
      return condition

/-- Operands joined by operators of the band `least` and tighter ones. -/
def binary : Nat → Nat → Step σ α
  | 0, _ => exhausted
  | budget + 1, least => do
    let first ← unary budget
    restoring (binaryChain budget least first)

/-- The operators, and the operands right of them, that follow a left operand. -/
def binaryChain : Nat → Nat → α → Step σ α
  | 0, _, _ => exhausted
  | budget + 1, least, left => do
    match (← token).binary? with
    | none => return left
    | some op =>
      if op.precedence < least then
        return left
      else
        spend
        advance
        let right ← binary budget (op.precedence + 1)
        let joined ← make build (.binary op left right)
        binaryChain budget least joined

/-- An operand with the operators before it. -/
def unary : Nat → Step σ α
  | 0 => exhausted
  | budget + 1 => do
    match (← token).unary? with
    | some op =>
      advance
      let operand ← nested (unary budget)
      make build (.unary op operand)
    | none => access budget

/-- An operand with the member accesses, calls and indexings after it. -/
def access : Nat → Step σ α
  | 0 => exhausted
  | budget + 1 => do
    let first ← operand budget
    restoring (accessChain budget first)

/-- The member accesses, calls and indexings that follow a receiver. -/
def accessChain : Nat → α → Step σ α
  | 0, _ => exhausted
  | budget + 1, receiver => do
    match ← token with
    | .symbol .dot =>
      spend
      advance
      let name ← takeName
      if (← token) = .symbol .parenOpen then
        let args ← arguments budget
        let call ← make build (.invoke receiver (some name) (some args))
        accessChain budget call
      else
        let member ← make build (.getter receiver name)
        accessChain budget member
    | .symbol .parenOpen =>
      spend
      let args ← arguments budget
      let call ← make build (.invoke receiver none (some args))
      accessChain budget call
    | .symbol .bracketOpen =>
      spend
      advance
      let argument ← ternary budget
      expect (.symbol .bracketClose)
      let element ← make build (.index receiver argument)
      accessChain budget element
    | _ => return receiver

/-- The arguments of a call, with their parentheses. -/
def arguments : Nat → Step σ (List α)
  | 0 => exhausted
  | budget + 1 => do
    expect (.symbol .parenOpen)
    let args ← if (← token) = .symbol .parenClose then pure [] else argumentList budget
    pass (.symbol .parenClose) [.symbol .comma, .symbol .parenClose]
    return args

/-- One or more arguments.  A comma is always followed by another one. -/
def argumentList : Nat → Step σ (List α)
  | 0 => exhausted
  | budget + 1 => do
    let first ← ternary budget
    if (← token) = .symbol .comma then
      advance
      let rest ← argumentList budget
      return first :: rest
    else
      return [first]

/-- A literal, a name, or an expression in brackets of some kind. -/
def operand : Nat → Step σ α
  | 0 => exhausted
  | budget + 1 => do
    match ← token with
    | .number value => leaf build (.literal (.number value))
    | .string value => leaf build (.literal (.string value))
    | .boolean value => leaf build (.literal (.boolean value))
    | .null => leaf build (.literal .null)
    | .identifier name => leaf build (.identifier name)
    | .symbol .parenOpen =>
      takeOperand
      nested do
        advance
        let child ← ternary budget
        expect (.symbol .parenClose)
        make build (.paren child)
    | .symbol .bracketOpen =>
      takeOperand
      nested do
        advance
        let items ← listItems budget
        advance
        make build (.list items)
    | .symbol .braceOpen =>
      takeOperand
      nested do
        advance
        let entries ← mapEntries budget
        advance
        make build (.map entries)
    | _ => unexpected operandStarts

/-- The items of a list, up to its closing bracket.  A comma without an item before it leaves a
hole; a comma before the bracket leaves none. -/
def listItems : Nat → Step σ (List (Option α))
  | 0 => exhausted
  | budget + 1 => do
    let next ← token
    if next = .symbol .bracketClose then
      return []
    else if next = .symbol .comma then
      advance
      let rest ← listItems budget
      return none :: rest
    else
      let item ← ternary budget
      separator .bracketClose [.symbol .comma, .symbol .bracketClose]
      let rest ← listItems budget
      return some item :: rest

/-- The entries of a map, up to its closing brace.  A key without a colon has no value; a comma
without an entry before it is passed over. -/
def mapEntries : Nat → Step σ (List (String × Option α))
  | 0 => exhausted
  | budget + 1 => do
    let next ← token
    if next = .symbol .braceClose then
      return []
    else if next = .symbol .comma then
      advance
      mapEntries budget
    else
      let key ← takeKey
      let value ← mapValue budget
      separator .braceClose [.symbol .colon, .symbol .comma, .symbol .braceClose]
      let rest ← mapEntries budget
      return (key, value) :: rest

/-- The value of a map entry, if a colon announces one. -/
def mapValue : Nat → Step σ (Option α)
  | 0 => exhausted
  | budget + 1 => do
    if (← token) = .symbol .colon then
      advance
      let value ← ternary budget
      return some value
    else
      return none

end

/-- A whole input: an expression up to the end of input, or nothing at all. -/
def whole (budget : Nat) : Step σ α := do
  if (← token) = .eof then
    make build .empty
  else
    let root ← ternary build budget
    expect .endOfInput
    return root

end Binding.Grammar
