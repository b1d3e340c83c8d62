import Binding.Parser.Grammar

/-!
# Loops, one round at a time

Five phrases of the grammar are loops: the operators of a `binary` chain, the links of an `access`
chain, the arguments of a call, the items of a list and the entries of a map.  The grammar writes
them as recursions.  Here the part between two recursive calls stands on its own: a *round*, which
says in its result whether the loop goes round again.  Then what a round does can be stated, and
the loop is the round and a choice.

Also the insides of the bracketed operands get names here, the opening bracket being the current
lexeme, or having been taken out.

## Main results

`binaryChain_succ`, `accessChain_succ`, `argumentList_succ`, `listItems_succ` and `mapEntries_succ`:
each loop is its rounds, and nothing is done between one and the next.
-/

namespace Binding.Grammar

open Step

variable {σ α : Type} (build : Builder σ α)

/-! ### Chains -/

/-- An operator of the band `least` or a tighter one, and the operand right of it.  The loop goes
round again with the two joined. -/
def binaryRound (budget least : Nat) (left : α) : Step σ (Option α) := do
  match (← token).binary? with
  | none => return none
  | some op =>
    if op.precedence < least then
      return none
    else
      spend
      advance
      let right ← binary build budget (op.precedence + 1)
      let joined ← make build (.binary op left right)
      return some joined

/-- A member access, call or indexing.  The loop goes round again with its node as the receiver. -/
def accessRound (budget : Nat) (receiver : α) : Step σ (Option α) := do
  match ← token with
  | .symbol .dot =>
    spend
    advance
    let name ← takeName
    if (← token) = .symbol .parenOpen then
      let args ← arguments build budget
      let call ← make build (.invoke receiver (some name) (some args))
      return some call
    else
      let member ← make build (.getter receiver name)
      return some member
  | .symbol .parenOpen =>
    spend
    let args ← arguments build budget
    let call ← make build (.invoke receiver none (some args))
    return some call
  | .symbol .bracketOpen =>
    spend
    advance
    let argument ← ternary build budget
    expect (.symbol .bracketClose)
    let element ← make build (.index receiver argument)
    return some element
  | _ => return none

variable {build}

theorem binaryChain_succ (budget least : Nat) (left : α) :
    binaryChain build (budget + 1) least left = (do
      match ← binaryRound build budget least left with
      | none => return left
      | some joined => binaryChain build budget least joined) := by
  rw [binaryChain, binaryRound, bind_assoc]
  refine bind_congr fun t => ?_
  cases t.binary? with
  | none => rfl
  | some op =>
    dsimp only
    split
    · rfl
    · simp only [bind_assoc, pure_bind]

theorem accessChain_succ (budget : Nat) (receiver : α) :
    accessChain build (budget + 1) receiver = (do
      match ← accessRound build budget receiver with
      | none => return receiver
      | some access => accessChain build budget access) := by
  rw [accessChain, accessRound, bind_assoc]
  refine bind_congr fun t => ?_
  cases t with
  | symbol s =>
    cases s with
    | dot =>
      simp only [bind_assoc]
      refine bind_congr fun _ => bind_congr fun _ => bind_congr fun _ => bind_congr fun _ => ?_
      split <;> simp only [bind_assoc, pure_bind]
    | parenOpen => simp only [bind_assoc, pure_bind]
    | bracketOpen => simp only [bind_assoc, pure_bind]
    | _ => rfl
  | _ => rfl

/-! ### Arguments -/

variable (build)

/-- An argument.  The loop goes round again if a comma follows, which is passed. -/
def argumentRound (budget : Nat) : Step σ (α × Bool) := do
  let argument ← ternary build budget
  if (← token) = .symbol .comma then
    advance
    return (argument, true)
  else
    return (argument, false)

variable {build}

theorem argumentList_succ (budget : Nat) :
    argumentList build (budget + 1) = (do
      let (argument, again) ← argumentRound build budget
      if again then
        let rest ← argumentList build budget
        return argument :: rest
      else
        return [argument]) := by
  rw [argumentList, argumentRound, bind_assoc]
  refine bind_congr fun argument => ?_
  rw [bind_assoc]
  refine bind_congr fun t => ?_
  split <;> simp only [bind_assoc, pure_bind] <;> rfl

/-! ### Bracketed operands -/

variable (build)

/-- An item of a list with the comma behind it, or a comma that leaves a hole.  The loop ends at
the closing bracket. -/
def listRound (budget : Nat) : Step σ (Option (Option α)) := do
  let next ← token
  if next = .symbol .bracketClose then
    return none
  else if next = .symbol .comma then
    advance
    return some none
  else
    let item ← ternary build budget
    separator .bracketClose [.symbol .comma, .symbol .bracketClose]
    return some (some item)

/-- An entry of a map with the comma behind it, or a comma that is passed over.  The loop ends at
the closing brace. -/
def mapRound (budget : Nat) : Step σ (Option (Option (String × Option α))) := do
  let next ← token
  if next = .symbol .braceClose then
    return none
  else if next = .symbol .comma then
    advance
    return some none
  else
    let key ← takeKey
    let value ← mapValue build budget
    separator .braceClose [.symbol .colon, .symbol .comma, .symbol .braceClose]
    return some (some (key, value))

/-- An expression from its opening parenthesis to the closing one. -/
def parenthesized (budget : Nat) : Step σ α := do
  advance
  let child ← ternary build budget
  expect (.symbol .parenClose)
  make build (.paren child)

/-- A list from its opening bracket to the closing one. -/
def listLiteral (budget : Nat) : Step σ α := do
  advance
  let items ← listItems build budget
  advance
  make build (.list items)

/-- A map from its opening brace to the closing one. -/
def mapLiteral (budget : Nat) : Step σ α := do
  advance
  let entries ← mapEntries build budget
  advance
  make build (.map entries)

variable {build}

/-- A bracketed operand is its inside, one level deeper, with the opening bracket taken out. -/
theorem operand_succ (budget : Nat) :
    operand build (budget + 1) = (do
      match ← token with
      | .number value => leaf build (.literal (.number value))
      | .string value => leaf build (.literal (.string value))
      | .boolean value => leaf build (.literal (.boolean value))
      | .null => leaf build (.literal .null)
      | .identifier name => leaf build (.identifier name)
      | .symbol .parenOpen =>
        takeOperand
        nested (parenthesized build budget)
      | .symbol .bracketOpen =>
        takeOperand
        nested (listLiteral build budget)
      | .symbol .braceOpen =>
        takeOperand
        nested (mapLiteral build budget)
      | _ => unexpected operandStarts) := by
  rw [operand]
  rfl

theorem listItems_succ (budget : Nat) :
    listItems build (budget + 1) = (do
      match ← listRound build budget with
      | none => return []
      | some item =>
        let rest ← listItems build budget
        return item :: rest) := by
  rw [listItems, listRound, bind_assoc]
  refine bind_congr fun t => ?_
  split
  · rfl
  · split <;> simp only [bind_assoc, pure_bind]

theorem mapEntries_succ (budget : Nat) :
    mapEntries build (budget + 1) = (do
      match ← mapRound build budget with
      | none => return []
      | some entry =>
        let rest ← mapEntries build budget
        return entry.toList ++ rest) := by
  rw [mapEntries, mapRound, bind_assoc]
  refine bind_congr fun t => ?_
  split
  · rfl
  · split
    · simp only [bind_assoc, pure_bind, Option.toList_none, List.nil_append, bind_pure]
    · simp only [bind_assoc, pure_bind, Option.toList_some, List.singleton_append]

end Binding.Grammar
