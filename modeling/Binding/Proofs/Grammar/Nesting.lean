import Binding.Proofs.Grammar.Phrase

/-!
# How deep a tree nests

`Expr.need` is the number of levels of nesting that a tree takes up.  Brackets, operators before
their operand and the branches of a conditional take one level each, and give it back behind them.
The links of a chain are counted differently: each link takes one more level than the link before
it, and only the part right of a link is parsed at the level of the link.  So `a + b + c` needs two
levels, as `a + (b)` does, and the operand that a chain begins with is not charged for the chain.

`Expr.links` and `Expr.accesses` count the links of a chain, down the left side of the tree.  A
bracket ends either chain.
-/

namespace Binding.Expr

/-- The number of binary operators down the left side of the tree. -/
def links : Expr → Nat
  | .binary _ left _ => links left + 1
  | _ => 0

/-- The number of member accesses, calls and indexings down the left side of the tree. -/
def accesses : Expr → Nat
  | .getter receiver _ => accesses receiver + 1
  | .invoke receiver _ _ => accesses receiver + 1
  | .index receiver _ => accesses receiver + 1
  | _ => 0

mutual

/-- The number of levels of nesting that the tree takes up. -/
def need : Expr → Nat
  | .empty => 0
  | .literal _ => 0
  | .identifier _ => 0
  | .unary _ operand => 1 + need operand
  | .binary _ left right => max (need left) (links left + 1 + need right)
  | .getter receiver _ => max (need receiver) (accesses receiver + 1)
  | .invoke receiver _ none => max (need receiver) (accesses receiver + 1)
  | .invoke receiver _ (some args) =>
    max (need receiver) (accesses receiver + 1 + needArguments args)
  | .paren child => 1 + need child
  | .index receiver argument => max (need receiver) (accesses receiver + 1 + need argument)
  | .ternary condition whenTrue whenFalse =>
    max (need condition) (max (1 + need whenTrue) (1 + need whenFalse))
  | .map entries => 1 + needEntries entries
  | .list items => 1 + needItems items

/-- The most levels that one of the arguments takes up. -/
def needArguments : List Expr → Nat
  | [] => 0
  | argument :: rest => max (need argument) (needArguments rest)

/-- The most levels that the value of one of the entries takes up. -/
def needEntries : List (String × Option Expr) → Nat
  | [] => 0
  | (_, none) :: rest => needEntries rest
  | (_, some value) :: rest => max (need value) (needEntries rest)

/-- The most levels that one of the items takes up. -/
def needItems : List (Option Expr) → Nat
  | [] => 0
  | none :: rest => needItems rest
  | some item :: rest => max (need item) (needItems rest)

end

theorem needEntries_cons (entry : String × Option Expr) (rest : List (String × Option Expr)) :
    needEntries (entry :: rest) = max (needItems [entry.2]) (needEntries rest) := by
  obtain ⟨key, value⟩ := entry
  cases value <;> simp [needEntries, needItems]

theorem links_le_need (e : Expr) : e.links ≤ e.need := by
  cases e with
  | binary op left right =>
    rw [links, need]
    omega
  | _ => simp [links]

theorem accesses_le_need (e : Expr) : e.accesses ≤ e.need := by
  cases e with
  | getter receiver name =>
    rw [accesses, need]
    omega
  | invoke receiver method arguments =>
    cases arguments <;> rw [accesses, need] <;> omega
  | index receiver argument =>
    rw [accesses, need]
    omega
  | _ => simp [accesses]

end Binding.Expr

namespace Binding.Phrase

/-! ### Where a chain begins -/

theorem Unary.links_eq_zero {ts : List Token} {e : Expr} (h : Unary ts e) : e.links = 0 := by
  cases h with
  | apply h => rfl
  | access h =>
    cases h with
    | operand h => cases h <;> rfl
    | _ => rfl

theorem Operand.accesses_eq_zero {ts : List Token} {e : Expr} (h : Operand ts e) :
    e.accesses = 0 := by
  cases h <;> rfl

theorem Operand.isGetter_eq_false {ts : List Token} {e : Expr} (h : Operand ts e) :
    e.isGetter = false := by
  cases h <;> rfl

end Binding.Phrase
