import Binding.Symbol

/-!
# Operators

Three operators stand before their operand and fourteen between two.  An operator is spelled by a
symbol; the symbols `+` and `-` spell an operator of either kind, and the place where they stand
decides which.

Binary operators fall into seven bands.  A higher band binds tighter, and inside a band operators
group from the left.

| band | operators |
|---|---|
| 7 | `*` `/` `%` |
| 6 | `+` `-` |
| 5 | `<` `<=` `>` `>=` |
| 4 | `==` `!=` |
| 3 | `&&` |
| 2 | `||` |
| 1 | `|` |
-/

namespace Binding

/-- An operator written before its operand. -/
inductive UnaryOp where
  /-- Logical not. -/
  | not
  /-- Negation. -/
  | negate
  /-- Numeric plus. -/
  | plus
deriving DecidableEq, Repr

/-- An operator written between its operands. -/
inductive BinaryOp where
  | multiply
  | divide
  | modulo
  | add
  | subtract
  | lessThan
  | lessEqual
  | greaterThan
  | greaterEqual
  | equal
  | notEqual
  | and
  | or
  /-- Passes the left operand to the filter on the right. -/
  | pipe
deriving DecidableEq, Repr

namespace UnaryOp

/-- The symbol that spells the operator. -/
def symbol : UnaryOp → Symbol
  | not => .bang
  | negate => .minus
  | plus => .plus

/-- The operator that the symbol spells before an operand. -/
def ofSymbol? : Symbol → Option UnaryOp
  | .bang => some not
  | .minus => some negate
  | .plus => some plus
  | _ => none

/-- The spelling of the operator. -/
def spelling (op : UnaryOp) : String :=
  op.symbol.spelling

theorem ofSymbol?_eq_some_iff {s : Symbol} {op : UnaryOp} :
    ofSymbol? s = some op ↔ s = op.symbol := by
  cases s <;> cases op <;> decide

end UnaryOp

namespace BinaryOp

/-- The symbol that spells the operator. -/
def symbol : BinaryOp → Symbol
  | multiply => .star
  | divide => .slash
  | modulo => .percent
  | add => .plus
  | subtract => .minus
  | lessThan => .less
  | lessEqual => .lessEqual
  | greaterThan => .greater
  | greaterEqual => .greaterEqual
  | equal => .equalEqual
  | notEqual => .bangEqual
  | and => .ampAmp
  | or => .barBar
  | pipe => .bar

/-- The operator that the symbol spells between two operands. -/
def ofSymbol? : Symbol → Option BinaryOp
  | .star => some multiply
  | .slash => some divide
  | .percent => some modulo
  | .plus => some add
  | .minus => some subtract
  | .less => some lessThan
  | .lessEqual => some lessEqual
  | .greater => some greaterThan
  | .greaterEqual => some greaterEqual
  | .equalEqual => some equal
  | .bangEqual => some notEqual
  | .ampAmp => some and
  | .barBar => some or
  | .bar => some pipe
  | _ => none

/-- The spelling of the operator. -/
def spelling (op : BinaryOp) : String :=
  op.symbol.spelling

/-- The band of the operator.  Higher bands bind tighter. -/
def precedence : BinaryOp → Nat
  | multiply | divide | modulo => 7
  | add | subtract => 6
  | lessThan | lessEqual | greaterThan | greaterEqual => 5
  | equal | notEqual => 4
  | and => 3
  | or => 2
  | pipe => 1

theorem ofSymbol?_eq_some_iff {s : Symbol} {op : BinaryOp} :
    ofSymbol? s = some op ↔ s = op.symbol := by
  cases s <;> cases op <;> decide

end BinaryOp

end Binding
