import Binding.Number
import Binding.Operator

/-!
# One layer of an expression

A `Node α` is an operator of the expression language together with its operands, which are of any
type `α`.  It is the signature of the language: a tree is what one gets by filling the operands
with trees, and a way to interpret expressions says what a node over its results is worth.

The last is a `Builder`.  Whoever reads an expression hands every node to a builder as soon as its
operands are known, and the builder decides what the node becomes: a tree, generated code, a number
in a log.  A builder may keep a state between its calls, so it also sees their order.
-/

namespace Binding

/-- A constant. -/
inductive Literal where
  /-- A string, without quotes and escapes. -/
  | string (value : String)
  | number (value : Number)
  | boolean (value : Bool)
  | null
deriving DecidableEq

/-- An operator of the language with its operands. -/
inductive Node (α : Type) where
  /-- No expression at all: what blank input stands for. -/
  | empty
  | literal (value : Literal)
  /-- A bare name; `this` is one of them. -/
  | identifier (name : String)
  | unary (op : UnaryOp) (operand : α)
  | binary (op : BinaryOp) (left right : α)
  /-- Member access, `receiver.name`. -/
  | getter (receiver : α) (name : String)
  /-- A call of the receiver, or of the named method of it.  Absent arguments are not the same as
  an empty list of them. -/
  | invoke (receiver : α) (method : Option String) (arguments : Option (List α))
  /-- Parentheses, which are kept. -/
  | paren (child : α)
  /-- Computed access, `receiver[argument]`. -/
  | index (receiver argument : α)
  | ternary (condition whenTrue whenFalse : α)
  /-- A map literal with its entries in order.  A key may stand without a value. -/
  | map (entries : List (String × Option α))
  /-- A list literal with its items in order.  An item may be left out. -/
  | list (items : List (Option α))
deriving DecidableEq

namespace Node

/-- The kind of a node, as the tree dump names it. -/
def kind {α : Type} : Node α → String
  | .empty => "Empty"
  | .literal _ => "Literal"
  | .identifier _ => "ID"
  | .unary _ _ => "Unary"
  | .binary _ _ _ => "Binary"
  | .getter _ _ => "Getter"
  | .invoke _ _ _ => "Invoke"
  | .paren _ => "Paren"
  | .index _ _ => "Index"
  | .ternary _ _ _ => "Ternary"
  | .map _ => "Map"
  | .list _ => "List"

/-- The node with its operands changed. -/
def mapOperands {α β : Type} (f : α → β) : Node α → Node β
  | .empty => .empty
  | .literal value => .literal value
  | .identifier name => .identifier name
  | .unary op operand => .unary op (f operand)
  | .binary op left right => .binary op (f left) (f right)
  | .getter receiver name => .getter (f receiver) name
  | .invoke receiver method arguments => .invoke (f receiver) method (arguments.map (·.map f))
  | .paren child => .paren (f child)
  | .index receiver argument => .index (f receiver) (f argument)
  | .ternary condition whenTrue whenFalse =>
    .ternary (f condition) (f whenTrue) (f whenFalse)
  | .map entries => .map (entries.map fun (key, value) => (key, value.map f))
  | .list items => .list (items.map (·.map f))

/-- The operands of the node, from left to right. -/
def operands {α : Type} : Node α → List α
  | .empty | .literal _ | .identifier _ => []
  | .unary _ operand => [operand]
  | .binary _ left right => [left, right]
  | .getter receiver _ => [receiver]
  | .invoke receiver _ arguments => receiver :: arguments.getD []
  | .paren child => [child]
  | .index receiver argument => [receiver, argument]
  | .ternary condition whenTrue whenFalse => [condition, whenTrue, whenFalse]
  | .map entries => entries.filterMap (·.2)
  | .list items => items.filterMap id

@[simp] theorem kind_mapOperands {α β : Type} (f : α → β) (node : Node α) :
    (node.mapOperands f).kind = node.kind := by
  cases node <;> rfl

end Node

/-- A way to make something of a node whose operands have been made already.  The state passes
from one call to the next. -/
abbrev Builder (σ α : Type) := Node α → StateM σ α

namespace Builder

/-- The builder that makes of each node what the function says and keeps no state. -/
def ofFunction {α : Type} (f : Node α → α) : Builder Unit α :=
  fun node => pure (f node)

/-- The builder that writes down every node it is given.  What it makes of a node is the node's
place in that log, so the operands of a logged node point to earlier ones. -/
def log : Builder (Array (Node Nat)) Nat :=
  fun node calls => (calls.size, calls.push node)

end Builder

end Binding
