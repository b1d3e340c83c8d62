import Binding.Expr.Node

/-!
# Expressions

The trees of the expression language.  `Expr` has the twelve constructors of `Node`, with trees for
operands; `Expr.ofNode` and `Expr.toNode` pass from one to the other.

Operands stand below options, lists and pairs, so that a function on trees is really four: one for
trees, and one each for the arguments of a call, the entries of a map and the items of a list.

## Main results

`Expr.same` decides equality of trees (`same_iff`), which gives `DecidableEq Expr`.
-/

namespace Binding

/-- An expression. -/
inductive Expr where
  | empty
  | literal (value : Literal)
  | identifier (name : String)
  | unary (op : UnaryOp) (operand : Expr)
  | binary (op : BinaryOp) (left right : Expr)
  | getter (receiver : Expr) (name : String)
  | invoke (receiver : Expr) (method : Option String) (arguments : Option (List Expr))
  | paren (child : Expr)
  | index (receiver argument : Expr)
  | ternary (condition whenTrue whenFalse : Expr)
  | map (entries : List (String × Option Expr))
  | list (items : List (Option Expr))

namespace Expr

/-- The tree with the node at its root. -/
def ofNode : Node Expr → Expr
  | .empty => .empty
  | .literal value => .literal value
  | .identifier name => .identifier name
  | .unary op operand => .unary op operand
  | .binary op left right => .binary op left right
  | .getter receiver name => .getter receiver name
  | .invoke receiver method arguments => .invoke receiver method arguments
  | .paren child => .paren child
  | .index receiver argument => .index receiver argument
  | .ternary condition whenTrue whenFalse => .ternary condition whenTrue whenFalse
  | .map entries => .map entries
  | .list items => .list items

/-- The node at the root of the tree. -/
def toNode : Expr → Node Expr
  | .empty => .empty
  | .literal value => .literal value
  | .identifier name => .identifier name
  | .unary op operand => .unary op operand
  | .binary op left right => .binary op left right
  | .getter receiver name => .getter receiver name
  | .invoke receiver method arguments => .invoke receiver method arguments
  | .paren child => .paren child
  | .index receiver argument => .index receiver argument
  | .ternary condition whenTrue whenFalse => .ternary condition whenTrue whenFalse
  | .map entries => .map entries
  | .list items => .list items

@[simp] theorem toNode_ofNode (node : Node Expr) : (ofNode node).toNode = node := by
  cases node <;> rfl

@[simp] theorem ofNode_toNode (e : Expr) : ofNode e.toNode = e := by
  cases e <;> rfl

/-- The kind of the root. -/
def kind (e : Expr) : String :=
  e.toNode.kind

/-- The builder of plain trees. -/
def builder : Builder Unit Expr :=
  .ofFunction ofNode

/-! ### Equality -/

mutual

/-- Whether two trees are the same. -/
def same : Expr → Expr → Bool
  | .empty, .empty => true
  | .literal a, .literal b => a = b
  | .identifier a, .identifier b => a = b
  | .unary op a, .unary op' a' => op = op' && same a a'
  | .binary op a b, .binary op' a' b' => op = op' && same a a' && same b b'
  | .getter a name, .getter a' name' => same a a' && name = name'
  | .invoke a method none, .invoke a' method' none => same a a' && method = method'
  | .invoke a method (some args), .invoke a' method' (some args') =>
    same a a' && method = method' && sameArguments args args'
  | .paren a, .paren a' => same a a'
  | .index a b, .index a' b' => same a a' && same b b'
  | .ternary a b c, .ternary a' b' c' => same a a' && same b b' && same c c'
  | .map entries, .map entries' => sameEntries entries entries'
  | .list items, .list items' => sameItems items items'
  | _, _ => false

/-- Whether two argument lists are the same. -/
def sameArguments : List Expr → List Expr → Bool
  | [], [] => true
  | a :: rest, a' :: rest' => same a a' && sameArguments rest rest'
  | _, _ => false

/-- Whether the entries of two maps are the same. -/
def sameEntries : List (String × Option Expr) → List (String × Option Expr) → Bool
  | [], [] => true
  | (key, none) :: rest, (key', none) :: rest' => key = key' && sameEntries rest rest'
  | (key, some a) :: rest, (key', some a') :: rest' =>
    key = key' && same a a' && sameEntries rest rest'
  | _, _ => false

/-- Whether the items of two lists are the same. -/
def sameItems : List (Option Expr) → List (Option Expr) → Bool
  | [], [] => true
  | none :: rest, none :: rest' => sameItems rest rest'
  | some a :: rest, some a' :: rest' => same a a' && sameItems rest rest'
  | _, _ => false

end

mutual

theorem same_iff : (a b : Expr) → (same a b = true ↔ a = b)
  | .empty, b => by cases b <;> simp [same]
  | .literal _, b => by cases b <;> simp [same]
  | .identifier _, b => by cases b <;> simp [same]
  | .unary _ a, b => by cases b <;> simp [same, same_iff a]
  | .binary _ a a', b => by cases b <;> simp [same, same_iff a, same_iff a', and_assoc]
  | .getter a _, b => by cases b <;> simp [same, same_iff a]
  | .invoke a _ none, b => by
    cases b with
    | invoke _ _ arguments => cases arguments <;> simp [same, same_iff a]
    | _ => simp [same]
  | .invoke a _ (some args), b => by
    cases b with
    | invoke _ _ arguments =>
      cases arguments <;> simp [same, same_iff a, sameArguments_iff args, and_assoc]
    | _ => simp [same]
  | .paren a, b => by cases b <;> simp [same, same_iff a]
  | .index a a', b => by cases b <;> simp [same, same_iff a, same_iff a']
  | .ternary a a' a'', b => by
    cases b <;> simp [same, same_iff a, same_iff a', same_iff a'', and_assoc]
  | .map entries, b => by cases b <;> simp [same, sameEntries_iff entries]
  | .list items, b => by cases b <;> simp [same, sameItems_iff items]

theorem sameArguments_iff : (as bs : List Expr) → (sameArguments as bs = true ↔ as = bs)
  | [], bs => by cases bs <;> simp [sameArguments]
  | a :: as, bs => by cases bs <;> simp [sameArguments, same_iff a, sameArguments_iff as]

theorem sameEntries_iff :
    (as bs : List (String × Option Expr)) → (sameEntries as bs = true ↔ as = bs)
  | [], bs => by cases bs <;> simp [sameEntries]
  | (_, none) :: as, [] => by simp [sameEntries]
  | (_, none) :: as, (_, none) :: bs => by simp [sameEntries, sameEntries_iff as]
  | (_, none) :: as, (_, some _) :: bs => by simp [sameEntries]
  | (_, some a) :: as, [] => by simp [sameEntries]
  | (_, some a) :: as, (_, none) :: bs => by simp [sameEntries]
  | (_, some a) :: as, (_, some _) :: bs => by
    simp [sameEntries, same_iff a, sameEntries_iff as]

theorem sameItems_iff : (as bs : List (Option Expr)) → (sameItems as bs = true ↔ as = bs)
  | [], bs => by cases bs <;> simp [sameItems]
  | none :: as, [] => by simp [sameItems]
  | none :: as, none :: bs => by simp [sameItems, sameItems_iff as]
  | none :: as, some _ :: bs => by simp [sameItems]
  | some a :: as, [] => by simp [sameItems]
  | some a :: as, none :: bs => by simp [sameItems]
  | some a :: as, some _ :: bs => by simp [sameItems, same_iff a, sameItems_iff as]

end

instance : DecidableEq Expr :=
  fun a b => decidable_of_iff (same a b = true) (same_iff a b)

end Expr

end Binding
