import Binding.Decimal.Approximation
import Binding.Expr.Basic
import Binding.Json.Basic

/-!
# Trees as JSON documents

Every node becomes an object whose field `type` names its kind.  The entries of a map become a list
of objects, which keeps their order and allows a key to occur twice.

A number becomes an integer if it is one of 64 bits, and a double otherwise; digits that fit no
decimal become a string, so that none of them is lost.
-/

namespace Binding

/-- The integer that a decimal is, if it is one of 64 bits. -/
def Decimal.toInt64? (d : Decimal) : Option Int :=
  let value : Int := if d.negative then -d.mantissa else d.mantissa
  if d.scale = 0 ∧ -0x8000000000000000 ≤ value ∧ value < 0x8000000000000000 then some value
  else none

/-- The document of a number. -/
def Number.toJson : Number → Json
  | .decimal value =>
    match value.toInt64? with
    | some n => .integer n
    | none => .float value.toFloat
  | .digits text => .string text

/-- The document of a constant. -/
def Literal.toJson : Literal → Json
  | .string value => .string value
  | .number value => value.toJson
  | .boolean value => .boolean value
  | .null => .null

namespace Expr

mutual

/-- The document of an expression. -/
def toJson : Expr → Json
  | e@.empty => .object [("type", .string e.kind)]
  | e@(.literal value) => .object [("type", .string e.kind), ("value", value.toJson)]
  | e@(.identifier name) => .object [("type", .string e.kind), ("value", .string name)]
  | e@(.unary op operand) =>
    .object [("child", toJson operand), ("operator", .string op.spelling),
      ("type", .string e.kind)]
  | e@(.binary op left right) =>
    .object [("left", toJson left), ("operator", .string op.spelling), ("right", toJson right),
      ("type", .string e.kind)]
  | e@(.getter receiver name) =>
    .object [("name", .string name), ("receiver", toJson receiver), ("type", .string e.kind)]
  | e@(.invoke receiver method none) =>
    .object [("arguments", .null), ("method", .ofString? method), ("receiver", toJson receiver),
      ("type", .string e.kind)]
  | e@(.invoke receiver method (some args)) =>
    .object [("arguments", .array (argumentsToJson args)), ("method", .ofString? method),
      ("receiver", toJson receiver), ("type", .string e.kind)]
  | e@(.paren child) => .object [("child", toJson child), ("type", .string e.kind)]
  | e@(.index receiver argument) =>
    .object [("argument", toJson argument), ("receiver", toJson receiver),
      ("type", .string e.kind)]
  | e@(.ternary condition whenTrue whenFalse) =>
    .object [("condition", toJson condition), ("falseExpr", toJson whenFalse),
      ("trueExpr", toJson whenTrue), ("type", .string e.kind)]
  | e@(.map entries) =>
    .object [("entries", .array (entriesToJson entries)), ("type", .string e.kind)]
  | e@(.list items) => .object [("items", .array (itemsToJson items)), ("type", .string e.kind)]

/-- The document of each argument of a call. -/
def argumentsToJson : List Expr → List Json
  | [] => []
  | argument :: rest => toJson argument :: argumentsToJson rest

/-- The document of each entry of a map. -/
def entriesToJson : List (String × Option Expr) → List Json
  | [] => []
  | (key, none) :: rest =>
    .object [("key", .string key), ("value", .null)] :: entriesToJson rest
  | (key, some value) :: rest =>
    .object [("key", .string key), ("value", toJson value)] :: entriesToJson rest

/-- The document of each item of a list. -/
def itemsToJson : List (Option Expr) → List Json
  | [] => []
  | none :: rest => .null :: itemsToJson rest
  | some item :: rest => toJson item :: itemsToJson rest

end

end Expr

end Binding
