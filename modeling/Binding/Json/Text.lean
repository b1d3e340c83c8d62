import Binding.Decimal.Shortest
import Binding.Json.Basic

/-!
# The text of a JSON document

A document is written in one of two layouts: `Layout.compact` has no white space at all,
`Layout.pretty` puts every item and every field on a line of its own, two spaces deeper than its
container.  An empty container is written without a break in both.

In strings the quote, the backslash and the characters below U+0020 are escaped; everything else is
written as it is.
-/

namespace Binding

namespace Json

/-! ### Numbers -/

/-- The text of an integer. -/
def integerText : Int → String
  | .ofNat n => n.repr
  | .negSucc n => "-" ++ (n + 1).repr

/-- Digits with a point before those that stand for fractions; at least one on either side. -/
def positional (digits : List Char) (exponent : Int) : List Char :=
  if exponent < 0 then
    ['0', '.'] ++ List.replicate ((-exponent).toNat - 1) '0' ++ digits
  else
    let whole := exponent.toNat + 1
    digits.take whole ++ List.replicate (whole - digits.length) '0' ++ '.' ::
      (if digits.length ≤ whole then ['0'] else digits.drop whole)

/-- Digits with a point behind the first one and the exponent, signed, behind them all. -/
def scientific (digits : List Char) (exponent : Int) : List Char :=
  digits.take 1 ++ (if digits.length ≤ 1 then [] else '.' :: digits.drop 1) ++
    ['e', if exponent < 0 then '-' else '+'] ++ Nat.toDigits 10 exponent.natAbs

/-- The text of a double: the fewest digits that read back, written positionally if the first digit
stands for a power of ten from `10 ^ -5` to `10 ^ 15`. -/
def floatText (x : Float) : String :=
  let shortest := Shortest.ofFloat x
  let size :=
    if -5 ≤ shortest.exponent ∧ shortest.exponent ≤ 15 then
      positional shortest.digits shortest.exponent
    else scientific shortest.digits shortest.exponent
  String.ofList (if x.toBits < 0x8000000000000000 then size else '-' :: size)

/-! ### Strings -/

/-- A character inside a string. -/
def escapedChar (c : Char) : List Char :=
  match c with
  | '"' => ['\\', '"']
  | '\\' => ['\\', '\\']
  | '\x08' => ['\\', 'b']
  | '\t' => ['\\', 't']
  | '\n' => ['\\', 'n']
  | '\x0c' => ['\\', 'f']
  | '\r' => ['\\', 'r']
  | c =>
    if c.toNat < 0x20 then
      ['\\', 'u', '0', '0'] ++ (Nat.toDigits 16 c.toNat).leftpad 2 '0'
    else [c]

/-- The text of a string. -/
def stringText (value : String) : String :=
  String.ofList (['"'] ++ value.toList.flatMap escapedChar ++ ['"'])

/-! ### Documents -/

/-- How the parts of a document are set apart. -/
structure Layout where
  /-- What stands between the name of a field and its value. -/
  colon : String
  /-- What stands before a part of a container, and before the closing bracket, by depth. -/
  lineBreak : Nat → String

/-- A new line, two spaces deeper for every container. -/
def newline (depth : Nat) : String :=
  String.ofList ('\n' :: List.replicate (2 * depth) ' ')

/-- No white space at all. -/
def Layout.compact : Layout := ⟨":", fun _ => ""⟩

/-- A line for every part. -/
def Layout.pretty : Layout := ⟨": ", newline⟩

/-- A container with its parts, at a depth. -/
def bracketed (layout : Layout) (depth : Nat) (opening closing : String) :
    List String → String
  | [] => opening ++ closing
  | parts =>
    opening ++ layout.lineBreak (depth + 1) ++
      ("," ++ layout.lineBreak (depth + 1)).intercalate parts ++
      layout.lineBreak depth ++ closing

mutual

/-- The text of a document at a depth. -/
def write (layout : Layout) (depth : Nat) : Json → String
  | .null => "null"
  | .boolean value => if value then "true" else "false"
  | .integer value => integerText value
  | .float value => floatText value
  | .string value => stringText value
  | .array items => bracketed layout depth "[" "]" (writeItems layout (depth + 1) items)
  | .object fields =>
    bracketed layout depth "\x7b" "\x7d" (writeFields layout (depth + 1) fields)

/-- The texts of the items of an array. -/
def writeItems (layout : Layout) (depth : Nat) : List Json → List String
  | [] => []
  | item :: rest => write layout depth item :: writeItems layout depth rest

/-- The texts of the fields of an object. -/
def writeFields (layout : Layout) (depth : Nat) : List (String × Json) → List String
  | [] => []
  | (name, value) :: rest =>
    (stringText name ++ layout.colon ++ write layout depth value) ::
      writeFields layout depth rest

end

/-- The document on one line. -/
def compact (json : Json) : String :=
  json.write .compact 0

/-- The document with a line for every part. -/
def pretty (json : Json) : String :=
  json.write .pretty 0

end Json

end Binding
