import Binding.Decimal.Basic
import Binding.Text.Trim

/-!
# Number literals

A literal is never rounded.  Its digits are first brought into *canonical* form (no leading zero
before the point, no trailing zero after it, no point without a fraction); if a decimal is written
that way, the literal is that decimal, and otherwise it keeps its canonical digits as text.  Either
way its text is the canonical text.

## Main results

`text_ofChars` says that the text of a literal is the canonical form of what was read.
-/

namespace Binding

/-- The value of a number literal. -/
inductive Number where
  /-- A number that fits a decimal. -/
  | decimal (value : Decimal)
  /-- The canonical digits of a number that does not. -/
  | digits (text : String)
deriving DecidableEq

namespace Number

/-- The integer part without leading zeros; the digit `0` if nothing is left. -/
def canonicalWhole (digits : List Char) : List Char :=
  match digits.dropWhile (· = '0') with
  | [] => ['0']
  | trimmed => trimmed

/-- The canonical form of a number text: the part before the first point without its leading
zeros, the part after it without its trailing zeros, and no point when that leaves nothing. -/
def canonical (text : List Char) : List Char :=
  let whole := canonicalWhole (text.takeWhile (· ≠ '.'))
  match Text.dropTrailing (· = '0') ((text.dropWhile (· ≠ '.')).drop 1) with
  | [] => whole
  | fraction => whole ++ '.' :: fraction

/-- The number that a text of digits stands for. -/
def ofChars (text : List Char) : Number :=
  match Decimal.ofChars? (canonical text) with
  | some value => .decimal value
  | none => .digits (String.ofList (canonical text))

/-- The number that a text of digits stands for. -/
def ofText (text : String) : Number :=
  ofChars text.toList

/-- The text of a number. -/
def text : Number → String
  | .decimal value => value.text
  | .digits text => text

theorem text_ofChars (text : List Char) :
    (ofChars text).text = String.ofList (canonical text) := by
  unfold ofChars
  split
  · next value h => rw [Number.text, Decimal.text, Decimal.chars_of_ofChars? h]
  · rfl

end Number

end Binding
