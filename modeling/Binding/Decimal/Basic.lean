/-!
# Decimals

Numbers `± mantissa / 10 ^ scale` with a mantissa of 96 bits and at most 28 places, kept in lowest
terms.  The bounds and the lowest terms are part of the type, so equality of decimals is equality
of their values and a decimal has one text.

A tree that is put together by hand, and not by reading a source, may hold decimals that are not in
lowest terms, such as `1.50` with the last zero kept.  These have no counterpart here.  Reading a
number never gives one, because only a text in canonical form becomes a decimal (`Number.ofChars`).

## Main definitions

* `Decimal.chars` writes a decimal with every digit and no exponent.
* `Decimal.ofChars?` reads a text back and accepts exactly the texts that `chars` writes: a sign
  other than a minus, a leading zero, a trailing zero or a separator is refused.
-/

namespace Binding

/-- The first number that is too large for a mantissa, the 96th power of two. -/
def mantissaBound : Nat := 0x1000000000000000000000000

/-- A decimal number in lowest terms. -/
structure Decimal where
  /-- Whether the number is below zero. -/
  negative : Bool
  /-- The digits of the number, read without the point. -/
  mantissa : Nat
  /-- The number of digits after the point. -/
  scale : Nat
  mantissa_lt : mantissa < mantissaBound
  scale_le : scale ≤ 28
  /-- The last digit of a fraction is not zero. -/
  lowest : scale = 0 ∨ mantissa % 10 ≠ 0
  /-- Zero has no sign. -/
  zero_unsigned : mantissa = 0 → negative = false
deriving DecidableEq

namespace Decimal

/-- The decimal with these parts, if they are within bounds and in lowest terms. -/
def ofParts? (negative : Bool) (mantissa scale : Nat) : Option Decimal :=
  if h : mantissa < mantissaBound ∧ scale ≤ 28 ∧ (scale = 0 ∨ mantissa % 10 ≠ 0) ∧
      (mantissa = 0 → negative = false) then
    some ⟨negative, mantissa, scale, h.1, h.2.1, h.2.2.1, h.2.2.2⟩
  else none

/-- How many units of the last place make up a whole. -/
def unit (scale : Nat) : Nat :=
  Nat.pow 10 scale

/-- The digits of `n`, with zeros before them up to the width. -/
def padded (width n : Nat) : List Char :=
  (Nat.toDigits 10 n).leftpad width '0'

/-- The text of the decimal. -/
def chars (d : Decimal) : List Char :=
  (if d.negative then ['-'] else []) ++ Nat.toDigits 10 (d.mantissa / unit d.scale) ++
    (if d.scale = 0 then [] else '.' :: padded d.scale (d.mantissa % unit d.scale))

/-- The text of the decimal, as a string. -/
def text (d : Decimal) : String :=
  String.ofList d.chars

/-- Reads digits with an optional fraction: the integer formed by all digits, and how many of
them follow the point. -/
def readUnsigned? (text : List Char) : Option (Nat × Nat) :=
  let whole := text.takeWhile (· ≠ '.')
  let fraction := (text.dropWhile (· ≠ '.')).drop 1
  if (whole ++ fraction).all Char.isDigit then
    some (Nat.ofDigitChars 10 (whole ++ fraction) 0, fraction.length)
  else none

/-- The decimal that is written exactly as the text. -/
def ofChars? (text : List Char) : Option Decimal := do
  let negative := text.head? = some '-'
  let (mantissa, scale) ← readUnsigned? (if negative then text.drop 1 else text)
  let d ← ofParts? negative mantissa scale
  if d.chars = text then some d else none

theorem chars_of_ofChars? {text : List Char} {d : Decimal} (h : ofChars? text = some d) :
    d.chars = text := by
  simp only [ofChars?, Option.bind_eq_bind, Option.bind_eq_some_iff] at h
  obtain ⟨_, _, _, _, h⟩ := h
  split at h
  · simp_all
  · simp at h

end Decimal

end Binding
