/-!
# The fewest digits that read back

A double stands for every real number that rounds to it.  `Shortest.ofBinary` finds, among the
decimals that stand for a given double, one with the fewest digits, and among those the nearest to
the double's own value; of two that are equally near, the one with the even last digit.

## Implementation notes

All arithmetic is on natural numbers.  The value and the ends of the interval that rounds to it are
fractions with one common denominator, four times the unit in the last place, because the lower
neighbour of a power of two is only half as far away as the upper one.  A decimal grid holds at most
two candidates, the points next to the value, and grids are tried from the coarsest on.
-/

namespace Binding

/-- A positive decimal number in scientific form: the first digit stands before the point. -/
structure Shortest where
  /-- The digits, the most significant first and the last one not zero. -/
  digits : List Char
  /-- The power of ten that the first digit stands for. -/
  exponent : Int
deriving DecidableEq

namespace Shortest

/-- The leading bit of a significand, which the encoding of a double leaves out. -/
def leadingBit : Nat := 0x10000000000000

/-- The reals that round to a double, as numerators over a common denominator. -/
structure Interval where
  low : Nat
  value : Nat
  high : Nat
  denominator : Nat
  /-- Whether the ends themselves round to the double. -/
  closed : Bool

/-- The interval of the double `significand * 2 ^ exponent`.  The interval is not symmetric when
the significand is a power of two, unless the double is one of the smallest. -/
def Interval.ofBinary (significand : Nat) (exponent : Int) : Interval :=
  let unit := Nat.pow 2 exponent.toNat
  { low := 4 * significand * unit -
      (if significand = leadingBit ∧ -1074 < exponent then unit else 2 * unit)
    value := 4 * significand * unit
    high := 4 * significand * unit + 2 * unit
    denominator := 4 * Nat.pow 2 (-exponent).toNat
    closed := significand % 2 = 0 }

/-- The power of ten of the first digit of the value. -/
def Interval.magnitude (i : Interval) : Int :=
  if i.denominator ≤ i.value then ((Nat.toDigits 10 (i.value / i.denominator)).length : Int) - 1
  else -(Nat.toDigits 10 ((i.denominator - 1) / i.value)).length

/-- Whether `n * 10 ^ power` lies in the interval. -/
def Interval.holds (i : Interval) (n : Nat) (power : Int) : Bool :=
  let point := n * Nat.pow 10 power.toNat * i.denominator
  let scale := Nat.pow 10 (-power).toNat
  if i.closed then i.low * scale ≤ point && point ≤ i.high * scale
  else i.low * scale < point && point < i.high * scale

/-- The multiples of `10 ^ power` next to the value, the nearer one first and the even one first
when they are equally near. -/
def Interval.neighbours (i : Interval) (power : Int) : List Nat :=
  let numerator := i.value * Nat.pow 10 (-power).toNat
  let denominator := i.denominator * Nat.pow 10 power.toNat
  let below := numerator / denominator
  let twice := 2 * (numerator % denominator)
  if twice < denominator ∨ (twice = denominator ∧ below % 2 = 0) then [below, below + 1]
  else [below + 1, below]

/-- The digits of `n * 10 ^ power`, without zeros at the end. -/
def ofMultiple (n : Nat) (power : Int) : Shortest :=
  let digits := Nat.toDigits 10 n
  { digits := (digits.reverse.dropWhile (· = '0')).reverse
    exponent := power + digits.length - 1 }

/-- The shortest decimal for the double `significand * 2 ^ exponent`.  Seventeen digits always
suffice. -/
def ofBinary (significand : Nat) (exponent : Int) : Shortest :=
  let interval := Interval.ofBinary significand exponent
  let power (count : Nat) : Int := interval.magnitude - count
  let found := (List.range 17).findSome? fun count =>
    ((interval.neighbours (power count)).find? fun n => interval.holds n (power count)).map
      fun n => ofMultiple n (power count)
  found.getD (ofMultiple (interval.value / interval.denominator) 0)

/-- The shortest decimal for the size of a finite double; zero has the digit `0`. -/
def ofFloat (x : Float) : Shortest :=
  let bits := x.toBits.toNat
  let fraction := bits % leadingBit
  let biased := bits / leadingBit % 0x800
  if biased = 0 then
    if fraction = 0 then ⟨['0'], 0⟩ else ofBinary fraction (-1074)
  else ofBinary (leadingBit + fraction) ((biased : Int) - 1075)

end Shortest

end Binding
