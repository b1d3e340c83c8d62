import Binding.Decimal.Basic

/-!
# Decimals as doubles

A decimal without a fraction becomes the nearest double.  One with a fraction is put together from
its two parts: both are rounded to doubles, added, and the sum is rounded once more to the decimal's
own number of places.  The result is close to the decimal but not always the nearest double to it.
-/

namespace Binding.Decimal

/-- The double nearest to a natural number. -/
def nearest (n : Nat) : Float :=
  Float.ofScientific n false 0

/-- The double rounded to a whole number of parts, of which `count` make up one. -/
def toPlaces (count x : Float) : Float :=
  (x * count).round / count

/-- The double that stands for the decimal. -/
def toFloat (d : Decimal) : Float :=
  let whole := nearest (d.mantissa / unit d.scale)
  let fraction := nearest (d.mantissa % unit d.scale) / nearest (unit d.scale)
  let size := if fraction == 0 then whole else toPlaces (nearest (unit d.scale)) (whole + fraction)
  if d.negative then -size else size

end Binding.Decimal
