import Binding.Unicode.Ranges

/-!
# White space

The characters that may stand between two words of an expression: the property White_Space of
Unicode.  It is wider than the blanks of ASCII (it has U+00A0 and U+3000) and does not hold
the invisible format characters such as U+200B and U+FEFF.
-/

namespace Binding.Unicode

/-- The characters with the property White_Space. -/
def whiteSpace : Ranges where
  runs :=
    [(0x9, 0xD), (0x20, 0x20), (0x85, 0x85), (0xA0, 0xA0), (0x1680, 0x1680), (0x2000, 0x200A),
     (0x2028, 0x2029), (0x202F, 0x202F), (0x205F, 0x205F), (0x3000, 0x3000)]

/-- Whether the character is White_Space. -/
def isWhiteSpace (c : Char) : Bool :=
  whiteSpace.covers c.toNat

end Binding.Unicode
