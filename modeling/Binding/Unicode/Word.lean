import Binding.Unicode.Age
import Binding.Unicode.Mark
import Binding.Unicode.Numeric

/-!
# Word characters

The class that Unicode's guidelines for regular expressions call a word character: Alphabetic,
all marks, decimal digits, connector punctuation, and the two join controls.  Numbers other than
decimal digits are outside it, so `²` is alphanumeric and no word character.

The class is fixed by version 16, so it does not hold the letters that version 17 added, though
they are Alphabetic.
-/

namespace Binding.Unicode

/-- The characters of the general category Pc. -/
def connector : Ranges where
  runs :=
    [(0x5F, 0x5F), (0x203F, 0x2040), (0x2054, 0x2054), (0xFE33, 0xFE34), (0xFE4D, 0xFE4F),
     (0xFF3F, 0xFF3F)]

/-- The characters with the property Join_Control. -/
def joinControl : Ranges where
  runs :=
    [(0x200C, 0x200D)]

/-- Whether the character is a word character. -/
def isWord (c : Char) : Bool :=
  (isAlphabetic c || isMark c || isDecimalNumber c || connector.covers c.toNat ||
    joinControl.covers c.toNat) && !isAddedIn17 c

end Binding.Unicode
