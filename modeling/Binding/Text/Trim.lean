/-!
# Cutting characters off the end of a text
-/

namespace Binding.Text

/-- The text up to the last character that does not satisfy the condition. -/
def dropTrailing (p : Char → Bool) (text : List Char) : List Char :=
  (text.reverse.dropWhile p).reverse

theorem dropTrailing_isPrefix (p : Char → Bool) (text : List Char) :
    dropTrailing p text <+: text := by
  have h := List.dropWhile_suffix p (l := text.reverse)
  rw [← List.reverse_prefix] at h
  simpa [dropTrailing] using h

end Binding.Text
