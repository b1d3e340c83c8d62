import Binding.Number
import Mathlib.Data.List.DropRight

/-!
# Canonical number texts

A number text is an integer part and, behind a point, the digits of a fraction; `Number.joined` puts
the two together.  The canonical form trims either part by itself, so it is idempotent, and a number
can be read back off its own text.

## Main results

`Number.ofChars_canonical`: the canonical form of a text stands for the same number.
-/

namespace Binding

theorem Text.dropTrailing_dropTrailing (p : Char → Bool) (text : List Char) :
    dropTrailing p (dropTrailing p text) = dropTrailing p text :=
  List.rdropWhile_idempotent p text

namespace Number

/-- The number text with an integer part and a fraction, which may be empty. -/
def joined (whole fraction : List Char) : List Char :=
  match fraction with
  | [] => whole
  | c :: rest => whole ++ '.' :: c :: rest

theorem canonical_eq_joined (text : List Char) :
    canonical text = joined (canonicalWhole (text.takeWhile (· ≠ '.')))
      (Text.dropTrailing (· = '0') ((text.dropWhile (· ≠ '.')).drop 1)) := by
  unfold canonical
  generalize Text.dropTrailing _ _ = fraction
  cases fraction <;> rfl

/-- A number text is cut at its point. -/
theorem parts_joined {whole : List Char} (h : '.' ∉ whole) (fraction : List Char) :
    (joined whole fraction).takeWhile (· ≠ '.') = whole ∧
      ((joined whole fraction).dropWhile (· ≠ '.')).drop 1 = fraction := by
  have hall : ∀ c ∈ whole, (decide (c ≠ '.')) = true := by
    intro c hc
    have hne : c ≠ '.' := fun heq => h (heq ▸ hc)
    simpa using hne
  cases fraction with
  | nil =>
    rw [joined, List.takeWhile_eq_self_iff.2 hall, List.dropWhile_eq_nil_iff.2 hall]
    exact ⟨rfl, rfl⟩
  | cons c fraction =>
    rw [joined, List.takeWhile_append_of_pos hall, List.dropWhile_append_of_pos hall]
    simp

theorem canonicalWhole_canonicalWhole (digits : List Char) :
    canonicalWhole (canonicalWhole digits) = canonicalWhole digits := by
  induction digits with
  | nil => rfl
  | cons c digits ih =>
    by_cases h : c = '0'
    · have htail : canonicalWhole (c :: digits) = canonicalWhole digits := by
        simp [canonicalWhole, h]
      rw [htail, ih]
    · have hkept : canonicalWhole (c :: digits) = c :: digits := by simp [canonicalWhole, h]
      rw [hkept, hkept]

theorem mem_of_mem_canonicalWhole {digits : List Char} {c : Char} (h : c ∈ canonicalWhole digits) :
    c = '0' ∨ c ∈ digits := by
  unfold canonicalWhole at h
  split at h
  · exact .inl (by simpa using h)
  · exact .inr ((List.dropWhile_sublist _).subset h)

theorem canonicalWhole_ne_nil (digits : List Char) : canonicalWhole digits ≠ [] := by
  unfold canonicalWhole
  split
  · simp
  · assumption

/-- **Canonical texts stay as they are.** -/
theorem canonical_canonical (text : List Char) : canonical (canonical text) = canonical text := by
  have hdot : '.' ∉ canonicalWhole (text.takeWhile (· ≠ '.')) := by
    intro h
    rcases mem_of_mem_canonicalWhole h with h | h
    · simp at h
    · simpa using List.all_eq_true.1 List.all_takeWhile _ h
  rw [canonical_eq_joined text, canonical_eq_joined, (parts_joined hdot _).1,
    (parts_joined hdot _).2, canonicalWhole_canonicalWhole, Text.dropTrailing_dropTrailing]

/-- The canonical form of a text stands for the same number. -/
theorem ofChars_canonical (text : List Char) : ofChars (canonical text) = ofChars text := by
  rw [ofChars, canonical_canonical, ofChars]

end Number

end Binding
