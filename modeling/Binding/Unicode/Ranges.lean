/-!
# Sets of characters as ranges of code points

A character class of the Unicode standard is a few hundred runs of consecutive code points.
A table of such runs (`Ranges`) has them in ascending order, and `Ranges.covers` looks a code point
up in it.

The look-up stops at the first run that begins above the code point, so it would miss members of a
table whose runs were out of order.  The type has no such table.

## Main results

`Ranges.covers_iff`: the look-up decides membership in one of the runs.
-/

namespace Binding.Unicode

namespace Ranges

/-- Whether no run is empty and each begins behind the one before it, the first at `least` or
later. -/
def ascendingFrom : Nat → List (Nat × Nat) → Bool
  | _, [] => true
  | least, (first, last) :: rest =>
    least ≤ first && first ≤ last && ascendingFrom (last + 1) rest

/-- Whether the code point lies in one of the runs.  Runs above it are not looked at. -/
def search : List (Nat × Nat) → Nat → Bool
  | [], _ => false
  | (first, last) :: rest, n =>
    if n < first then false else if n ≤ last then true else search rest n

theorem le_of_ascendingFrom {least : Nat} {runs : List (Nat × Nat)}
    (hasc : ascendingFrom least runs = true) {run : Nat × Nat} (hmem : run ∈ runs) :
    least ≤ run.1 := by
  induction runs generalizing least with
  | nil => simp at hmem
  | cons head rest ih =>
    simp only [ascendingFrom, Bool.and_eq_true, decide_eq_true_eq] at hasc
    obtain ⟨⟨hleast, horder⟩, hrest⟩ := hasc
    rcases List.mem_cons.1 hmem with rfl | hmem
    · exact hleast
    · have := ih hrest hmem
      omega

theorem exists_of_search {runs : List (Nat × Nat)} {n : Nat} (h : search runs n = true) :
    ∃ run ∈ runs, run.1 ≤ n ∧ n ≤ run.2 := by
  induction runs with
  | nil => simp [search] at h
  | cons run rest ih =>
    simp only [search] at h
    split at h
    · simp at h
    · split at h
      · exact ⟨run, by simp, by omega, by omega⟩
      · obtain ⟨r, hr, hn⟩ := ih h
        exact ⟨r, by simp [hr], hn⟩

theorem search_of_mem {least : Nat} {runs : List (Nat × Nat)}
    (hasc : ascendingFrom least runs = true) {n : Nat} {run : Nat × Nat} (hmem : run ∈ runs)
    (hlo : run.1 ≤ n) (hhi : n ≤ run.2) : search runs n = true := by
  induction runs generalizing least with
  | nil => simp at hmem
  | cons head rest ih =>
    simp only [ascendingFrom, Bool.and_eq_true, decide_eq_true_eq] at hasc
    obtain ⟨⟨-, horder⟩, hrest⟩ := hasc
    simp only [search]
    rcases List.mem_cons.1 hmem with rfl | hmem
    · simp [Nat.not_lt.2 hlo, hhi]
    · have hbehind := le_of_ascendingFrom hrest hmem
      rw [if_neg (by omega), if_neg (by omega)]
      exact ih hrest hmem

end Ranges

/-- Runs of code points in ascending order, each given by its first and its last member. -/
structure Ranges where
  runs : List (Nat × Nat)
  ascending : Ranges.ascendingFrom 0 runs = true := by decide +kernel

namespace Ranges

/-- Whether the code point lies in one of the runs. -/
def covers (table : Ranges) (n : Nat) : Bool :=
  search table.runs n

/-- **Look-up is membership.** -/
theorem covers_iff {table : Ranges} {n : Nat} :
    table.covers n = true ↔ ∃ run ∈ table.runs, run.1 ≤ n ∧ n ≤ run.2 :=
  ⟨exists_of_search, fun ⟨_, hmem, hlo, hhi⟩ => search_of_mem table.ascending hmem hlo hhi⟩

end Ranges

end Binding.Unicode
