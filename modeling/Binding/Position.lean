/-!
# Positions in a source text

A position is counted in characters, and it is counted three times: from the start of the text,
in lines, and within the line.  All three are kept by one operation, `Position.step`, that passes
a single character, so that no part of the program computes a line number on its own.

## Main results

`after_append` splits the way over a text at any point; `offset_after` says that the offset counts
the characters passed.
-/

namespace Binding

/-- A place between two characters of a source text.  `offset` counts from 0, `line` and `column`
count from 1. -/
structure Position where
  /-- The number of characters before this place. -/
  offset : Nat
  /-- One more than the number of line feeds before this place. -/
  line : Nat
  /-- One more than the number of characters since the last line feed. -/
  column : Nat
deriving DecidableEq, Repr

namespace Position

/-- The place before the first character. -/
def start : Position := ⟨0, 1, 1⟩

/-- The place after the character.  A line feed, and nothing else, begins a new line. -/
def step (p : Position) (c : Char) : Position :=
  if c = '\n' then ⟨p.offset + 1, p.line + 1, 1⟩ else ⟨p.offset + 1, p.line, p.column + 1⟩

/-- The place after the whole text. -/
def after (p : Position) (text : List Char) : Position :=
  text.foldl step p

/-- The wording of a position in messages. -/
def label (p : Position) : String :=
  s!"line {p.line}, column {p.column}"

@[simp] theorem after_nil (p : Position) : p.after [] = p := rfl

@[simp] theorem after_cons (p : Position) (c : Char) (text : List Char) :
    p.after (c :: text) = (p.step c).after text := rfl

theorem after_append (p : Position) (first second : List Char) :
    p.after (first ++ second) = (p.after first).after second :=
  List.foldl_append

@[simp] theorem offset_step (p : Position) (c : Char) : (p.step c).offset = p.offset + 1 := by
  unfold step
  split <;> rfl

@[simp] theorem offset_after (p : Position) (text : List Char) :
    (p.after text).offset = p.offset + text.length := by
  induction text generalizing p with
  | nil => rfl
  | cons c text ih =>
    rw [after_cons, ih, offset_step, List.length_cons]
    omega

end Position

end Binding
