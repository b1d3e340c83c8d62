import Binding.Token.Cursor

/-!
# Lexing sessions

A lexer is a cursor that remembers its source, so that it can start over, and whether its
iteration has ended.

There are two ways to read on.  `nextLexeme` reads whatever comes next, also after the end and
after an error.  `next?` is the iteration: it gives the lexemes up to and including the end of
input, or up to and including the first error, and then nothing.  The two share the cursor, and
only `next?` looks at or sets the mark that the iteration has ended.

`Lexer.toList` runs the iteration to its end.
-/

namespace Binding

/-- A source that is being read. -/
structure Lexer where
  /-- The whole source. -/
  source : List Char
  /-- The place that has been reached. -/
  cursor : Cursor
  /-- Whether the iteration has given its last lexeme or an error. -/
  finished : Bool

namespace Lexer

/-- A lexer at the start of the source. -/
def ofSource (source : String) : Lexer :=
  ⟨source.toList, .start source.toList, false⟩

/-- The same source from the start. -/
def reset (l : Lexer) : Lexer :=
  ⟨l.source, .start l.source, false⟩

/-- Reads the next lexeme, whether or not the iteration has ended. -/
def nextLexeme (l : Lexer) : Except LexError Lexeme × Lexer :=
  let (result, cursor) := l.cursor.next
  (result, { l with cursor })

/-- Reads the next lexeme and gives its token alone. -/
def nextToken (l : Lexer) : Except LexError Token × Lexer :=
  let (result, l) := l.nextLexeme
  (result.map Lexeme.token, l)

/-- Whether the iteration ends with the item. -/
def isLast : Except LexError Lexeme → Bool
  | .ok lexeme => lexeme.token = .eof
  | .error _ => true

/-- The next item of the iteration. -/
def next? (l : Lexer) : Option (Except LexError Lexeme) × Lexer :=
  if l.finished then (none, l)
  else
    let (result, l) := l.nextLexeme
    (some result, { l with finished := isLast result })

/-- How many more items the iteration can give. -/
def bound (l : Lexer) : Nat :=
  if l.finished then 0 else l.cursor.rest.length + 1

theorem bound_next?_lt {l l' : Lexer} {item : Except LexError Lexeme}
    (h : l.next? = (some item, l')) : l'.bound < l.bound := by
  unfold next? at h
  split at h
  · simp at h
  · next hfinished =>
    simp only [nextLexeme, Prod.mk.injEq, Option.some.injEq] at h
    obtain ⟨hitem, rfl⟩ := h
    simp only [bound, hfinished]
    cases hnext : l.cursor.next with
    | mk result c =>
      cases result with
      | error e => simp [isLast]
      | ok lexeme =>
        by_cases heof : lexeme.token = .eof
        · simp [isLast, heof]
        · have := Cursor.length_rest_next_lt hnext heof
          simp [isLast, heof, this]

/-- The items of the iteration, from where the lexer stands to the end. -/
def toList (l : Lexer) : List (Except LexError Lexeme) :=
  match _h : l.next? with
  | (some item, l') => item :: toList l'
  | (none, _) => []
termination_by l.bound
decreasing_by exact bound_next?_lt _h

end Lexer

end Binding
