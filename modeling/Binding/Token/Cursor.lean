import Binding.Token.Scan

/-!
# Reading a source word by word

A cursor stands at a place of a source and holds what is left of it.  `Cursor.next` skips white
space, reads one word and moves behind it.

At the end of the source there is always one more lexeme to read, the end of input, and reading it
moves nothing.  The two errors leave the cursor in different places: a string without a closing
quote has been read to the end of the source, while a character that begins no token has not been
passed, so that reading again meets the same error.

## Main results

`length_rest_next_lt` says that reading a lexeme other than the end of input uses up some
characters.
-/

namespace Binding

/-- Why a source cannot be read further. -/
inductive LexError where
  /-- The string that begins at the position has no closing quote. -/
  | unterminatedString (quote : Char) (position : Position)
  /-- The character at the position begins no token. -/
  | unexpectedChar (c : Char) (position : Position)
deriving DecidableEq

namespace LexError

/-- The place that the error points to. -/
def position : LexError → Position
  | .unterminatedString _ position => position
  | .unexpectedChar _ position => position

/-- A remark on characters that only occur doubled. -/
def hint (c : Char) : String :=
  if c = '&' then " (did you mean '&&'?)"
  else if c = '=' then " (did you mean '=='?)"
  else ""

/-- The wording of the error. -/
def message : LexError → String
  | .unterminatedString quote position =>
    s!"Unterminated string starting at {position.label}: missing closing {quote}"
  | .unexpectedChar c position =>
    s!"Unexpected character '{c}' at {position.label}{hint c}"

end LexError

/-- A place in a source and what follows it. -/
structure Cursor where
  /-- What is left to read. -/
  rest : List Char
  /-- Where `rest` begins. -/
  position : Position
deriving DecidableEq

namespace Cursor

/-- The cursor before the first character of a source. -/
def start (source : List Char) : Cursor :=
  ⟨source, .start⟩

/-- The cursor behind the white space that it stands before. -/
def skipBlanks (c : Cursor) : Cursor where
  rest := c.rest.dropWhile Unicode.isWhiteSpace
  position := c.position.after (c.rest.takeWhile Unicode.isWhiteSpace)

/-- Reads the word that begins right at the cursor. -/
def readWord (c : Cursor) : Except LexError Lexeme × Cursor :=
  match scan c.rest with
  | .done => (.ok ⟨.eof, "", c.position⟩, c)
  | .found token word rest =>
    (.ok ⟨token, String.ofList word, c.position⟩, ⟨rest, c.position.after word⟩)
  | .unterminated quote =>
    (.error (.unterminatedString quote c.position), ⟨[], c.position.after c.rest⟩)
  | .unexpected ch => (.error (.unexpectedChar ch c.position), c)

/-- Reads the next lexeme. -/
def next (c : Cursor) : Except LexError Lexeme × Cursor :=
  c.skipBlanks.readWord

theorem length_rest_skipBlanks_le (c : Cursor) : c.skipBlanks.rest.length ≤ c.rest.length :=
  (List.dropWhile_sublist _).length_le

theorem length_rest_readWord_lt {c c' : Cursor} {lexeme : Lexeme}
    (h : c.readWord = (.ok lexeme, c')) (hne : lexeme.token ≠ .eof) :
    c'.rest.length < c.rest.length := by
  unfold readWord at h
  split at h
  · simp only [Prod.mk.injEq, Except.ok.injEq] at h
    exact absurd (congrArg Lexeme.token h.1.symm) hne
  · next hscan =>
    simp only [Prod.mk.injEq] at h
    rw [← h.2]
    exact Scan.length_rest_lt_of_scan hscan
  · simp at h
  · simp at h

theorem length_rest_next_lt {c c' : Cursor} {lexeme : Lexeme}
    (h : c.next = (.ok lexeme, c')) (hne : lexeme.token ≠ .eof) :
    c'.rest.length < c.rest.length :=
  Nat.lt_of_lt_of_le (length_rest_readWord_lt h hne) c.length_rest_skipBlanks_le

end Cursor

end Binding
