import Binding.Token.Cursor

/-!
# The lexemes of a source

A feed is everything that reading a source will ever give: the items that come once, in order, and
the ending that comes over and over after them.  A parser takes its lexemes from a feed and never
sees a character, so what it does depends on the lexemes alone.

A missing closing quote is met once, and the end of input after it.  A character that begins no
token is met for ever, since reading does not pass it.

## Main results

`next_feed` says that the feed of a cursor gives what the cursor gives.
-/

namespace Binding

/-- What a feed gives when all its items have been taken. -/
inductive Ending where
  /-- The end of input, at the position. -/
  | finished (position : Position)
  /-- The same error, every time. -/
  | stuck (error : LexError)
deriving DecidableEq

/-- What an ending gives, every time. -/
def Ending.item : Ending → Except LexError Lexeme
  | .finished position => .ok ⟨.eof, "", position⟩
  | .stuck error => .error error

/-- The items still to come. -/
structure Feed where
  /-- The items that come once, in order. -/
  ahead : List (Except LexError Lexeme)
  /-- What comes after them. -/
  ending : Ending

namespace Feed

/-- Takes the next item. -/
def next (f : Feed) : Except LexError Lexeme × Feed :=
  match f.ahead with
  | item :: rest => (item, { f with ahead := rest })
  | [] => (f.ending.item, f)

/-- The feed that gives the item first. -/
def cons (item : Except LexError Lexeme) (f : Feed) : Feed :=
  { f with ahead := item :: f.ahead }

@[simp] theorem next_cons (item : Except LexError Lexeme) (f : Feed) :
    (f.cons item).next = (item, f) := rfl

end Feed

namespace Cursor

/-- All that the cursor will read. -/
def feed (c : Cursor) : Feed :=
  match _h : scan c.skipBlanks.rest with
  | .done => ⟨[], .finished c.skipBlanks.position⟩
  | .found token word rest =>
    (feed ⟨rest, c.skipBlanks.position.after word⟩).cons
      (.ok ⟨token, String.ofList word, c.skipBlanks.position⟩)
  | .unterminated quote =>
    ⟨[.error (.unterminatedString quote c.skipBlanks.position)],
      .finished (c.skipBlanks.position.after c.skipBlanks.rest)⟩
  | .unexpected ch => ⟨[], .stuck (.unexpectedChar ch c.skipBlanks.position)⟩
termination_by c.rest.length
decreasing_by
  exact Nat.lt_of_lt_of_le (Scan.length_rest_lt_of_scan _h) c.length_rest_skipBlanks_le

theorem feed_of_done {c : Cursor} (h : scan c.skipBlanks.rest = .done) :
    c.feed = ⟨[], .finished c.skipBlanks.position⟩ := by
  rw [feed]
  split <;> simp_all

theorem feed_of_found {c : Cursor} {token : Token} {word rest : List Char}
    (h : scan c.skipBlanks.rest = .found token word rest) :
    c.feed = (feed ⟨rest, c.skipBlanks.position.after word⟩).cons
      (.ok ⟨token, String.ofList word, c.skipBlanks.position⟩) := by
  rw [feed]
  split <;> simp_all

theorem feed_of_unterminated {c : Cursor} {quote : Char}
    (h : scan c.skipBlanks.rest = .unterminated quote) :
    c.feed = ⟨[.error (.unterminatedString quote c.skipBlanks.position)],
      .finished (c.skipBlanks.position.after c.skipBlanks.rest)⟩ := by
  rw [feed]
  split <;> simp_all

theorem feed_of_unexpected {c : Cursor} {ch : Char}
    (h : scan c.skipBlanks.rest = .unexpected ch) :
    c.feed = ⟨[], .stuck (.unexpectedChar ch c.skipBlanks.position)⟩ := by
  rw [feed]
  split <;> simp_all

@[simp] theorem skipBlanks_skipBlanks (c : Cursor) : c.skipBlanks.skipBlanks = c.skipBlanks := by
  have hdrop (text : List Char) :
      (text.dropWhile Unicode.isWhiteSpace).dropWhile Unicode.isWhiteSpace =
        text.dropWhile Unicode.isWhiteSpace := by
    induction text with
    | nil => rfl
    | cons ch text ih => by_cases h : Unicode.isWhiteSpace ch <;> simp [h, ih]
  have htake (text : List Char) :
      (text.dropWhile Unicode.isWhiteSpace).takeWhile Unicode.isWhiteSpace = [] := by
    induction text with
    | nil => rfl
    | cons ch text ih => by_cases h : Unicode.isWhiteSpace ch <;> simp [h, ih]
  simp [skipBlanks, hdrop, htake]

/-- **The feed is what the cursor reads.** -/
theorem next_feed (c : Cursor) : c.feed.next = (c.next.1, c.next.2.feed) := by
  unfold next readWord
  split
  · next h =>
    have h' : scan c.skipBlanks.skipBlanks.rest = .done := by rw [skipBlanks_skipBlanks, h]
    rw [feed_of_done h, feed_of_done h', skipBlanks_skipBlanks]
    rfl
  · next h => rw [feed_of_found h, Feed.next_cons]
  · next h =>
    rw [feed_of_unterminated h, feed_of_done rfl]
    rfl
  · next ch h =>
    have h' : scan c.skipBlanks.skipBlanks.rest = .unexpected ch := by
      rw [skipBlanks_skipBlanks, h]
    rw [feed_of_unexpected h, feed_of_unexpected h', skipBlanks_skipBlanks]
    rfl

end Cursor

/-- The lexemes of a source. -/
def Feed.ofSource (source : String) : Feed :=
  (Cursor.start source.toList).feed

end Binding
