import Binding.Proofs.Token.Places
import Mathlib.Data.List.DropRight
import Mathlib.Logic.Function.Iterate

/-!
# Sessions of one lexer

A lexer can be read in three ways and started over, in any order.  Behind all of them there is one
stream: what a fresh lexer gives when it is read again and again (`Lexer.stream`).  A session only
ever shows the next element of the stream, in the form that it was asked for, and starts over when
it is told to.

## What the answers tell

Nothing but the earlier answers is needed to say what the next one is.  Of these, only the ones
since the lexer was last started over count (`Lexer.sinceReset`).  Each of them has used up one
element of the stream, unless the iteration had nothing to give (`Lexer.readings`).  And the
iteration has nothing more to give if and only if it has given the end of input or an error
(`Lexer.ended`); elements that were read in another way do not count for this, and reading in
another way goes on behind them.

So a lexer *follows* its answers (`Lexer.Follows`): they fix its cursor and its mark.  This is what
one query keeps, and therefore what a session keeps.

## Main results

* `Lexer.Follows.apply`, `Lexer.follows_afterQueries`: a lexer follows its answers.
* `Lexer.answers_refine_stream`: every answer of a session is an element of the stream.
-/

namespace Binding

/-! ### Reading again and again -/

namespace Cursor

/-- The cursor that has been read so many times. -/
def afterReading (c : Cursor) (n : Nat) : Cursor :=
  (fun c => c.next.2)^[n] c

theorem afterReading_succ (c : Cursor) (n : Nat) :
    c.afterReading (n + 1) = (c.afterReading n).next.2 :=
  Function.iterate_succ_apply' _ n c

/-- Every reading moves from place to place. -/
theorem Stands.afterReading {c : Cursor} {source : List Char} (h : c.Stands source) (n : Nat) :
    (c.afterReading n).Stands source := by
  induction n with
  | zero => exact h
  | succ n ih =>
    rw [afterReading_succ]
    exact ih.next

/-- A cursor that reading leaves where it is stays there. -/
theorem afterReading_of_fixed {c : Cursor} {m n : Nat} (hmn : m ≤ n)
    (h : (c.afterReading m).next.2 = c.afterReading m) : c.afterReading n = c.afterReading m := by
  induction n, hmn using Nat.le_induction with
  | base => rfl
  | succ n _ ih => rw [afterReading_succ, ih, h]

/-- Behind the end of input, and behind a character that begins no token, the same is read again. -/
theorem next_next_of_settled {c : Cursor} (h : c.next.2 = c.skipBlanks) :
    c.next.2.next = c.next := by
  rw [h, next_skipBlanks]

theorem next_snd_of_eof {c : Cursor} {x : Lexeme} (h : c.next.1 = .ok x) (hx : x.token = .eof) :
    c.next.2 = c.skipBlanks := by
  obtain ⟨-, ⟨-, -, hleft⟩ | ⟨word, hscan, -⟩⟩ := next_cases (Prod.ext h rfl)
  · exact hleft
  · exact absurd hx (Scan.token_ne_eof_of_scan hscan)

theorem next_snd_of_unexpectedChar {c : Cursor} {ch : Char} {position : Position}
    (h : c.next.1 = .error (.unexpectedChar ch position)) : c.next.2 = c.skipBlanks := by
  unfold Cursor.next readWord at h ⊢
  split at h <;> first | rfl | nomatch h

theorem rest_next_of_unterminatedString {c : Cursor} {quote : Char} {position : Position}
    (h : c.next.1 = .error (.unterminatedString quote position)) : c.next.2.rest = [] := by
  unfold Cursor.next readWord at h ⊢
  split at h <;> first | rfl | nomatch h

end Cursor

namespace Lexer

/-! ### The stream -/

/-- What a fresh lexer gives when it has been read so many times. -/
def stream (source : String) (n : Nat) : Except LexError Lexeme :=
  ((fun l => l.nextLexeme.2)^[n] (ofSource source)).nextLexeme.1

theorem iterate_nextLexeme (l : Lexer) (n : Nat) :
    (fun l => l.nextLexeme.2)^[n] l = { l with cursor := l.cursor.afterReading n } := by
  induction n with
  | zero => rfl
  | succ n ih =>
    rw [Function.iterate_succ_apply', ih, Cursor.afterReading_succ]
    rfl

theorem stream_eq (source : String) (n : Nat) :
    stream source n = ((Cursor.start source.toList).afterReading n).next.1 := by
  rw [stream, iterate_nextLexeme]
  rfl

/-- Where the same is read again, it is read for ever. -/
theorem stream_of_settled {source : String} {m n : Nat} (hmn : m ≤ n)
    (h : ((Cursor.start source.toList).afterReading m).next.2 =
      ((Cursor.start source.toList).afterReading m).skipBlanks) :
    stream source n = stream source m := by
  have hagain := Cursor.next_next_of_settled h
  obtain rfl | hlt := Nat.eq_or_lt_of_le hmn
  · rfl
  · rw [← Cursor.afterReading_succ] at hagain
    have hfixed : ((Cursor.start source.toList).afterReading (m + 1)).next.2 =
        (Cursor.start source.toList).afterReading (m + 1) := by
      rw [hagain, Cursor.afterReading_succ]
    rw [stream_eq, Cursor.afterReading_of_fixed hlt hfixed, hagain, stream_eq]

/-- Behind a string without a closing quote there is the end of the source. -/
theorem stream_of_unterminatedString {source : String} {m n : Nat} (hmn : m < n) {quote : Char}
    {position : Position} (h : stream source m = .error (.unterminatedString quote position)) :
    stream source n = .ok ⟨.eof, "", Position.start.after source.toList⟩ := by
  have hstands := (Cursor.stands_start source.toList).afterReading (m + 1)
  rw [stream_eq] at h
  have hnil := Cursor.rest_next_of_unterminatedString h
  rw [← Cursor.afterReading_succ] at hnil
  have hnext := Cursor.next_of_rest_eq_nil hnil
  rw [stream_eq, Cursor.afterReading_of_fixed hmn (by rw [hnext]), hnext]
  obtain ⟨before, hbefore, hposition⟩ := hstands
  rw [hnil, List.append_nil] at hbefore
  rw [hposition, hbefore]

/-! ### Queries and answers -/

/-- What a lexer can be asked for. -/
inductive Query where
  /-- The next item of the iteration. -/
  | next
  /-- The next lexeme. -/
  | nextLexeme
  /-- The token of the next lexeme. -/
  | nextToken
  /-- To start over. -/
  | reset
deriving DecidableEq

/-- What a lexer answers. -/
inductive Answer where
  | item (item : Option (Except LexError Lexeme))
  | lexeme (result : Except LexError Lexeme)
  | token (result : Except LexError Token)
  | restarted
deriving DecidableEq

/-- The answer to a query, and the lexer after it. -/
def Query.apply : Query → Lexer → Answer × Lexer
  | .next, l => (.item l.next?.1, l.next?.2)
  | .nextLexeme, l => (.lexeme l.nextLexeme.1, l.nextLexeme.2)
  | .nextToken, l => (.token l.nextToken.1, l.nextToken.2)
  | .reset, l => (.restarted, l.reset)

@[simp] theorem apply_next (l : Lexer) : Query.next.apply l = (.item l.next?.1, l.next?.2) := rfl

@[simp] theorem apply_nextLexeme (l : Lexer) :
    Query.nextLexeme.apply l = (.lexeme l.nextLexeme.1, l.nextLexeme.2) := rfl

@[simp] theorem apply_nextToken (l : Lexer) :
    Query.nextToken.apply l = (.token l.nextToken.1, l.nextToken.2) := rfl

@[simp] theorem apply_reset (l : Lexer) : Query.reset.apply l = (.restarted, l.reset) := rfl

/-- An answer is what the cursor reads, in the form that was asked for. -/
theorem fst_apply (query : Query) (l : Lexer) : (query.apply l).1 =
    match query with
    | .next => .item (if l.finished then none else some l.cursor.next.1)
    | .nextLexeme => .lexeme l.cursor.next.1
    | .nextToken => .token (l.cursor.next.1.map Lexeme.token)
    | .reset => .restarted := by
  cases query with
  | next =>
    rw [apply_next, next?]
    by_cases hfinished : l.finished = true
    · rw [if_pos hfinished]
      exact congrArg Answer.item (if_pos hfinished).symm
    · rw [if_neg hfinished]
      exact congrArg Answer.item (if_neg hfinished).symm
  | nextLexeme => rfl
  | nextToken => rfl
  | reset => rfl

/-- The lexer that the queries leave, one after the other. -/
def afterQueries (l : Lexer) (queries : List Query) : Lexer :=
  queries.foldl (fun l query => (query.apply l).2) l

/-- The answers to the queries, one after the other. -/
def answers : Lexer → List Query → List Answer
  | _, [] => []
  | l, query :: queries => (query.apply l).1 :: answers (query.apply l).2 queries

theorem afterQueries_concat (l : Lexer) (queries : List Query) (query : Query) :
    l.afterQueries (queries ++ [query]) = (query.apply (l.afterQueries queries)).2 := by
  simp [afterQueries]

theorem answers_concat (l : Lexer) (queries : List Query) (query : Query) :
    l.answers (queries ++ [query]) =
      l.answers queries ++ [(query.apply (l.afterQueries queries)).1] := by
  induction queries generalizing l with
  | nil => rfl
  | cons first queries ih =>
    rw [List.cons_append, answers, ih, answers, List.cons_append]
    rfl

/-! ### What the answers tell -/

/-- The answers since the lexer was last started over. -/
def sinceReset (answers : List Answer) : List Answer :=
  answers.rtakeWhile (· ≠ .restarted)

/-- How many elements of the stream the answers have used up. -/
def readings (history : List Answer) : Nat :=
  history.countP (· ≠ .item none)

/-- Whether the iteration gives the end of input or an error with the answer. -/
def closes : Answer → Bool
  | .item (some item) => isLast item
  | _ => false

/-- Whether the iteration has given the end of input or an error. -/
def ended (history : List Answer) : Bool :=
  history.any closes

/-- The cursor has been read as often as the answers tell, and the mark says whether they end the
iteration. -/
structure Follows (source : String) (history : List Answer) (l : Lexer) : Prop where
  source_eq : l.source = source.toList
  cursor_eq : l.cursor = (Cursor.start source.toList).afterReading (readings history)
  finished_eq : l.finished = ended history

theorem sinceReset_concat (answers : List Answer) (answer : Answer) :
    sinceReset (answers ++ [answer]) =
      if answer = .restarted then [] else sinceReset answers ++ [answer] := by
  rw [sinceReset, List.rtakeWhile_concat]
  by_cases h : answer = .restarted <;> simp [h, sinceReset]

theorem readings_concat {answer : Answer} (h : answer ≠ .item none) (history : List Answer) :
    readings (history ++ [answer]) = readings history + 1 := by
  simp [readings, h]

@[simp] theorem readings_concat_none (history : List Answer) :
    readings (history ++ [.item none]) = readings history := by
  simp [readings]

@[simp] theorem ended_concat (history : List Answer) (answer : Answer) :
    ended (history ++ [answer]) = (ended history || closes answer) := by
  simp [ended]

variable {source : String} {history : List Answer} {l : Lexer}

theorem follows_start (source : String) : (ofSource source).Follows source [] :=
  ⟨rfl, rfl, rfl⟩

/-- An element of the stream is read. -/
theorem Follows.read (h : l.Follows source history) {answer : Answer}
    (hcount : answer ≠ .item none) {finished : Bool}
    (hfinished : finished = (ended history || closes answer)) :
    Follows source (history ++ [answer]) { l with cursor := l.cursor.next.2, finished } where
  source_eq := h.source_eq
  cursor_eq := by rw [readings_concat hcount, Cursor.afterReading_succ, ← h.cursor_eq]
  finished_eq := by rw [ended_concat, hfinished]

/-- **One query:** the lexer follows its answers, the new one included. -/
theorem Follows.apply (h : l.Follows source history) (query : Query) :
    (query.apply l).2.Follows source
      (if (query.apply l).1 = .restarted then [] else history ++ [(query.apply l).1]) := by
  have hmark := h.finished_eq
  cases query with
  | next =>
    rw [if_neg (by simp)]
    by_cases hfinished : l.finished = true
    · -- The iteration has nothing to give, and nothing moves.
      have hnext : l.next? = (none, l) := by rw [next?, if_pos hfinished]
      rw [apply_next, hnext]
      refine ⟨h.source_eq, by rw [readings_concat_none, h.cursor_eq], ?_⟩
      rw [ended_concat, hmark]
      exact (Bool.or_false _).symm
    · have hnext : l.next? = (some l.cursor.next.1,
          { l with cursor := l.cursor.next.2, finished := isLast l.cursor.next.1 }) := by
        rw [next?, if_neg hfinished]
        rfl
      rw [apply_next, hnext]
      refine h.read (by simp) ?_
      rw [← hmark, Bool.eq_false_iff.2 hfinished]
      rfl
  | nextLexeme =>
    rw [if_neg (by simp)]
    exact h.read (by simp) (by rw [hmark]; exact (Bool.or_false _).symm)
  | nextToken =>
    rw [if_neg (by simp)]
    exact h.read (by simp) (by rw [hmark]; exact (Bool.or_false _).symm)
  | reset =>
    rw [if_pos (by simp)]
    exact ⟨h.source_eq, congrArg Cursor.start h.source_eq, rfl⟩

/-- **A session:** the lexer follows its answers since it was last started over. -/
theorem follows_afterQueries (source : String) (queries : List Query) :
    ((ofSource source).afterQueries queries).Follows source
      (sinceReset ((ofSource source).answers queries)) := by
  induction queries using List.reverseRecOn with
  | nil => exact follows_start source
  | append_singleton queries query ih =>
    rw [afterQueries_concat, answers_concat, sinceReset_concat]
    exact ih.apply query

/-- What is read next is the element of the stream that the answers lead to. -/
theorem Follows.next_eq (h : l.Follows source history) :
    l.cursor.next.1 = stream source (readings history) := by
  rw [stream_eq, h.cursor_eq]

/-- **A session shows one stream.**  The stream is what a fresh lexer gives when it is read again
and again; it goes on for ever with the end of input, with the same unexpected character, or, behind
a string without a closing quote, with the end of input at the end of the source.  Whatever has been
asked of a lexer before, in whatever order, its answer is the element of the stream that comes after
those which the earlier answers have used up since the lexer was last started over; only the
iteration gives nothing, exactly when it has given the end of input or an error since then. -/
theorem answers_refine_stream (source : String) :
    (∀ m n x, m ≤ n → stream source m = .ok x → x.token = .eof → stream source n = .ok x) ∧
    (∀ m n c position, m ≤ n → stream source m = .error (.unexpectedChar c position) →
      stream source n = .error (.unexpectedChar c position)) ∧
    (∀ m n quote position, m < n →
      stream source m = .error (.unterminatedString quote position) →
      stream source n = .ok ⟨.eof, "", Position.start.after source.toList⟩) ∧
    ∀ (earlier : List Query) (query : Query),
      let history := sinceReset ((ofSource source).answers earlier)
      let due := stream source (readings history)
      (ofSource source).answers (earlier ++ [query]) = (ofSource source).answers earlier ++
        [match query with
          | .next => .item (if ended history then none else some due)
          | .nextLexeme => .lexeme due
          | .nextToken => .token (due.map Lexeme.token)
          | .reset => .restarted] := by
  refine ⟨?_, ?_, ?_, ?_⟩
  · intro m n x hmn hx heof
    rw [stream_of_settled hmn (Cursor.next_snd_of_eof (stream_eq source m ▸ hx) heof), hx]
  · intro m n c position hmn hc
    rw [stream_of_settled hmn (Cursor.next_snd_of_unexpectedChar (stream_eq source m ▸ hc)), hc]
  · intro m n quote position hmn hquote
    exact stream_of_unterminatedString hmn hquote
  · intro earlier query history due
    have hfollows : Follows source history _ := follows_afterQueries source earlier
    have hdue : _ = due := hfollows.next_eq
    rw [answers_concat, fst_apply, ← hdue, ← hfollows.finished_eq]

end Lexer

end Binding
