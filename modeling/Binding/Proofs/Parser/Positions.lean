import Binding.Proofs.Parser.Reuse
import Binding.Proofs.Token.Sessions
import Mathlib.Data.List.DropRight

/-!
# Lines and columns

A position counts the same way three times, and only its offset says where it is.  The line and the
column are right if they are what the characters before that place give: how many line feeds there
are, and how many characters stand behind the last of them (`Position.Counts`).

Nothing computes a line or a column but `Position.step`, so the law is proved of the way over a
text, and a cursor at a place of the source has it there (`Cursor.Stands.counts`).  All positions
that a lexer or a parser ever shows are those of such cursors.

## Where the positions come from

An item that is read, a lexeme or an error, has the position behind the white space.  A parser shows
the position of its current lexeme, or that of an error in reading.  It may have put another token
into the current lexeme, or have met an error and gone on to the end of the source; still its lexeme
has a place in the source, and its feed reads on from one (`Parser.Placed`).

## Main results

* `Position.counts_after`: the position after a text counts its lines and columns.
* `Lexer.stands_afterQueries`: after any queries, a lexer stands at a place of its source.
* `Lexer.positions_count`: every position of a session counts, and so does every position in the
  errors of a parser that takes the session over.
-/

namespace Binding

/-! ### Counting -/

namespace Position

/-- The place is in the source, and the line and the column are those that it has there. -/
structure Counts (p : Position) (source : List Char) : Prop where
  offset_le : p.offset ≤ source.length
  line_eq : p.line = 1 + (source.take p.offset).count '\n'
  column_eq : p.column = 1 + ((source.take p.offset).rtakeWhile (· ≠ '\n')).length

theorem after_concat (p : Position) (text : List Char) (c : Char) :
    p.after (text ++ [c]) = (p.after text).step c :=
  after_append p text [c]

theorem line_start_after (text : List Char) :
    (start.after text).line = 1 + text.count '\n' := by
  induction text using List.reverseRecOn with
  | nil => rfl
  | append_singleton text c ih =>
    rw [after_concat, step, List.count_append, List.count_singleton]
    by_cases hc : c = '\n'
    · rw [if_pos hc, if_pos (beq_iff_eq.2 hc), ih, Nat.add_assoc]
    · rw [if_neg hc, if_neg (by simpa using hc), ih, Nat.add_zero]

theorem column_start_after (text : List Char) :
    (start.after text).column = 1 + (text.rtakeWhile (· ≠ '\n')).length := by
  induction text using List.reverseRecOn with
  | nil => rfl
  | append_singleton text c ih =>
    rw [after_concat, step, List.rtakeWhile_concat]
    by_cases hc : c = '\n'
    · rw [if_pos hc, if_neg (by simpa using hc)]
      rfl
    · rw [if_neg hc, if_pos (by simpa using hc), ih, List.length_append, Nat.add_assoc]
      rfl

/-- **The position after a text counts its lines and columns,** whatever follows the text. -/
theorem counts_after (text rest : List Char) : (start.after text).Counts (text ++ rest) where
  offset_le := by
    rw [offset_start_after, List.length_append]
    exact Nat.le_add_right _ _
  line_eq := by rw [offset_start_after, List.take_left, line_start_after]
  column_eq := by rw [offset_start_after, List.take_left, column_start_after]

end Position

namespace Cursor

variable {c : Cursor} {source : List Char}

theorem Stands.counts (h : c.Stands source) : c.position.Counts source := by
  obtain ⟨before, rfl, hposition⟩ := h
  rw [hposition]
  exact Position.counts_after before c.rest

/-- What is read at a place of the source has a position that counts, also if it is an error. -/
theorem Stands.counts_placeOf (h : c.Stands source) : (placeOf c.next.1).Counts source := by
  rw [placeOf_next]
  exact h.skipBlanks.counts

/-- Behind the white space, the cursor moves over the text of the lexeme. -/
theorem moves_over_text {x : Lexeme} (hx : c.next.1 = .ok x) :
    c.skipBlanks.rest = x.text.toList ++ c.next.2.rest ∧
      c.next.2.position = c.skipBlanks.position.after x.text.toList := by
  unfold Cursor.next readWord at hx ⊢
  split at hx
  · obtain rfl := Except.ok.inj hx
    exact ⟨rfl, rfl⟩
  · next word rest hscan =>
    obtain rfl := Except.ok.inj hx
    rw [String.toList_ofList]
    exact ⟨(Scan.append_of_scan hscan).symm, rfl⟩
  · nomatch hx
  · nomatch hx

/-- **The text of a lexeme is a slice of the source,** from its position to where the cursor is. -/
theorem Stands.slice_next (h : c.Stands source) {x : Lexeme} (hx : c.next.1 = .ok x) :
    x.position.offset ≤ c.next.2.position.offset ∧
      c.next.2.position.offset ≤ source.length ∧
      x.text.toList = source.extract x.position.offset c.next.2.position.offset := by
  obtain ⟨hrest, hposition⟩ := moves_over_text hx
  have hplace : x.position = c.skipBlanks.position := (next_cases (Prod.ext hx rfl)).1
  obtain ⟨before, hsource, hbefore⟩ := h.skipBlanks
  have hfrom : x.position.offset = before.length := by
    rw [hplace, hbefore, Position.offset_start_after]
  have hto : c.next.2.position.offset = before.length + x.text.toList.length := by
    rw [hposition, Position.offset_after, ← hplace, hfrom]
  refine ⟨by omega, ?_, ?_⟩
  · rw [hto, hsource, hrest, List.length_append, List.length_append]
    omega
  · rw [hfrom, hto, hsource, hrest, List.extract, List.drop_left, Nat.add_sub_cancel_left,
      List.take_left]

end Cursor

/-! ### Lexers -/

namespace Lexer

variable {source : String} {l : Lexer}

/-- **After any queries, a lexer stands at a place of its source.** -/
theorem stands_afterQueries (source : String) (queries : List Query) :
    ((ofSource source).afterQueries queries).cursor.Stands source.toList := by
  rw [(follows_afterQueries source queries).cursor_eq]
  exact (Cursor.stands_start source.toList).afterReading _

/-- The position that an answer carries.  A token has none. -/
def Answer.position? : Answer → Option Position
  | .item given => given.map Cursor.placeOf
  | .lexeme result => some (Cursor.placeOf result)
  | .token (.error e) => some e.position
  | .token (.ok _) | .restarted => none

/-- **One query:** if the answer carries a position, it is that of what the cursor reads. -/
theorem counts_apply (hl : l.cursor.Stands source.toList) (query : Query) :
    ∀ p ∈ (query.apply l).1.position?, p.Counts source.toList := by
  intro p hp
  suffices hplace : p = Cursor.placeOf l.cursor.next.1 from hplace ▸ hl.counts_placeOf
  rw [Option.mem_def, fst_apply] at hp
  cases query with
  | next =>
    obtain ⟨item, hitem, rfl⟩ := Option.map_eq_some_iff.1 hp
    by_cases hfinished : l.finished = true
    · rw [if_pos hfinished] at hitem
      nomatch hitem
    · rw [if_neg hfinished] at hitem
      rw [Option.some.inj hitem]
  | nextLexeme => exact (Option.some.inj hp).symm
  | nextToken =>
    cases hnext : l.cursor.next.1 with
    | ok x =>
      rw [hnext] at hp
      nomatch hp
    | error e =>
      rw [hnext] at hp
      exact (Option.some.inj hp).symm
  | reset => nomatch hp

/-- **A session:** the positions in all its answers count. -/
theorem counts_answers (source : String) (queries : List Query) :
    ∀ answer ∈ (ofSource source).answers queries, ∀ p ∈ answer.position?,
      p.Counts source.toList := by
  induction queries using List.reverseRecOn with
  | nil => nofun
  | append_singleton queries query ih =>
    intro answer hanswer
    rw [answers_concat] at hanswer
    rcases List.mem_append.1 hanswer with hearlier | hlast
    · exact ih answer hearlier
    · obtain rfl := List.mem_singleton.1 hlast
      exact counts_apply (stands_afterQueries source queries) query

end Lexer

/-! ### Parsers -/

namespace Parser

variable {σ : Type} {source : String} {p : Parser σ}

/-- The current lexeme keeps its place when another token is put into it. -/
theorem Placed.counts_current (h : p.Placed source) :
    p.current.position.Counts source.toList := by
  obtain ⟨l, c, hl, hcurrent, -⟩ := h
  have hplace := (Cursor.stands_into source.toList p.current.position.offset).counts_placeOf
  rw [hl] at hplace
  rw [hcurrent]
  exact hplace

/-- **Errors of a parser in a source have positions that count.** -/
theorem Placed.reports (source : String) :
    Reports (Placed (σ := σ) source) fun e => e.position.Counts source.toList where
  lex hp hnext := by
    obtain ⟨d, hd, hfeed⟩ := hp.exists_stands
    rw [hfeed, Cursor.next_feed] at hnext
    have hplace := hd.counts_placeOf
    rwa [(Prod.mk.inj hnext).1] at hplace
  unexpected _ hp := hp.counts_current
  nestingLimit _ hp := hp.counts_current

end Parser

namespace Lexer

/-- **Positions count everywhere.**  Whatever has been asked of a lexer, its own position and every
position in its answers have the line and the column that belong to the offset, and the offset is in
the source.  The text of the next lexeme is a slice of the source, between two such places.  And a
parser that takes over the lexer, with whatever builder and allowance, fails only with errors whose
positions count: at once, or in any of the calls that follow. -/
theorem positions_count (source : String) (queries : List Query) :
    let l := (ofSource source).afterQueries queries
    l.cursor.position.Counts source.toList ∧
    (∀ answer ∈ (ofSource source).answers queries, ∀ p ∈ answer.position?,
      p.Counts source.toList) ∧
    (∀ x l', l.nextLexeme = (.ok x, l') →
      x.position.offset ≤ l'.cursor.position.offset ∧
      l'.cursor.position.offset ≤ source.toList.length ∧
      x.text.toList = source.toList.extract x.position.offset l'.cursor.position.offset) ∧
    ∀ (σ α : Type) (build : Builder σ α) (allowance : Option Allowance) (built : σ),
      match Parser.ofFeed l.cursor.feed allowance built with
      | .error e => e.position.Counts source.toList
      | .ok p => ∀ (calls : List Call) (e : ParseError), .error e ∈ p.results build calls →
          e.position.Counts source.toList := by
  intro l
  have hstands : l.cursor.Stands source.toList := stands_afterQueries source queries
  refine ⟨hstands.counts, counts_answers source queries, ?_, ?_⟩
  · intro x l' hx
    obtain ⟨hitem, rfl⟩ := Prod.mk.inj hx
    exact hstands.slice_next hitem
  · intro σ α build allowance built
    rw [Parser.ofFeed, Cursor.next_feed]
    cases hitem : l.cursor.next.1 with
    | error e =>
      have hplace := hstands.counts_placeOf
      rwa [hitem] at hplace
    | ok x =>
      intro calls e he
      have hnext : l.cursor.feed.next = (.ok x, l.cursor.next.2.feed) := by
        rw [Cursor.next_feed, hitem]
      have hintact : Parser.Intact source ⟨l.cursor.next.2.feed, x, allowance, built⟩ :=
        Parser.intact_of_next hstands hnext rfl rfl
      exact (Parser.Placed.invariant build source).reports_results (Parser.Placed.reports source)
        hintact.placed he

end Lexer

end Binding
