import Binding.Parser.Session
import Binding.Proofs.Parser.Success
import Binding.Token.Lexer

/-!
# The tokens of a source

`tokens` reads a source to its end and gives its tokens, without the end of input and without their
places, or the error that it meets first.

The same is said of characters alone by `Spells`: words follow one another, with white space before
each of them.  Positions and sessions play no part in it, so it is what the texts of a tree are
compared with; and it can be cut at any word (`Spells.trans`).

## Main results

* `tokens_eq_ok_iff`: the tokens of a source are those that its characters spell.
* `Parser.reads_of_tokens`, `Parser.tokens_of_reads`: what a parser passes before the end of input
  are the tokens of its source.
-/

namespace Binding

/-- Only the end of a text is no word and no error. -/
theorem Scan.eq_nil_of_scan {text : List Char} (h : scan text = .done) : text = [] := by
  unfold scan at h
  split at h
  · rfl
  · split at h
    · simp at h
    · split at h
      · split at h <;> simp at h
      · split at h
        · simp at h
        · split at h <;> simp at h

/-- Reading the tokens off the front of the text, with the white space before each of them, leaves
the rest, up to white space. -/
inductive Spells : List Char → List Token → List Char → Prop
  | nil {text rest : List Char} :
    text.dropWhile Unicode.isWhiteSpace = rest.dropWhile Unicode.isWhiteSpace →
      Spells text [] rest
  | cons {text word middle rest : List Char} {t : Token} {ts : List Token} :
    scan (text.dropWhile Unicode.isWhiteSpace) = .found t word middle →
      Spells middle ts rest → Spells text (t :: ts) rest

namespace Spells

theorem refl (text : List Char) : Spells text [] text :=
  .nil rfl

/-- White space before the text does not matter. -/
theorem congr {text text' rest : List Char} {ts : List Token}
    (heq : text.dropWhile Unicode.isWhiteSpace = text'.dropWhile Unicode.isWhiteSpace)
    (h : Spells text ts rest) : Spells text' ts rest := by
  cases h with
  | nil hrest => exact .nil (heq ▸ hrest)
  | cons hscan h => exact .cons (heq ▸ hscan) h

theorem trans {text middle rest : List Char} {ts us : List Token} (h : Spells text ts middle)
    (h' : Spells middle us rest) : Spells text (ts ++ us) rest := by
  induction h with
  | nil heq => exact h'.congr heq.symm
  | cons hscan _ ih => exact .cons hscan (ih h')

/-- The tokens up to the end of the text: none if nothing but white space is left. -/
theorem nil_right_of_done {text : List Char} {ts : List Token}
    (h : scan (text.dropWhile Unicode.isWhiteSpace) = .done) : Spells text ts [] ↔ ts = [] := by
  constructor
  · rintro (_ | ⟨hscan, _⟩)
    · rfl
    · rw [h] at hscan
      nomatch hscan
  · rintro rfl
    exact .nil (Scan.eq_nil_of_scan h)

/-- The tokens up to the end of the text: the first word and those behind it. -/
theorem nil_right_of_found {text word rest : List Char} {t : Token} {ts : List Token}
    (h : scan (text.dropWhile Unicode.isWhiteSpace) = .found t word rest) :
    Spells text ts [] ↔ ∃ us, ts = t :: us ∧ Spells rest us [] := by
  constructor
  · rintro (hend | ⟨hscan, hrest⟩)
    · rw [hend] at h
      nomatch h
    · rw [h] at hscan
      cases hscan
      exact ⟨_, rfl, hrest⟩
  · rintro ⟨us, rfl, hrest⟩
    exact .cons h hrest

/-- No tokens lead to the end of a text where no word can be read. -/
theorem not_nil_right {text : List Char} {ts : List Token}
    (hdone : scan (text.dropWhile Unicode.isWhiteSpace) ≠ .done)
    (hfound : ∀ t word rest, scan (text.dropWhile Unicode.isWhiteSpace) ≠ .found t word rest) :
    ¬Spells text ts [] := by
  rintro (hend | ⟨hscan, _⟩)
  · exact hdone (by rw [hend]; rfl)
  · exact hfound _ _ _ hscan

end Spells

namespace Lexer

/-- The tokens that are left, without the end of input, or the error that comes first. -/
def tokens (l : Lexer) : Except LexError (List Token) := do
  let lexemes ← l.toList.mapM id
  return lexemes.dropLast.map Lexeme.token

variable {l : Lexer}

theorem toList_finished (h : l.finished = true) : l.toList = [] := by
  rw [toList]
  split
  · next hnext => simp [next?, h] at hnext
  · rfl

theorem toList_next (h : l.finished = false) :
    l.toList = l.cursor.next.1 ::
      toList { l with cursor := l.cursor.next.2, finished := isLast l.cursor.next.1 } := by
  rw [toList]
  split
  · next hnext =>
    simp only [next?, h, nextLexeme, Bool.false_eq_true, if_false, Prod.mk.injEq,
      Option.some.injEq] at hnext
    obtain ⟨rfl, rfl⟩ := hnext
    rfl
  · next hnext => simp [next?, h] at hnext

/-- At the end of the source, the end of input is the only item. -/
theorem toList_of_done (hl : l.finished = false) (h : scan l.cursor.skipBlanks.rest = .done) :
    l.toList = [.ok ⟨.eof, "", l.cursor.skipBlanks.position⟩] := by
  have hnext : l.cursor.next.1 = .ok ⟨.eof, "", l.cursor.skipBlanks.position⟩ := by
    simp [Cursor.next, Cursor.readWord, h]
  rw [toList_next hl, toList_finished (by simp [hnext, isLast]), hnext]

/-- A word is the first item, and the iteration goes on behind it. -/
theorem toList_of_found (hl : l.finished = false) {t : Token} {word rest : List Char}
    (h : scan l.cursor.skipBlanks.rest = .found t word rest) :
    l.toList = .ok ⟨t, String.ofList word, l.cursor.skipBlanks.position⟩ ::
      toList { l with cursor := ⟨rest, l.cursor.skipBlanks.position.after word⟩ } := by
  have hnext : l.cursor.next =
      (.ok ⟨t, String.ofList word, l.cursor.skipBlanks.position⟩,
        ⟨rest, l.cursor.skipBlanks.position.after word⟩) := by
    simp [Cursor.next, Cursor.readWord, h]
  have hlast : isLast l.cursor.next.1 = l.finished := by
    simp [hnext, isLast, Scan.token_ne_eof_of_scan h, hl]
  rw [toList_next hl, hlast, hnext]

/-- An error is the only item. -/
theorem toList_of_error (hl : l.finished = false) {e : LexError} (h : l.cursor.next.1 = .error e) :
    l.toList = [.error e] := by
  rw [toList_next hl, toList_finished (by rw [h]; rfl), h]

theorem next_of_unterminated {quote : Char}
    (h : scan l.cursor.skipBlanks.rest = .unterminated quote) :
    l.cursor.next.1 = .error (.unterminatedString quote l.cursor.skipBlanks.position) := by
  simp [Cursor.next, Cursor.readWord, h]

theorem next_of_unexpected {ch : Char} (h : scan l.cursor.skipBlanks.rest = .unexpected ch) :
    l.cursor.next.1 = .error (.unexpectedChar ch l.cursor.skipBlanks.position) := by
  simp [Cursor.next, Cursor.readWord, h]

/-- At the end of the source there are no tokens. -/
theorem tokens_of_done (hl : l.finished = false) (h : scan l.cursor.skipBlanks.rest = .done) :
    l.tokens = .ok [] := by
  rw [tokens, toList_of_done hl h]
  rfl

/-- The iteration gives a lexeme before it ends without an error. -/
theorem ne_nil_of_mapM (h : l.finished = false) {lexemes : List Lexeme}
    (hok : l.toList.mapM id = Except.ok lexemes) : lexemes ≠ [] := by
  rw [toList_next h, List.mapM_cons] at hok
  rintro rfl
  cases hitem : l.cursor.next.1 with
  | error e => simp [hitem, bind, Except.bind] at hok
  | ok lexeme =>
    rw [hitem] at hok
    generalize toList _ = items at hok
    cases hrest : items.mapM id <;>
      simp [hrest, bind, Except.bind, pure, Except.pure] at hok

/-- A word is the first token. -/
theorem tokens_of_found (hl : l.finished = false) {t : Token} {word rest : List Char}
    (h : scan l.cursor.skipBlanks.rest = .found t word rest) :
    l.tokens = (tokens { l with
      cursor := ⟨rest, l.cursor.skipBlanks.position.after word⟩ }).map (t :: ·) := by
  rw [tokens, toList_of_found hl h, tokens, List.mapM_cons]
  cases hrest : (toList { l with
      cursor := ⟨rest, l.cursor.skipBlanks.position.after word⟩ }).mapM id with
  | error e => rfl
  | ok lexemes =>
    -- The iteration goes on, so the lexeme is not the one that `dropLast` takes away.
    have hne : lexemes ≠ [] := ne_nil_of_mapM (by exact hl) hrest
    simp [bind, Except.bind, pure, Except.pure, Except.map, List.dropLast_cons_of_ne_nil hne]

theorem tokens_of_error (hl : l.finished = false) {e : LexError} (h : l.cursor.next.1 = .error e) :
    l.tokens = .error e := by
  rw [tokens, toList_of_error hl h]
  rfl

/-- **Tokens are spelled.**  The tokens of a lexer are those that its characters spell. -/
theorem tokens_eq_ok_iff (hl : l.finished = false) {ts : List Token} :
    l.tokens = .ok ts ↔ Spells l.cursor.rest ts [] := by
  -- By recursion on what is left: a word is never empty.
  induction hn : l.cursor.rest.length using Nat.strongRecOn generalizing l ts with
  | ind n ih =>
    cases hscan : scan (l.cursor.rest.dropWhile Unicode.isWhiteSpace) with
    | done => simp [tokens_of_done hl hscan, Spells.nil_right_of_done hscan, eq_comm]
    | found t word rest =>
      have hlt : rest.length < n := hn ▸ Nat.lt_of_lt_of_le (Scan.length_rest_lt_of_scan hscan)
        l.cursor.length_rest_skipBlanks_le
      rw [tokens_of_found hl hscan, Spells.nil_right_of_found hscan]
      generalize hafter : ({ l with
        cursor := ⟨rest, l.cursor.skipBlanks.position.after word⟩ } : Lexer) = after
      have hiff (us : List Token) : after.tokens = .ok us ↔ Spells rest us [] := by
        subst hafter
        exact ih rest.length hlt (by exact hl) rfl
      cases htokens : after.tokens with
      | error e => simp [Except.map, ← hiff, htokens]
      | ok us => simp [Except.map, ← hiff, htokens, eq_comm]
    | unterminated quote =>
      simp [tokens_of_error hl (next_of_unterminated hscan), Spells.not_nil_right, hscan]
    | unexpected ch =>
      simp [tokens_of_error hl (next_of_unexpected hscan), Spells.not_nil_right, hscan]

end Lexer

/-- The tokens of a source, without the end of input, or the error that comes first. -/
def tokens (source : String) : Except LexError (List Token) :=
  (Lexer.ofSource source).tokens

theorem tokens_eq_ok_iff {source : String} {ts : List Token} :
    tokens source = .ok ts ↔ Spells source.toList ts [] :=
  Lexer.tokens_eq_ok_iff rfl

namespace Parser

variable {σ : Type}

/-- A parser before a feed moves to where a parser of the feed begins. -/
theorem next?_eq_some_iff_ofFeed {feed : Feed} {current : Lexeme} {allowance : Option Allowance}
    {built : σ} {p : Parser σ} :
    next? ⟨feed, current, allowance, built⟩ = some p ↔ ofFeed feed allowance built = .ok p := by
  unfold ofFeed next?
  cases feed.next with
  | mk item feed => cases item <;> simp

theorem allowance_of_ofFeed {feed : Feed} {allowance : Option Allowance} {built : σ}
    {p : Parser σ} (h : ofFeed feed allowance built = .ok p) : p.allowance = allowance := by
  unfold ofFeed at h
  split at h
  · rw [← Except.ok.inj h]
  · simp at h

/-- A parser at the first lexeme of what the cursor reads passes the tokens there. -/
theorem reads_of_spells {c : Cursor} {ts : List Token} (h : Spells c.rest ts [])
    (allowance : Option Allowance) (built : σ) :
    ∃ p q, ofFeed c.feed allowance built = .ok p ∧ p.Reads ts q ∧
      q.current.token = .eof ∧ q.next? = some q := by
  induction ts generalizing c with
  | nil =>
    have hscan : scan c.skipBlanks.rest = .done := by
      cases h with
      | nil hend => simp [Cursor.skipBlanks, hend, scan]
    rw [Cursor.feed_of_done hscan]
    exact ⟨_, _, rfl, rfl, rfl, rfl⟩
  | cons t ts ih =>
    cases h with
    | @cons _ word rest _ _ _ hscan hrest =>
      obtain ⟨p, q, hp, hq, hend⟩ :=
        ih (c := ⟨rest, c.skipBlanks.position.after word⟩) hrest
      rw [Cursor.feed_of_found hscan]
      refine ⟨_, q, rfl, ⟨⟨rfl, Scan.token_ne_eof_of_scan hscan⟩, p, ?_, hq⟩, hend⟩
      exact next?_eq_some_iff_ofFeed.2 hp

/-- Tokens that such a parser passes before the end of input are those that the cursor reads. -/
theorem spells_of_reads {c : Cursor} {ts : List Token} {allowance : Option Allowance} {built : σ}
    {p q : Parser σ} (hp : ofFeed c.feed allowance built = .ok p) (hq : p.Reads ts q)
    (heof : q.current.token = .eof) : Spells c.rest ts [] := by
  induction ts generalizing c p with
  | nil =>
    obtain rfl := reads_nil.1 hq
    cases hscan : scan c.skipBlanks.rest with
    | done => exact (Spells.nil_right_of_done hscan).2 rfl
    | found t word rest =>
      rw [Cursor.feed_of_found hscan] at hp
      obtain rfl := Except.ok.inj hp
      exact absurd heof (Scan.token_ne_eof_of_scan hscan)
    | unterminated quote => simp [Cursor.feed_of_unterminated hscan, ofFeed, Feed.next] at hp
    | unexpected ch => simp [Cursor.feed_of_unexpected hscan, ofFeed, Feed.next, Ending.item] at hp
  | cons t ts ih =>
    obtain ⟨⟨ht, hne⟩, r, hr, hrest⟩ := reads_cons.1 hq
    cases hscan : scan c.skipBlanks.rest with
    | done =>
      rw [Cursor.feed_of_done hscan] at hp
      obtain rfl := Except.ok.inj hp
      exact absurd ht.symm hne
    | found t' word rest =>
      rw [Cursor.feed_of_found hscan] at hp
      obtain rfl := Except.ok.inj hp
      obtain rfl : t' = t := ht
      exact .cons hscan (ih (c := ⟨rest, _⟩) (next?_eq_some_iff_ofFeed.1 hr) hrest)
    | unterminated quote => simp [Cursor.feed_of_unterminated hscan, ofFeed, Feed.next] at hp
    | unexpected ch => simp [Cursor.feed_of_unexpected hscan, ofFeed, Feed.next, Ending.item] at hp

/-- **A parser passes the tokens of its source** and then stays at the end of input. -/
theorem reads_of_tokens {source : String} {ts : List Token} (h : tokens source = .ok ts)
    (allowance : Option Allowance) (built : σ) :
    ∃ p q, ofSource source allowance built = .ok p ∧ p.Reads ts q ∧
      q.current.token = .eof ∧ q.next? = some q :=
  reads_of_spells (c := .start source.toList) (tokens_eq_ok_iff.1 h) allowance built

/-- Tokens that a parser passes before the end of input are those of its source. -/
theorem tokens_of_reads {source : String} {ts : List Token} {allowance : Option Allowance}
    {built : σ} {p q : Parser σ} (hp : ofSource source allowance built = .ok p)
    (hq : p.Reads ts q) (heof : q.current.token = .eof) : tokens source = .ok ts :=
  tokens_eq_ok_iff.2 (spells_of_reads (c := .start source.toList) hp hq heof)

end Parser

end Binding
