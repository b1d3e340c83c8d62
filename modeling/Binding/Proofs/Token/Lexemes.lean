import Binding.Proofs.Token.Written

/-!
# The lexemes of a source, one by one

`lexemes` gives the lexemes of a source up to and including the end of input, or up to the first
word that cannot be read.  Errors speak of a lexeme by its position, and no two lexemes of a source
begin at the same place, so that the position tells which of them is meant.

A parser takes its lexemes from a feed.  `Feed.Takes` says which ones it gets; they are those of the
source, as long as nothing is taken behind the end of input (`takes_lexemes`, `prefix_lexemes`).

Behind the end of input a feed gives the same lexeme over and over, and then the feeds before and
after it do not tell how many lexemes have been taken.  A feed that has an error in it cannot go on
for ever, and there they do (`Feed.Bounded`).

## Main results

* `lexemes_of_ok`, `lexemes_of_error`: the two ways in which a source can end.
* `prefix_lexemes`: what a parser takes are the first lexemes of the source.
* `position_lexemes_inj`: the position tells the lexeme.
-/

namespace Binding

namespace Feed

/-- Taking the lexemes leads from the first feed to the second. -/
def Takes : Feed → List Lexeme → Feed → Prop
  | f, [], g => g = f
  | f, l :: ls, g => ∃ h, f.next = (.ok l, h) ∧ h.Takes ls g

variable {f g h : Feed} {ls ls' : List Lexeme}

theorem takes_append : f.Takes (ls ++ ls') g ↔ ∃ h, f.Takes ls h ∧ h.Takes ls' g := by
  induction ls generalizing f with
  | nil => exact ⟨fun hg => ⟨f, rfl, hg⟩, fun ⟨_, hf, hg⟩ => hf ▸ hg⟩
  | cons l ls ih =>
    constructor
    · rintro ⟨f', hl, hg⟩
      obtain ⟨h, hls, hg⟩ := ih.1 hg
      exact ⟨h, ⟨f', hl, hls⟩, hg⟩
    · rintro ⟨h, ⟨f', hl, hls⟩, hg⟩
      exact ⟨f', hl, ih.2 ⟨h, hls, hg⟩⟩

/-- As many lexemes are always the same ones. -/
theorem Takes.unique (hg : f.Takes ls g) (hh : f.Takes ls' h) (hlength : ls.length = ls'.length) :
    ls = ls' ∧ g = h := by
  induction ls generalizing f ls' with
  | nil =>
    obtain rfl := List.length_eq_zero_iff.1 hlength.symm
    exact ⟨rfl, hg.trans hh.symm⟩
  | cons l ls ih =>
    obtain ⟨l', ls', rfl⟩ : ∃ l' ls'', ls' = l' :: ls'' :=
      List.exists_cons_of_length_eq_add_one hlength.symm
    obtain ⟨f₁, hl, hg⟩ := hg
    obtain ⟨f₂, hl', hh⟩ := hh
    obtain ⟨hitem, rfl⟩ := Prod.mk.inj (hl.symm.trans hl')
    obtain ⟨rfl, rfl⟩ := ih hg hh (Nat.succ.inj hlength)
    exact ⟨by rw [Except.ok.inj hitem], rfl⟩

/-- A feed of given lexemes, which ends in an error. -/
def ofList (ls : List Lexeme) (e : LexError) : Feed :=
  ⟨ls.map .ok, .stuck e⟩

theorem takes_ofList (ls : List Lexeme) (e : LexError) : (ofList ls e).Takes ls (ofList [] e) := by
  induction ls with
  | nil => rfl
  | cons l ls ih => exact ⟨ofList ls e, rfl, ih⟩

/-! ### Feeds with an error in them -/

/-- An error comes some time, so that not all can be taken without end. -/
def Bounded (f : Feed) : Prop :=
  (∃ e, f.ending = .stuck e) ∨ ∃ e, .error e ∈ f.ahead

theorem bounded_ofList (ls : List Lexeme) (e : LexError) : (ofList ls e).Bounded :=
  .inl ⟨e, rfl⟩

theorem Bounded.of_next {l : Lexeme} (hf : f.Bounded) (hl : f.next = (.ok l, g)) :
    g.Bounded ∧ f.ahead.length = g.ahead.length + 1 := by
  obtain ⟨ahead, ending⟩ := f
  cases ahead with
  | nil =>
    rcases hf with ⟨e, rfl⟩ | ⟨e, he⟩
    · simp [next, Ending.item] at hl
    · simp at he
  | cons item ahead =>
    obtain ⟨rfl, rfl⟩ := Prod.mk.inj hl
    refine ⟨hf.imp id ?_, by simp⟩
    rintro ⟨e, he⟩
    exact ⟨e, by simpa using he⟩

/-- Where no error ever comes, the next item is a lexeme. -/
theorem next_of_not_bounded (hf : ¬f.Bounded) :
    ∃ l g, f.next = (.ok l, g) ∧ ¬g.Bounded := by
  obtain ⟨ahead, ending⟩ := f
  cases ahead with
  | nil =>
    cases ending with
    | finished position => exact ⟨_, _, rfl, hf⟩
    | stuck e => exact absurd (.inl ⟨e, rfl⟩) hf
  | cons item ahead =>
    cases item with
    | ok l => exact ⟨l, _, rfl, fun h => hf (h.imp id fun ⟨e, he⟩ => ⟨e, by simpa using he⟩)⟩
    | error e => exact absurd (.inr ⟨e, by simp⟩) hf

theorem Bounded.of_takes (hf : f.Bounded) (hg : f.Takes ls g) :
    g.Bounded ∧ f.ahead.length = g.ahead.length + ls.length := by
  induction ls generalizing f with
  | nil =>
    obtain rfl := hg
    exact ⟨hf, rfl⟩
  | cons l ls ih =>
    obtain ⟨f', hl, hg⟩ := hg
    obtain ⟨hf', hlength⟩ := hf.of_next hl
    obtain ⟨hbounded, hrest⟩ := ih hf' hg
    refine ⟨hbounded, ?_⟩
    rw [hlength, hrest, List.length_cons, Nat.add_assoc]

/-- In a feed that has an error in it, the feed after some lexemes tells which ones they were. -/
theorem Takes.eq_of_bounded (hg : f.Takes ls g) (hg' : f.Takes ls' g) (hf : f.Bounded) :
    ls = ls' := by
  -- Every lexeme shortens what is ahead by one.
  have hlength := (hf.of_takes hg).2
  have hlength' := (hf.of_takes hg').2
  exact (hg.unique hg' (by omega)).1

/-- An error tells which lexemes came before it. -/
theorem Takes.eq_of_error {e e' : LexError} {g' h h' : Feed} (hg : f.Takes ls g)
    (hg' : f.Takes ls' g') (he : g.next = (.error e, h)) (he' : g'.next = (.error e', h')) :
    ls = ls' ∧ e = e' := by
  induction ls generalizing f ls' with
  | nil =>
    obtain rfl := hg
    cases ls' with
    | nil =>
      obtain rfl := hg'
      exact ⟨rfl, Except.error.inj (Prod.mk.inj (he.symm.trans he')).1⟩
    | cons l ls' =>
      obtain ⟨_, hl, -⟩ := hg'
      nomatch (Prod.mk.inj (he.symm.trans hl)).1
  | cons l ls ih =>
    obtain ⟨f₁, hl, hg⟩ := hg
    cases ls' with
    | nil =>
      obtain rfl := hg'
      nomatch (Prod.mk.inj (he'.symm.trans hl)).1
    | cons l' ls' =>
      obtain ⟨f₂, hl', hg'⟩ := hg'
      obtain ⟨hitem, rfl⟩ := Prod.mk.inj (hl.symm.trans hl')
      obtain ⟨rfl, rfl⟩ := ih hg hg'
      exact ⟨by rw [Except.ok.inj hitem], rfl⟩

end Feed

namespace Lexer

/-- The lexemes that are left, up to the end of input or the first error. -/
def lexemes (l : Lexer) : List Lexeme :=
  l.toList.filterMap Except.toOption

variable {l : Lexer}

/-- The first item that is left, and the feed after it. -/
theorem lexemes_eq_cons {x : Lexeme} {g : Feed} (hl : l.finished = false)
    (hx : l.cursor.feed.next = (.ok x, g)) :
    ∃ l' : Lexer, l.lexemes = x :: l'.lexemes ∧ l'.finished = decide (x.token = .eof) ∧
      l'.cursor.feed = g := by
  rw [Cursor.next_feed] at hx
  obtain ⟨hitem, rfl⟩ := Prod.mk.inj hx
  refine ⟨{ l with cursor := l.cursor.next.2, finished := isLast l.cursor.next.1 }, ?_, ?_, rfl⟩
  · rw [lexemes, toList_next hl, hitem]
    rfl
  · rw [hitem]
    rfl

/-- What is taken from the feed, but not behind the end of input, are the first lexemes. -/
theorem prefix_lexemes {ls : List Lexeme} {g : Feed} (hl : l.finished = false)
    (hls : l.cursor.feed.Takes ls g) (hne : ∀ x ∈ ls.dropLast, x.token ≠ .eof) :
    ls <+: l.lexemes := by
  induction ls generalizing l with
  | nil => exact List.nil_prefix
  | cons x ls ih =>
    obtain ⟨f, hx, hls⟩ := hls
    obtain ⟨l', hlexemes, hfinished, rfl⟩ := lexemes_eq_cons hl hx
    rw [hlexemes, List.cons_prefix_cons]
    refine ⟨rfl, ?_⟩
    by_cases hnil : ls = []
    · rw [hnil]
      exact List.nil_prefix
    · rw [List.dropLast_cons_of_ne_nil hnil] at hne
      have hx : x.token ≠ .eof := hne x List.mem_cons_self
      exact ih (by rw [hfinished, decide_eq_false hx]) hls fun y hy =>
        hne y (List.mem_cons_of_mem _ hy)

/-! ### Lexer by lexer -/

/-- The lexer behind a word that stands next. -/
def past (l : Lexer) (word rest : List Char) : Lexer :=
  { l with cursor := ⟨rest, l.cursor.skipBlanks.position.after word⟩ }

/-- Reading goes word by word, until there is none. -/
@[elab_as_elim]
theorem wordInduction {motive : Lexer → Prop}
    (done : ∀ l : Lexer, l.finished = false → scan l.cursor.skipBlanks.rest = .done → motive l)
    (found : ∀ (l : Lexer) (t : Token) (word rest : List Char), l.finished = false →
      scan l.cursor.skipBlanks.rest = .found t word rest → motive (l.past word rest) → motive l)
    (unterminated : ∀ (l : Lexer) (quote : Char), l.finished = false →
      scan l.cursor.skipBlanks.rest = .unterminated quote → motive l)
    (unexpected : ∀ (l : Lexer) (ch : Char), l.finished = false →
      scan l.cursor.skipBlanks.rest = .unexpected ch → motive l)
    (l : Lexer) (hl : l.finished = false) : motive l := by
  induction hn : l.cursor.rest.length using Nat.strongRecOn generalizing l with
  | ind n ih =>
    cases hscan : scan l.cursor.skipBlanks.rest with
    | done => exact done l hl hscan
    | found t word rest =>
      have hlt : rest.length < n := hn ▸ Nat.lt_of_lt_of_le (Scan.length_rest_lt_of_scan hscan)
        l.cursor.length_rest_skipBlanks_le
      exact found l t word rest hl hscan (ih rest.length hlt (l.past word rest) hl rfl)
    | unterminated quote => exact unterminated l quote hl hscan
    | unexpected ch => exact unexpected l ch hl hscan

theorem lexemes_of_done (hl : l.finished = false) (h : scan l.cursor.skipBlanks.rest = .done) :
    l.lexemes = [⟨.eof, "", l.cursor.skipBlanks.position⟩] := by
  rw [lexemes, toList_of_done hl h]
  rfl

theorem lexemes_of_found (hl : l.finished = false) {t : Token} {word rest : List Char}
    (h : scan l.cursor.skipBlanks.rest = .found t word rest) :
    l.lexemes = ⟨t, String.ofList word, l.cursor.skipBlanks.position⟩ ::
      (l.past word rest).lexemes := by
  rw [lexemes, toList_of_found hl h]
  rfl

theorem lexemes_of_error (hl : l.finished = false) {e : LexError} (h : l.cursor.next.1 = .error e) :
    l.lexemes = [] := by
  rw [lexemes, toList_of_error hl h]
  rfl

/-- **The two ways in which the lexemes can end:** with the end of input, or with an error. -/
theorem lexemes_cases (l : Lexer) (hl : l.finished = false) :
    match l.tokens with
    | .ok ts => l.lexemes.map Lexeme.token = ts ++ [.eof] ∧ ¬l.cursor.feed.Bounded ∧
      ∃ g, l.cursor.feed.Takes l.lexemes g
    | .error e => (∀ x ∈ l.lexemes, x.token ≠ .eof) ∧ l.cursor.feed.Bounded ∧
      ∃ g h, l.cursor.feed.Takes l.lexemes g ∧ g.next = (.error e, h) := by
  refine wordInduction ?_ ?_ ?_ ?_ l hl
  · intro l hl hscan
    rw [tokens_of_done hl hscan, lexemes_of_done hl hscan, Cursor.feed_of_done hscan]
    exact ⟨rfl, by simp [Feed.Bounded], _, _, rfl, rfl⟩
  · intro l t word rest hl hscan ih
    have htokens : l.tokens = (l.past word rest).tokens.map (t :: ·) := tokens_of_found hl hscan
    have hfeed := Cursor.feed_of_found hscan
    change l.cursor.feed = (l.past word rest).cursor.feed.cons _ at hfeed
    have hne := Scan.token_ne_eof_of_scan hscan
    rw [htokens, lexemes_of_found hl hscan, hfeed]
    generalize l.past word rest = l' at ih ⊢
    cases hl' : l'.tokens with
    | ok ts =>
      rw [hl'] at ih
      obtain ⟨hts, hbounded, g, hg⟩ := ih
      refine ⟨by rw [List.map_cons, hts]; rfl, fun h => hbounded ?_, g, _, rfl, hg⟩
      exact h.imp id fun ⟨e, he⟩ => ⟨e, by simpa [Feed.cons] using he⟩
    | error e =>
      rw [hl'] at ih
      obtain ⟨hall, hbounded, g, h, hg, he⟩ := ih
      refine ⟨?_, ?_, g, h, ⟨_, rfl, hg⟩, he⟩
      · intro x hx
        rcases List.mem_cons.1 hx with rfl | hx
        · exact hne
        · exact hall x hx
      · exact hbounded.imp id fun ⟨e, he⟩ => ⟨e, List.mem_cons_of_mem _ he⟩
  · intro l quote hl hscan
    rw [tokens_of_error hl (next_of_unterminated hscan),
      lexemes_of_error hl (next_of_unterminated hscan), Cursor.feed_of_unterminated hscan]
    exact ⟨by simp, .inr ⟨_, List.mem_singleton_self _⟩, _, _, rfl, rfl⟩
  · intro l ch hl hscan
    rw [tokens_of_error hl (next_of_unexpected hscan),
      lexemes_of_error hl (next_of_unexpected hscan), Cursor.feed_of_unexpected hscan]
    exact ⟨by simp, .inl ⟨_, rfl⟩, _, _, rfl, rfl⟩

/-- Every lexeme but the end of input is one that can be read. -/
theorem readable_lexemes (l : Lexer) (hl : l.finished = false) :
    ∀ x ∈ l.lexemes, x.token ≠ .eof → x.token.Readable := by
  refine wordInduction ?_ ?_ ?_ ?_ l hl
  · intro l hl hscan x hx hne
    rw [lexemes_of_done hl hscan, List.mem_singleton] at hx
    exact absurd (congrArg Lexeme.token hx) hne
  · intro l t word rest hl hscan ih x hx hne
    rw [lexemes_of_found hl hscan] at hx
    rcases List.mem_cons.1 hx with rfl | hx
    · exact ⟨_, _, _, hscan⟩
    · exact ih x hx hne
  · intro l quote hl hscan x hx
    rw [lexemes_of_error hl (next_of_unterminated hscan)] at hx
    nomatch hx
  · intro l ch hl hscan x hx
    rw [lexemes_of_error hl (next_of_unexpected hscan)] at hx
    nomatch hx

/-- Every lexeme begins behind the one before it. -/
theorem pairwise_lexemes (l : Lexer) (hl : l.finished = false) :
    (∀ x ∈ l.lexemes, l.cursor.position.offset ≤ x.position.offset) ∧
      l.lexemes.Pairwise fun x y => x.position.offset < y.position.offset := by
  have hskip (l : Lexer) : l.cursor.position.offset ≤ l.cursor.skipBlanks.position.offset := by
    rw [Cursor.skipBlanks, Position.offset_after]
    exact Nat.le_add_right _ _
  refine wordInduction ?_ ?_ ?_ ?_ l hl
  · intro l hl hscan
    rw [lexemes_of_done hl hscan]
    exact ⟨by simpa using hskip l, List.pairwise_singleton _ _⟩
  · intro l t word rest hl hscan ih
    obtain ⟨hle, hpairwise⟩ := ih
    have hpast :
        l.cursor.skipBlanks.position.offset < (l.past word rest).cursor.position.offset := by
      have hword := List.length_pos_iff.2 (Scan.ne_nil_of_scan hscan)
      rw [past, Position.offset_after]
      omega
    rw [lexemes_of_found hl hscan]
    refine ⟨?_, List.pairwise_cons.2 ⟨fun y hy => Nat.lt_of_lt_of_le hpast (hle y hy), hpairwise⟩⟩
    intro x hx
    rcases List.mem_cons.1 hx with rfl | hx
    · exact hskip l
    · exact Nat.le_trans (Nat.le_trans (hskip l) (Nat.le_of_lt hpast)) (hle x hx)
  · intro l quote hl hscan
    rw [lexemes_of_error hl (next_of_unterminated hscan)]
    exact ⟨by simp, .nil⟩
  · intro l ch hl hscan
    rw [lexemes_of_error hl (next_of_unexpected hscan)]
    exact ⟨by simp, .nil⟩

end Lexer

/-! ### Sources -/

/-- The lexemes of a source up to and including the end of input, or up to the first word that
cannot be read. -/
def lexemes (source : String) : List Lexeme :=
  (Lexer.ofSource source).lexemes

variable {source : String}

/-- The lexemes of a source that can be read to its end. -/
theorem lexemes_of_ok {ts : List Token} (h : tokens source = .ok ts) :
    (lexemes source).map Lexeme.token = ts ++ [.eof] ∧ ¬(Feed.ofSource source).Bounded ∧
      ∃ g, (Feed.ofSource source).Takes (lexemes source) g := by
  have hcases := Lexer.lexemes_cases (.ofSource source) rfl
  rwa [show (Lexer.ofSource source).tokens = .ok ts from h] at hcases

/-- The lexemes of a source that cannot be read to its end. -/
theorem lexemes_of_error {e : LexError} (h : tokens source = .error e) :
    (∀ x ∈ lexemes source, x.token ≠ .eof) ∧ (Feed.ofSource source).Bounded ∧
      ∃ g g', (Feed.ofSource source).Takes (lexemes source) g ∧ g.next = (.error e, g') := by
  have hcases := Lexer.lexemes_cases (.ofSource source) rfl
  rwa [show (Lexer.ofSource source).tokens = .error e from h] at hcases

theorem takes_lexemes (source : String) :
    ∃ g, (Feed.ofSource source).Takes (lexemes source) g := by
  cases h : tokens source with
  | ok ts => exact (lexemes_of_ok h).2.2
  | error e =>
    obtain ⟨-, -, g, -, hg, -⟩ := lexemes_of_error h
    exact ⟨g, hg⟩

theorem readable_lexemes {x : Lexeme} (hx : x ∈ lexemes source) (hne : x.token ≠ .eof) :
    x.token.Readable :=
  Lexer.readable_lexemes (.ofSource source) rfl x hx hne

/-- What is taken from the feed, but not behind the end of input, are the first lexemes. -/
theorem prefix_lexemes {ls : List Lexeme} {g : Feed} (hls : (Feed.ofSource source).Takes ls g)
    (hne : ∀ x ∈ ls.dropLast, x.token ≠ .eof) : ls <+: lexemes source :=
  Lexer.prefix_lexemes (l := .ofSource source) rfl hls hne

/-- **The position tells the lexeme.** -/
theorem position_lexemes_inj {i j : Nat} {x y : Lexeme} (hx : (lexemes source)[i]? = some x)
    (hy : (lexemes source)[j]? = some y) (h : x.position = y.position) : i = j := by
  have hpairwise := (Lexer.pairwise_lexemes (.ofSource source) rfl).2
  obtain ⟨hi, rfl⟩ := List.getElem?_eq_some_iff.1 hx
  obtain ⟨hj, rfl⟩ := List.getElem?_eq_some_iff.1 hy
  have hoffset := congrArg Position.offset h
  rcases Nat.lt_trichotomy i j with hlt | heq | hlt
  · exact absurd hoffset (Nat.ne_of_lt (List.pairwise_iff_getElem.1 hpairwise i j hi hj hlt))
  · exact heq
  · exact absurd hoffset.symm (Nat.ne_of_lt (List.pairwise_iff_getElem.1 hpairwise j i hj hi hlt))

end Binding
