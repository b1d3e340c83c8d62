import Binding.Proofs.Token.Written

/-!
# Places in a source

A cursor that has been moved through a source stands at a place of it: what it has left to read is
what follows that place, and its position is that of the place (`Cursor.Stands`).  The position of
a lexeme gives the place back, so that reading can be taken up there (`Cursor.Stands.into_next`).

A text may also be cut off.  Words look at what follows them, at most to find that it does not
prolong them, and what is cut off cannot prolong a word that it did not prolong before
(`Scan.scan_of_append`).  So the words between two places of a source are those of the text between
them.

## Main results

* `Cursor.Stands.next`, `Cursor.Stands.into_next`: reading moves from place to place.
* `Scan.scan_of_append`: a word is the same if the text behind it is cut off somewhere.
* `Cursor.spells_of_next`: the first word of a text that is cut off behind it.
-/

namespace Binding

theorem Position.offset_start_after (text : List Char) :
    (start.after text).offset = text.length := by
  rw [offset_after]
  exact Nat.zero_add _

namespace Cursor

/-- The cursor at a place of the source. -/
def into (source : List Char) (n : Nat) : Cursor :=
  ⟨source.drop n, Position.start.after (source.take n)⟩

/-- The cursor stands at a place of the source. -/
def Stands (c : Cursor) (source : List Char) : Prop :=
  ∃ before, source = before ++ c.rest ∧ c.position = Position.start.after before

variable {c : Cursor} {source : List Char}

theorem stands_start (source : List Char) : (start source).Stands source :=
  ⟨[], rfl, rfl⟩

theorem stands_into (source : List Char) (n : Nat) : (into source n).Stands source :=
  ⟨source.take n, (List.take_append_drop n source).symm, rfl⟩

theorem Stands.into_offset (h : c.Stands source) : into source c.position.offset = c := by
  obtain ⟨before, rfl, hposition⟩ := h
  have hoffset : c.position.offset = before.length := by
    rw [hposition, Position.offset_start_after]
  rw [into, hoffset, List.drop_left, List.take_left, ← hposition]

theorem Stands.length_eq (h : c.Stands source) :
    source.length = c.position.offset + c.rest.length := by
  obtain ⟨before, rfl, hposition⟩ := h
  rw [hposition, Position.offset_start_after, List.length_append]

/-- Moving over a part of what is left. -/
theorem Stands.move (h : c.Stands source) {part rest : List Char} (hrest : c.rest = part ++ rest) :
    Stands ⟨rest, c.position.after part⟩ source := by
  obtain ⟨before, rfl, hposition⟩ := h
  refine ⟨before ++ part, ?_, ?_⟩
  · rw [hrest, List.append_assoc]
  · rw [hposition, Position.after_append]

theorem Stands.skipBlanks (h : c.Stands source) : c.skipBlanks.Stands source :=
  h.move List.takeWhile_append_dropWhile.symm

/-- Reading moves over a part of what is left: white space, and then a word, or all, or nothing. -/
theorem exists_part_next (c : Cursor) :
    ∃ part, c.rest = part ++ c.next.2.rest ∧ c.next.2.position = c.position.after part := by
  have hblanks := @List.takeWhile_append_dropWhile _ Unicode.isWhiteSpace c.rest
  unfold Cursor.next readWord
  split
  · exact ⟨_, hblanks.symm, rfl⟩
  · next word rest hscan =>
    refine ⟨c.rest.takeWhile Unicode.isWhiteSpace ++ word, ?_, ?_⟩
    · rw [List.append_assoc, Scan.append_of_scan hscan]
      exact hblanks.symm
    · rw [skipBlanks, Position.after_append]
  · refine ⟨c.rest, (List.append_nil _).symm, ?_⟩
    rw [skipBlanks, ← Position.after_append, hblanks]
  · exact ⟨_, hblanks.symm, rfl⟩

/-- **Reading moves from place to place.** -/
theorem Stands.next (h : c.Stands source) : c.next.2.Stands source := by
  obtain ⟨part, hrest, hposition⟩ := c.exists_part_next
  have hmoved := h.move hrest
  rwa [← hposition] at hmoved

@[simp] theorem next_skipBlanks (c : Cursor) : c.skipBlanks.next = c.next := by
  rw [Cursor.next, skipBlanks_skipBlanks, Cursor.next]

/-- The place of an item: that of the lexeme, or that of the error. -/
def placeOf : Except LexError Lexeme → Position
  | .ok l => l.position
  | .error e => e.position

/-- Whatever is read stands behind the white space. -/
theorem placeOf_next (c : Cursor) : placeOf c.next.1 = c.skipBlanks.position := by
  unfold Cursor.next readWord
  split <;> rfl

/-- What has been read is the end of input, or a word. -/
theorem next_cases {c' : Cursor} {l : Lexeme} (h : c.next = (.ok l, c')) :
    l.position = c.skipBlanks.position ∧
      ((l.token = .eof ∧ scan c.skipBlanks.rest = .done ∧ c' = c.skipBlanks) ∨
        ∃ word, scan c.skipBlanks.rest = .found l.token word c'.rest ∧
          c'.position = c.skipBlanks.position.after word) := by
  unfold Cursor.next readWord at h
  split at h
  · next hscan =>
    obtain ⟨hl, rfl⟩ := Prod.mk.inj h
    obtain rfl := Except.ok.inj hl
    exact ⟨rfl, .inl ⟨rfl, hscan, rfl⟩⟩
  · next hscan =>
    obtain ⟨hl, rfl⟩ := Prod.mk.inj h
    obtain rfl := Except.ok.inj hl
    exact ⟨rfl, .inr ⟨_, hscan, rfl⟩⟩
  · nomatch h
  · nomatch h

/-- **The position of a lexeme is a place to read it from.** -/
theorem Stands.into_next (h : c.Stands source) {c' : Cursor} {l : Lexeme}
    (hl : c.next = (.ok l, c')) : (into source l.position.offset).next = c.next := by
  rw [(next_cases hl).1, h.skipBlanks.into_offset, next_skipBlanks]

/-- A lexeme begins where it is read from, if that is its place. -/
theorem offset_into {n : Nat} {c' : Cursor} {l : Lexeme}
    (h : (into source n).next = (.ok l, c')) (hn : l.position.offset = n) :
    (into source n).position.offset = n := by
  have hskip := congrArg Position.offset (next_cases h).1
  have hstart : (into source n).position.offset = min n source.length := by
    rw [into, Position.offset_start_after, List.length_take]
  have hblanks : ((into source n).rest.takeWhile Unicode.isWhiteSpace).length ≤ _ :=
    (List.takeWhile_sublist _).length_le
  have hrest : (into source n).rest.length = source.length - n := List.length_drop
  rw [skipBlanks, Position.offset_after] at hskip
  omega

/-- Behind an error the source ends, or it is read as if there had been none. -/
theorem next_of_error {e : LexError} (h : c.next.1 = .error e) :
    c.next.2.rest = [] ∨ c.next.2.feed = c.feed := by
  unfold Cursor.next readWord at h ⊢
  split at h
  · nomatch h
  · nomatch h
  · exact .inl rfl
  · next ch hscan =>
    refine .inr ?_
    rw [feed_of_unexpected hscan, feed_of_unexpected (by rw [skipBlanks_skipBlanks, hscan]),
      skipBlanks_skipBlanks]

theorem next_of_rest_eq_nil (h : c.rest = []) : c.next = (.ok ⟨.eof, "", c.position⟩, c) := by
  obtain ⟨rest, position⟩ := c
  obtain rfl : rest = [] := h
  rfl

end Cursor

/-! ### Texts that are cut off -/

namespace Scan

theorem head?_of_append {p : Char → Bool} {part after : List Char}
    (h : ∀ c ∈ (part ++ after).head?, p c = false) : ∀ c ∈ part.head?, p c = false := by
  cases part with
  | nil => nofun
  | cons d part => exact h

/-- Where a beginning of the text begins with a number, the text does. -/
theorem beginsNumber_append {text : List Char} (h : beginsNumber text = true)
    (after : List Char) : beginsNumber (text ++ after) = true := by
  unfold beginsNumber at h
  split at h
  · exact h
  · next c rest hne =>
    have hdot : c ≠ '.' := by
      rintro rfl
      simp at h
    rw [List.cons_append, beginsNumber_cons hdot]
    exact h
  · nomatch h

/-- The longest beginning of a kind is the same if the text behind it is cut off. -/
theorem takeWhile_of_append {p : Char → Bool} {word part after : List Char}
    (h : (word ++ (part ++ after)).takeWhile p = word) :
    (word ++ part).takeWhile p = word ∧ (word ++ part).dropWhile p = part := by
  have hword : ∀ c ∈ word, p c = true := h ▸ List.all_eq_true.1 List.all_takeWhile
  have hdrop : (word ++ (part ++ after)).dropWhile p = part ++ after := by
    have hall := @List.takeWhile_append_dropWhile _ p (word ++ (part ++ after))
    rw [h] at hall
    exact List.append_cancel_left hall
  have hrest := head?_dropWhile p (word ++ (part ++ after))
  rw [hdrop] at hrest
  exact takeWhile_append_of_head hword (head?_of_append hrest)

theorem beginsNumber_of_append {part after : List Char}
    (h : beginsNumber (part ++ after) = false) : beginsNumber part = false := by
  rw [Bool.eq_false_iff] at h ⊢
  exact fun hpart => h (beginsNumber_append hpart after)

theorem splitNumber_of_append {word part after : List Char}
    (h : splitNumber (word ++ (part ++ after)) = (word, part ++ after)) :
    splitNumber (word ++ part) = (word, part) := by
  obtain ⟨whole, fraction, hjoined, hwhole, hfraction, hrest, hpoint⟩ :=
    exists_splitNumber_eq_joined (word ++ (part ++ after))
  rw [h] at hjoined hrest hpoint
  obtain rfl : word = Number.joined whole fraction := hjoined
  exact splitNumber_joined hwhole hfraction (head?_of_append hrest) fun hnil =>
    beginsNumber_of_append (hpoint hnil)

/-- A string ends with its closing quote. -/
theorem readBody_of_append {quote : Char} {text value word part after : List Char}
    (h : readBody quote text = some ⟨value, word, part ++ after⟩) :
    readBody quote (word ++ part) = some ⟨value, word, part⟩ := by
  fun_induction readBody quote text generalizing value word with
  | case1 => cases h
  | case2 rest =>
    obtain ⟨rfl, rfl, rfl⟩ := Body.mk.inj (Option.some.inj h)
    exact readBody_quote quote part
  | case3 => cases h
  | case4 e rest hquote ih =>
    obtain ⟨⟨value, word, rest⟩, hinner, heq⟩ := Option.map_eq_some_iff.1 h
    obtain ⟨rfl, rfl, rfl⟩ := Body.mk.inj heq
    have hbody := ih hinner
    simp only [List.cons_append, List.nil_append]
    rw [readBody_backslash (Ne.symm hquote), hbody]
    rfl
  | case5 c rest hquote hbackslash ih =>
    obtain ⟨⟨value, word, rest⟩, hinner, heq⟩ := Option.map_eq_some_iff.1 h
    obtain ⟨rfl, rfl, rfl⟩ := Body.mk.inj heq
    have hbody := ih hinner
    simp only [List.cons_append, List.nil_append]
    rw [readBody_plain hquote hbackslash, hbody]
    rfl

theorem leading?_of_append {s : Symbol} {part after : List Char}
    (h : Symbol.leading? (s.chars ++ (part ++ after)) = some s) :
    Symbol.leading? (s.chars ++ part) = some s := by
  rw [Symbol.leading?, List.find?_eq_some_iff_append] at h ⊢
  obtain ⟨-, before, behind, hall, hbefore⟩ := h
  refine ⟨List.isPrefixOf_iff_prefix.2 (List.prefix_append _ _), before, behind, hall, ?_⟩
  intro s' hs'
  have hnot := hbefore s' hs'
  simp only [Bool.not_eq_true', ← Bool.not_eq_true, List.isPrefixOf_iff_prefix] at hnot ⊢
  intro hleads
  refine hnot (hleads.trans ?_)
  rw [← List.append_assoc]
  exact List.prefix_append _ _

/-- **A word is the same if the text behind it is cut off somewhere.** -/
theorem scan_of_append {word part after : List Char} {t : Token}
    (h : scan (word ++ (part ++ after)) = .found t word (part ++ after)) :
    scan (word ++ part) = .found t word part := by
  obtain ⟨c, word, rfl⟩ := List.exists_cons_of_ne_nil (ne_nil_of_scan h)
  have hnumber (hfalse : beginsNumber (c :: word ++ (part ++ after)) = false) :
      beginsNumber (c :: word ++ part) = false := by
    rw [← List.append_assoc] at hfalse
    exact beginsNumber_of_append hfalse
  obtain ⟨hbegins, rfl, hsplit⟩ | ⟨hbegins, ⟨hquote, ⟨value, _, _⟩, hbody, rfl, hword, rfl⟩ |
    ⟨hc, rfl, hword, -⟩ | ⟨-, s, hs, rfl, hword, -⟩⟩ := found_cases h
  · have hcut : splitNumber (c :: word ++ part) = (c :: word, part) :=
      splitNumber_of_append hsplit.symm
    have hfirst := congrArg Prod.fst hsplit
    have hdigits := (isDigits_splitNumber hbegins).beginsNumber
    rw [← hsplit] at hdigits
    rw [scan_of_beginsNumber (beginsNumber_append hdigits part), hcut, ← hfirst]
  · obtain ⟨-, rfl⟩ := List.cons.inj hword
    have hcut := readBody_of_append hbody
    have hfalse : beginsNumber (c :: (word ++ part)) = false := hnumber hbegins
    rw [List.cons_append, scan, if_neg (by simp [hfalse]), if_pos hquote, hcut]
  · have hcut : (c :: word ++ part).takeWhile isNamePart = c :: word ∧
        (c :: word ++ part).dropWhile isNamePart = part := takeWhile_of_append hword.symm
    have hscan := scan_of_isNameStart hc (word ++ part)
    rwa [← List.cons_append, hcut.1, hcut.2] at hscan
  · have hleading : Symbol.leading? (s.chars ++ (part ++ after)) = some s := hword ▸ hs
    rw [scan_of_leading? (hword ▸ leading?_of_append hleading) (hnumber hbegins), ← hword,
      List.drop_left]

/-- A text with a word in it, cut off somewhere behind the word. -/
theorem cut_of_scan {text word part rest : List Char} {t : Token}
    (h : scan (text.dropWhile Unicode.isWhiteSpace) = .found t word (part ++ rest)) :
    text = text.takeWhile Unicode.isWhiteSpace ++ (word ++ part) ++ rest ∧
      scan ((text.takeWhile Unicode.isWhiteSpace ++ (word ++ part)).dropWhile
        Unicode.isWhiteSpace) = .found t word part := by
  have hall := append_of_scan h
  rw [← hall] at h
  have hcut := scan_of_append h
  have hblanks : ∀ c ∈ text.takeWhile Unicode.isWhiteSpace, Unicode.isWhiteSpace c = true :=
    List.all_eq_true.1 List.all_takeWhile
  refine ⟨?_, ?_⟩
  · rw [List.append_assoc, List.append_assoc, hall, List.takeWhile_append_dropWhile]
  · rw [List.dropWhile_append_of_pos hblanks, dropWhile_of_scan hcut, hcut]

end Scan

/-- The first word of a text that is cut off somewhere behind it, and the tokens that are left. -/
theorem Cursor.spells_of_next {c c' : Cursor} {l : Lexeme} (h : c.next = (.ok l, c'))
    {text part rest : List Char} {ts : List Token} (htext : c.rest = text ++ rest)
    (hpart : c'.rest = part ++ rest) (hts : Spells text ts []) :
    (ts ++ [Token.eof]).head? = some l.token ∧ Spells part ts.tail [] := by
  obtain ⟨-, ⟨heof, hscan, rfl⟩ | ⟨word, hscan, -⟩⟩ := next_cases h
  · -- Nothing but white space is left, so nothing is cut off.
    rw [Scan.eq_nil_of_scan hscan] at hpart
    obtain ⟨rfl, rfl⟩ := List.append_eq_nil_iff.1 hpart.symm
    rw [List.append_nil] at htext
    obtain rfl := (Spells.nil_right_of_done (htext ▸ hscan)).1 hts
    exact ⟨congrArg some heof.symm, .refl []⟩
  · rw [hpart] at hscan
    obtain ⟨hall, hcut⟩ := Scan.cut_of_scan hscan
    rw [htext] at hall hcut
    rw [← List.append_cancel_right hall] at hcut
    obtain ⟨us, rfl, hus⟩ := (Spells.nil_right_of_found hcut).1 hts
    exact ⟨rfl, hus⟩

namespace Parser

variable {σ : Type}

theorem ofFeed_feed_eq_ok_iff {c : Cursor} {allowance : Option Allowance} {built : σ}
    {p : Parser σ} : ofFeed c.feed allowance built = .ok p ↔
      ∃ l, c.next.1 = .ok l ∧ p = ⟨c.next.2.feed, l, allowance, built⟩ := by
  rw [ofFeed, Cursor.next_feed]
  cases c.next.1 with
  | error e => simp
  | ok l => simp [eq_comm]

/-- A text that begins with no word spells no tokens. -/
theorem not_spells_of_error {c : Cursor} {e : LexError} (h : c.next.1 = .error e)
    (ts : List Token) : ¬Spells c.rest ts [] := by
  intro hts
  obtain ⟨p, -, hp, -⟩ := reads_of_spells hts none ()
  obtain ⟨l, hl, -⟩ := ofFeed_feed_eq_ok_iff.1 hp
  rw [h] at hl
  nomatch hl

/-- **The text of the tokens passed.**  It reaches from where the parser started to the place of the
lexeme behind them. -/
theorem exists_text_of_reads {c : Cursor} {ts : List Token} {allowance : Option Allowance}
    {built : σ} {p q : Parser σ} (hp : ofFeed c.feed allowance built = .ok p)
    (hq : p.Reads ts q) : ∃ text rest, c.rest = text ++ rest ∧
      q.current.position = c.position.after text ∧ Spells text ts [] := by
  induction ts generalizing c p with
  | nil =>
    obtain rfl := reads_nil.1 hq
    obtain ⟨l, hl, rfl⟩ := ofFeed_feed_eq_ok_iff.1 hp
    refine ⟨_, _, List.takeWhile_append_dropWhile.symm,
      (Cursor.next_cases (Prod.ext hl rfl)).1, .nil ?_⟩
    exact List.dropWhile_eq_nil_iff.2 (List.all_eq_true.1 List.all_takeWhile)
  | cons t ts ih =>
    obtain ⟨l, hl, rfl⟩ := ofFeed_feed_eq_ok_iff.1 hp
    obtain ⟨⟨rfl, hne⟩, r, hr, hq⟩ := reads_cons.1 hq
    obtain ⟨part, rest, hrest, hposition, hts⟩ := ih (next?_eq_some_iff_ofFeed.1 hr) hq
    obtain ⟨-, ⟨heof, -⟩ | ⟨word, hscan, hafter⟩⟩ := Cursor.next_cases (Prod.ext hl rfl)
    · exact absurd heof hne
    · rw [hrest] at hscan
      obtain ⟨hall, hcut⟩ := Scan.cut_of_scan hscan
      refine ⟨_, rest, hall, ?_, .cons hcut hts⟩
      rw [hposition, hafter, Cursor.skipBlanks, ← Position.after_append, ← Position.after_append]

end Parser

end Binding
