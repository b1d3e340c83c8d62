import Binding.Proofs.Token.Lexemes
import Binding.Proofs.Token.LongestMatch

/-!
# White space between words

Which white space stands between the words of a source makes no difference, as long as there is
some.  A word ends before white space, whatever came after it in the source that it was taken from;
so the words of a source can be set again with other white space around them, and are read as the
same tokens.

White space is a sufficient separator because it occurs in no word but a string, and a string ends
by itself.  Every other kind of word goes on with characters that are not white space, and a symbol
is prolonged by none either (`Word.scan_append`).

## Main results

* `Word.scan_append`: a word ends before white space.
* `Lexer.exists_words`: what an iteration without an error gives.
* `Lexer.toList_respaced`: words are read again in other white space.
-/

namespace Binding

open Scan

/-! ### A word before white space -/

/-- **A word ends before white space.** -/
theorem Word.scan_append {word rest : List Char} {t : Token} (h : Word word t)
    (hrest : Apart rest) : scan (word ++ rest) = .found t word rest := by
  have hname {name : String} (hname : IsName name.toList) :
      scan (name.toList ++ rest) = .found (nameToken name) name.toList rest := by
    simpa using scan_name hname hrest.stops.name
  cases h with
  | @name name hword =>
    rw [hname hword.1, nameToken_eq_identifier_iff.2 hword.2]
  | constant h =>
    obtain ⟨hmem, rfl⟩ := constant_iff.1 h
    exact hname (isName_of_mem_constants hmem)
  | number hdigits =>
    rw [scan_of_beginsNumber (beginsNumber_append hdigits.beginsNumber rest)]
    obtain ⟨-, whole, fraction, rfl, hwhole, hfraction⟩ := hdigits
    rw [splitNumber_joined hwhole hfraction hrest.stops.isDigit fun _ => hrest.stops.number]
  | string hquote hbody => exact scan_string hquote hbody rest
  | @symbol text s h =>
    rw [Symbol.mem_spellings_iff.1 h, Symbol.toList_spelling]
    exact scan_symbol_append s hrest

/-! ### Setting words again -/

/-- The texts of the words, with the gap that belongs to it behind each of them. -/
def respaced (words : List Lexeme) (gaps : List (List Char)) : List Char :=
  (List.zipWith (fun word gap => word.text.toList ++ gap) words gaps).flatten

/-- There is a gap behind each word.  The gaps are white space, and only that behind the last word
may be empty. -/
structure Separates (gaps : List (List Char)) (words : List Lexeme) : Prop where
  length_eq : gaps.length = words.length
  blank : ∀ gap ∈ gaps, ∀ c ∈ gap, Unicode.isWhiteSpace c = true
  ne_nil : ∀ gap ∈ gaps.dropLast, gap ≠ []

namespace Separates

variable {gap : List Char} {gaps : List (List Char)} {word : Lexeme} {words : List Lexeme}

theorem tail (h : Separates (gap :: gaps) (word :: words)) : Separates gaps words where
  length_eq := Nat.succ.inj h.length_eq
  blank other hother := h.blank other (List.mem_cons_of_mem _ hother)
  ne_nil other hother := by
    have hne : gaps ≠ [] := by
      rintro rfl
      nomatch hother
    refine h.ne_nil other ?_
    rw [List.dropLast_cons_of_ne_nil hne]
    exact List.mem_cons_of_mem _ hother

/-- What follows a word is set apart from it. -/
theorem apart (h : Separates (gap :: gaps) (word :: words)) :
    Apart (gap ++ respaced words gaps) := by
  cases gap with
  | cons c gap =>
    rintro d ⟨⟩
    exact h.blank (c :: gap) List.mem_cons_self c List.mem_cons_self
  | nil =>
    -- Only the last gap is empty, and then no word follows.
    have hgaps : gaps = [] := by
      by_contra hne
      refine h.ne_nil [] ?_ rfl
      rw [List.dropLast_cons_of_ne_nil hne]
      exact List.mem_cons_self
    obtain rfl := hgaps
    simp [respaced, Apart]

end Separates

namespace Lexer

variable {l : Lexer}

/-- What an iteration without an error gives: words, and then the end of input. -/
theorem exists_words (l : Lexer) (hl : l.finished = false) :
    ∀ items : List Lexeme, l.toList = items.map .ok → ∃ words position,
      items = words ++ [⟨.eof, "", position⟩] ∧ (∀ x ∈ words, Word x.text.toList x.token) ∧
        l.cursor.feed = ⟨words.map .ok, .finished position⟩ := by
  have herror (l : Lexer) (hl : l.finished = false) {e : LexError} (h : l.cursor.next.1 = .error e)
      (items : List Lexeme) (hitems : l.toList = items.map .ok) : False := by
    rw [toList_of_error hl h] at hitems
    cases items <;> simp at hitems
  refine wordInduction ?_ ?_ ?_ ?_ l hl
  · intro l hl hscan items hitems
    rw [toList_of_done hl hscan] at hitems
    refine ⟨[], l.cursor.skipBlanks.position, ?_, nofun, Cursor.feed_of_done hscan⟩
    cases items with
    | nil => nomatch hitems
    | cons x items => simp_all
  · intro l t word rest hl hscan ih items hitems
    rw [toList_of_found hl hscan] at hitems
    cases items with
    | nil => nomatch hitems
    | cons x items =>
      obtain ⟨hx, hitems⟩ := List.cons.inj hitems
      obtain ⟨words, position, rfl, hwords, hfeed⟩ := ih items hitems
      obtain rfl := Except.ok.inj hx
      refine ⟨_ :: words, position, rfl, List.forall_mem_cons.2 ⟨?_, hwords⟩, ?_⟩
      · rw [String.toList_ofList]
        exact word_of_scan hscan
      · rw [Cursor.feed_of_found hscan]
        exact congrArg (Feed.cons _) hfeed
  · intro l quote hl hscan items hitems
    exact (herror l hl (next_of_unterminated hscan) items hitems).elim
  · intro l ch hl hscan items hitems
    exact (herror l hl (next_of_unexpected hscan) items hitems).elim

/-- **Words are read again in other white space.** -/
theorem toList_respaced {words : List Lexeme} (hwords : ∀ x ∈ words, Word x.text.toList x.token)
    {gaps : List (List Char)} (hgaps : Separates gaps words) {first : List Char}
    (hfirst : ∀ c ∈ first, Unicode.isWhiteSpace c = true) (hl : l.finished = false)
    (hrest : l.cursor.rest = first ++ respaced words gaps) :
    ∃ items : List Lexeme, l.toList = items.map .ok ∧
      items.map Lexeme.token = words.map Lexeme.token ++ [.eof] ∧
      items.map Lexeme.text = words.map Lexeme.text ++ [""] := by
  induction words generalizing gaps first l with
  | nil =>
    have hblank : l.cursor.skipBlanks.rest = [] := by
      simpa [Cursor.skipBlanks, hrest, respaced] using hfirst
    have hdone : scan l.cursor.skipBlanks.rest = .done := by
      rw [hblank]
      rfl
    exact ⟨[⟨.eof, "", l.cursor.skipBlanks.position⟩], toList_of_done hl hdone, rfl, rfl⟩
  | cons word words ih =>
    obtain ⟨gap, gaps, rfl⟩ : ∃ gap gaps', gaps = gap :: gaps' :=
      List.exists_cons_of_length_eq_add_one hgaps.length_eq
    obtain ⟨hword, hwords⟩ := List.forall_mem_cons.1 hwords
    have hscan := hword.scan_append hgaps.apart
    have hskip : l.cursor.skipBlanks.rest = word.text.toList ++ (gap ++ respaced words gaps) := by
      rw [Cursor.skipBlanks, hrest, List.dropWhile_append_of_pos hfirst, ← dropWhile_of_scan hscan]
      simp [respaced]
    have htoList := toList_of_found hl (hskip ▸ hscan)
    obtain ⟨items, hitems, htokens, htexts⟩ :=
      ih hwords hgaps.tail (hgaps.blank gap List.mem_cons_self)
        (l := l.past word.text.toList (gap ++ respaced words gaps)) hl rfl
    refine ⟨⟨word.token, word.text, l.cursor.skipBlanks.position⟩ :: items, ?_, ?_, ?_⟩
    · rw [String.ofList_toList] at htoList
      exact htoList.trans (congrArg _ hitems)
    · rw [List.map_cons, htokens]
      rfl
    · rw [List.map_cons, htexts]
      rfl

end Lexer

end Binding
