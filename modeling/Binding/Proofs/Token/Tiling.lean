import Binding.Proofs.Token.Lexemes
import Binding.Proofs.Token.Places

/-!
# Nothing of a source is lost

The lexemes of a source, each with the white space before it, lie side by side and cover the source
up to its end, or up to the first word that cannot be read.  So a source can be put together again
from what the iteration gives, but for the width of the gaps.

A *tile* is a lexeme with the gap before it.  The gap may be empty and the text may not, which is
why the iteration is no longer than the source, the last item apart.

## Main results

* `Lexer.length_toList_le`: how many items there can be.
* `Lexer.slice_of_mem_toList`: the text of a lexeme is what the source has at its place.
* `Lexer.toList_lossless`: the items of a source, and what they make up.
-/

namespace Binding

/-- A lexeme and the gap before it. -/
structure Tile where
  gap : List Char
  lexeme : Lexeme

namespace Tile

/-- The characters that the tile covers. -/
def chars (tile : Tile) : List Char :=
  tile.gap ++ tile.lexeme.text.toList

/-- The gap is white space, and the lexeme is a word with a text. -/
structure Fits (tile : Tile) : Prop where
  token_ne : tile.lexeme.token ≠ .eof
  text_ne : tile.lexeme.text ≠ ""
  blank : ∀ c ∈ tile.gap, Unicode.isWhiteSpace c = true

end Tile

namespace Lexer

variable {l : Lexer}

/-! ### How many items there are -/

/-- Every item but the last takes a character away. -/
theorem length_toList_le_bound (l : Lexer) : l.toList.length ≤ l.bound := by
  fun_induction toList l with
  | case1 l item l' hnext ih =>
    have hlt := bound_next?_lt hnext
    rw [List.length_cons]
    omega
  | case2 l l' hnext => exact Nat.zero_le _

theorem length_toList_le (hl : l.finished = false) :
    l.toList.length ≤ l.cursor.rest.length + 1 := by
  have hle := l.length_toList_le_bound
  rwa [bound, if_neg (by simp [hl])] at hle

/-! ### Texts and places -/

/-- **The text of a lexeme is what the source has at its place.** -/
theorem slice_of_mem_toList {source : List Char} (hl : l.finished = false)
    (hstands : l.cursor.Stands source) {x : Lexeme} (hx : .ok x ∈ l.toList) :
    x.text.toList = (source.drop x.position.offset).take x.text.length := by
  revert hstands x
  refine wordInduction ?_ ?_ ?_ ?_ l hl
  · intro l hl hscan _ x hx
    rw [toList_of_done hl hscan, List.mem_singleton] at hx
    obtain rfl := Except.ok.inj hx
    rfl
  · intro l t word rest hl hscan ih hstands x hx
    have htext := Scan.append_of_scan hscan
    rw [toList_of_found hl hscan] at hx
    rcases List.mem_cons.1 hx with hfirst | hx
    · obtain rfl := Except.ok.inj hfirst
      obtain ⟨before, rfl, hposition⟩ := hstands.skipBlanks
      rw [hposition, Position.offset_start_after, List.drop_left, ← htext, String.length_ofList,
        String.toList_ofList, List.take_left]
    · exact ih (hstands.skipBlanks.move htext.symm) hx
  · intro l quote hl hscan _ x hx
    rw [toList_of_error hl (next_of_unterminated hscan), List.mem_singleton] at hx
    nomatch hx
  · intro l ch hl hscan _ x hx
    rw [toList_of_error hl (next_of_unexpected hscan), List.mem_singleton] at hx
    nomatch hx

/-! ### Tiles -/

/-- The tiles, and the gap behind them, cover what is left up to the place of the last item; this is
all of it if there is no error. -/
structure Covers (l : Lexer) (tiles : List Tile) (gap : List Char)
    (last : Except LexError Lexeme) (rest : List Char) : Prop where
  toList_eq : l.toList = tiles.map (fun tile => .ok tile.lexeme) ++ [last]
  fits : ∀ tile ∈ tiles, tile.Fits
  blank : ∀ c ∈ gap, Unicode.isWhiteSpace c = true
  rest_eq : l.cursor.rest = tiles.flatMap Tile.chars ++ gap ++ rest
  place_eq : Cursor.placeOf last = l.cursor.position.after (tiles.flatMap Tile.chars ++ gap)
  eof_of_ok : ∀ x, last = .ok x → x.token = .eof ∧ rest = []
  ne_nil_of_error : ∀ e, last = .error e → rest ≠ []

/-- Where no word can be read there is only a gap. -/
theorem covers_last (h : l.toList = [l.cursor.next.1])
    (hok : ∀ x, l.cursor.next.1 = .ok x → x.token = .eof ∧ l.cursor.skipBlanks.rest = [])
    (herror : ∀ e, l.cursor.next.1 = .error e → l.cursor.skipBlanks.rest ≠ []) :
    l.Covers [] (l.cursor.rest.takeWhile Unicode.isWhiteSpace) l.cursor.next.1
      l.cursor.skipBlanks.rest where
  toList_eq := h
  fits := nofun
  blank := List.all_eq_true.1 List.all_takeWhile
  rest_eq := List.takeWhile_append_dropWhile.symm
  place_eq := l.cursor.placeOf_next
  eof_of_ok := hok
  ne_nil_of_error := herror

theorem covers_error (hl : l.finished = false) {e : LexError} (h : l.cursor.next.1 = .error e)
    (hne : l.cursor.skipBlanks.rest ≠ []) :
    l.Covers [] (l.cursor.rest.takeWhile Unicode.isWhiteSpace) l.cursor.next.1
      l.cursor.skipBlanks.rest := by
  refine covers_last (by rw [toList_of_error hl h, h]) ?_ fun _ _ => hne
  intro x hx
  rw [h] at hx
  nomatch hx

/-- A word, and what covers the source behind it. -/
theorem Covers.cons {t : Token} {word after : List Char} (hl : l.finished = false)
    (hscan : scan l.cursor.skipBlanks.rest = .found t word after) {tiles : List Tile}
    {gap rest : List Char} {last : Except LexError Lexeme}
    (h : (l.past word after).Covers tiles gap last rest) :
    l.Covers (⟨l.cursor.rest.takeWhile Unicode.isWhiteSpace,
      ⟨t, String.ofList word, l.cursor.skipBlanks.position⟩⟩ :: tiles) gap last rest where
  toList_eq := by
    rw [toList_of_found hl hscan, List.map_cons, List.cons_append, ← h.toList_eq]
    rfl
  fits := by
    refine List.forall_mem_cons.2 ⟨⟨Scan.token_ne_eof_of_scan hscan, ?_, ?_⟩, h.fits⟩
    · intro hempty
      exact Scan.ne_nil_of_scan hscan (String.ofList_eq_empty_iff.1 hempty)
    · exact List.all_eq_true.1 List.all_takeWhile
  blank := h.blank
  rest_eq := by
    have hrest : after = tiles.flatMap Tile.chars ++ gap ++ rest := h.rest_eq
    calc l.cursor.rest
        = l.cursor.rest.takeWhile Unicode.isWhiteSpace ++ (word ++ after) := by
          rw [Scan.append_of_scan hscan]
          exact List.takeWhile_append_dropWhile.symm
      _ = _ := by simp [Tile.chars, hrest]
  place_eq := by
    have hplace : Cursor.placeOf last = (l.cursor.skipBlanks.position.after word).after
        (tiles.flatMap Tile.chars ++ gap) := h.place_eq
    rw [hplace, Cursor.skipBlanks, ← Position.after_append, ← Position.after_append]
    simp [Tile.chars]
  eof_of_ok := h.eof_of_ok
  ne_nil_of_error := h.ne_nil_of_error

theorem exists_covers (hl : l.finished = false) :
    ∃ tiles gap last rest, l.Covers tiles gap last rest := by
  have hne (l : Lexer) (h : scan l.cursor.skipBlanks.rest ≠ .done) :
      l.cursor.skipBlanks.rest ≠ [] := by
    intro hnil
    rw [hnil] at h
    exact h rfl
  refine wordInduction ?_ ?_ ?_ ?_ l hl
  · intro l hl hscan
    have hnext : l.cursor.next.1 = .ok ⟨.eof, "", l.cursor.skipBlanks.position⟩ := by
      simp [Cursor.next, Cursor.readWord, hscan]
    refine ⟨_, _, _, _, covers_last (by rw [toList_of_done hl hscan, hnext]) ?_ ?_⟩
    · intro x hx
      obtain rfl := Except.ok.inj (hnext.symm.trans hx)
      exact ⟨rfl, Scan.eq_nil_of_scan hscan⟩
    · intro e he
      cases hnext.symm.trans he
  · rintro l t word after hl hscan ⟨tiles, gap, last, rest, h⟩
    exact ⟨_, gap, last, rest, h.cons hl hscan⟩
  · intro l quote hl hscan
    exact ⟨_, _, _, _, covers_error hl (next_of_unterminated hscan) (hne l (by simp [hscan]))⟩
  · intro l ch hl hscan
    exact ⟨_, _, _, _, covers_error hl (next_of_unexpected hscan) (hne l (by simp [hscan]))⟩

/-- **Lexing loses nothing and ends.**  The iteration gives no more items than the source has
characters, and one.  The last of them, and no other, is the end of input or an error; every other
one is a lexeme with a text.  The text of a lexeme is what the source has at its place.  Between the
texts there is only white space, up to the end of the source, where the end of input stands, or up
to the place of the error. -/
theorem toList_lossless (source : String) :
    ∃ (tiles : List Tile) (gap : List Char) (last : Except LexError Lexeme),
      (ofSource source).toList = tiles.map (fun tile => .ok tile.lexeme) ++ [last] ∧
      (ofSource source).toList.length ≤ source.length + 1 ∧
      (∀ tile ∈ tiles, tile.lexeme.token ≠ .eof ∧ tile.lexeme.text ≠ "" ∧
        ∀ c ∈ tile.gap, Unicode.isWhiteSpace c = true) ∧
      (∀ c ∈ gap, Unicode.isWhiteSpace c = true) ∧
      (∀ x, .ok x ∈ (ofSource source).toList →
        x.text.toList = (source.toList.drop x.position.offset).take x.text.length) ∧
      match last with
      | .ok x => x.token = .eof ∧ x.position.offset = source.length ∧
        source.toList = tiles.flatMap Tile.chars ++ gap
      | .error e => e.position.offset < source.length ∧
        source.toList.take e.position.offset = tiles.flatMap Tile.chars ++ gap := by
  obtain ⟨tiles, gap, last, rest, h⟩ := @exists_covers (ofSource source) rfl
  have hlength : source.toList.length = source.length := String.length_toList
  have hrest : source.toList = tiles.flatMap Tile.chars ++ gap ++ rest := h.rest_eq
  have hplace : (Cursor.placeOf last).offset = (tiles.flatMap Tile.chars ++ gap).length := by
    rw [h.place_eq]
    exact Position.offset_start_after _
  refine ⟨tiles, gap, last, h.toList_eq, hlength ▸ length_toList_le rfl, fun tile htile => ?_,
    h.blank, fun x => slice_of_mem_toList rfl (Cursor.stands_start source.toList), ?_⟩
  · have hfits := h.fits tile htile
    exact ⟨hfits.token_ne, hfits.text_ne, hfits.blank⟩
  · rw [← hlength]
    cases last with
    | ok x =>
      obtain ⟨hx, rfl⟩ := h.eof_of_ok x rfl
      rw [List.append_nil] at hrest
      exact ⟨hx, by rw [hrest]; exact hplace, hrest⟩
    | error e =>
      have hpos := List.length_pos_iff.2 (h.ne_nil_of_error e rfl)
      have hoffset : e.position.offset = _ := hplace
      refine ⟨?_, by rw [hoffset, hrest, List.take_left]⟩
      rw [hoffset, hrest]
      simp only [List.length_append] at hpos ⊢
      omega

end Lexer

end Binding
