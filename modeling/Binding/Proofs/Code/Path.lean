import Binding.Code.Context
import Binding.Proofs.Code.Reading
import Binding.Proofs.Token.Lexemes

/-!
# Contexts as sources

The name of a context stands in generated code wherever a bare name is read, so that the code can be
read again only if the name can.  What is accepted as a context and what is a name in a source are
two classes of words.

## Two notions of a name

The class of a context is that of the language which the code is written in.  A part of it goes on
with word characters: letters, decimal digits, and besides them accents, connectors and the join
controls, which have no place in a name of a source.  `Context.IsStray` says so of a character.  A
source, for its part, takes any number into a name where a context takes decimal digits only; here
that is of no importance.

Both begin alike, since the first character of a part is one of ASCII.  So a context without stray
characters is read part by part, and one with a stray character is read up to the first of them,
because nothing else begins with it either (`Context.scan_of_isStray`).

A part can still be one of the words for the constants.  Then it is no name in a source, and a
context with such a part is outside of what is said here.

## Main results

* `Lexer.toList_path`, `Lexer.toList_path_of_stray`: the items of the two kinds of paths.
* `Context.ofName_reads_iff`: which contexts are read as paths.
-/

namespace Binding

open Scan

namespace Unicode

/-- No word character is white space. -/
theorem isWord_eq_false_of_isWhiteSpace {c : Char} (h : isWhiteSpace c = true) :
    isWord c = false := by
  have hmark : isMark c = false := Ranges.covers_eq_false_of_isWhiteSpace (by decide +kernel) h
  have hdecimal : isDecimalNumber c = false :=
    Ranges.covers_eq_false_of_isWhiteSpace (by decide +kernel) h
  have hconnector : connector.covers c.toNat = false :=
    Ranges.covers_eq_false_of_isWhiteSpace (by decide +kernel) h
  have hjoin : joinControl.covers c.toNat = false :=
    Ranges.covers_eq_false_of_isWhiteSpace (by decide +kernel) h
  simp [isWord, isAlphabetic_eq_false_of_isWhiteSpace h, hmark, hdecimal, hconnector, hjoin]

/-- The letters of ASCII are Alphabetic. -/
theorem isAlphabetic_of_isAlpha {c : Char} (h : c.isAlpha = true) : isAlphabetic c = true := by
  have hcase : (decide ('A'.val ≤ c.val ∧ c.val ≤ 'Z'.val) ||
      (decide ('a'.val ≤ c.val) && decide (c.val ≤ 'z'.val))) = true := h
  simp only [Bool.or_eq_true, Bool.and_eq_true, decide_eq_true_eq, UInt32.le_iff_toNat_le] at hcase
  rcases hcase with ⟨hlo, hhi⟩ | ⟨hlo, hhi⟩
  · exact Ranges.covers_iff.2 ⟨(65, 90), by decide, hlo, hhi⟩
  · exact Ranges.covers_iff.2 ⟨(97, 122), by decide, hlo, hhi⟩

/-- The digits of ASCII are numbers. -/
theorem isNumeric_of_isDigit {c : Char} (h : c.isDigit = true) : isNumeric c = true := by
  obtain ⟨hlo, hhi⟩ := Char.isDigit_iff_toNat.1 h
  exact Ranges.covers_iff.2 ⟨(48, 57), by decide, hlo, hhi⟩

end Unicode

namespace Context

/-! ### Parts -/

theorem isNameStart_of_isPartStart {c : Char} (h : isPartStart c = true) :
    isNameStart c = true := by
  simp only [isPartStart, Bool.or_eq_true] at h
  simp only [isNameStart, Bool.or_eq_true]
  exact h.imp_left (·.imp_left Unicode.isAlphabetic_of_isAlpha)

theorem parts_ne_nil (text : List Char) : parts text ≠ [] := by
  cases text with
  | nil => nofun
  | cons c rest =>
    rw [parts]
    split
    · nofun
    · split <;> nofun

/-- The parts of a text are what the points stand between. -/
theorem intercalate_parts (text : List Char) : ['.'].intercalate (parts text) = text := by
  induction text with
  | nil => rfl
  | cons c rest ih =>
    obtain ⟨part, others, hparts⟩ := List.exists_cons_of_ne_nil (parts_ne_nil rest)
    rw [hparts] at ih
    rw [parts]
    split
    · next hc =>
      rw [hparts, List.intercalate_cons_cons, ih, hc]
      rfl
    · rw [hparts]
      cases others with
      | nil => simpa using ih
      | cons other others =>
        rw [List.intercalate_cons_cons] at ih
        simp only [List.intercalate_cons_cons, List.cons_append, ih]

theorem mem_intercalate {part : List Char} {all : List (List Char)} (hpart : part ∈ all) {c : Char}
    (hc : c ∈ part) : c ∈ ['.'].intercalate all := by
  induction all with
  | nil => nomatch hpart
  | cons other all ih =>
    cases all with
    | nil =>
      rw [List.mem_singleton.1 hpart] at hc
      simpa using hc
    | cons next all =>
      rw [List.intercalate_cons_cons, List.append_assoc]
      rcases List.mem_cons.1 hpart with rfl | hpart
      · exact List.mem_append_left _ hc
      · exact List.mem_append_right _ (List.mem_append_right _ (ih hpart))

/-- A part begins as a name does. -/
theorem exists_of_isPart {part : List Char} (h : isPart part = true) :
    ∃ c rest, part = c :: rest ∧ isNameStart c = true ∧ ∀ d ∈ rest, isPartRest d = true := by
  cases part with
  | nil => nomatch h
  | cons c rest =>
    rw [isPart, Bool.and_eq_true, List.all_eq_true] at h
    exact ⟨c, rest, rfl, isNameStart_of_isPartStart h.1, h.2⟩

/-- No point stands in a part. -/
theorem ne_dot_of_isPart {part : List Char} (h : isPart part = true) : ∀ c ∈ part, c ≠ '.' := by
  obtain ⟨d, rest, rfl, hd, hrest⟩ := exists_of_isPart h
  rintro c hc rfl
  rcases List.mem_cons.1 hc with rfl | hc
  · exact absurd hd (by decide)
  · exact absurd (hrest _ hc) (by decide)

theorem isName_takeWhile {part : List Char} (h : isPart part = true) :
    IsName (part.takeWhile isNamePart) := by
  obtain ⟨c, rest, rfl, hc, -⟩ := exists_of_isPart h
  rw [List.takeWhile_cons_of_pos (isNamePart_of_isNameStart hc)]
  exact isName_iff.2 ⟨c, _, rfl, hc, List.all_takeWhile⟩

theorem isName_of_isPart {part : List Char} (h : isPart part = true)
    (hall : ∀ c ∈ part, isNamePart c = true) : IsName part := by
  have hname := isName_takeWhile h
  rwa [List.takeWhile_eq_self_iff.2 hall] at hname

/-! ### Characters that the lexer does not know -/

/-- A character of a path that stands in no name. -/
def IsStray (c : Char) : Prop :=
  isPartRest c = true ∧ isNamePart c = false

variable {c : Char}

theorem isNamePart_of_dropWhile {part : List Char} (h : part.dropWhile isNamePart = []) :
    ∀ d ∈ part, isNamePart d = true := by
  have htake := List.takeWhile_append_dropWhile (p := isNamePart) (l := part)
  rw [h, List.append_nil] at htake
  rw [← htake]
  exact List.all_eq_true.1 List.all_takeWhile

/-- Where a longest run of characters ends does not depend on how the text is split. -/
theorem eq_of_split {p : Char → Bool} {before before' after after' : List Char} {d : Char}
    (h : before ++ c :: after = before' ++ d :: after') (hbefore : ∀ e ∈ before, p e = true)
    (hbefore' : ∀ e ∈ before', p e = true) (hc : p c = false) (hd : p d = false) :
    before = before' ∧ c = d := by
  have hends : ∀ e ∈ (c :: after).head?, p e = false := by simpa using hc
  have hends' : ∀ e ∈ (d :: after').head?, p e = false := by simpa using hd
  have hleft := takeWhile_append_of_head hbefore hends
  have hright := takeWhile_append_of_head hbefore' hends'
  rw [h] at hleft
  exact ⟨hleft.1.symm.trans hright.1, (List.cons.inj (hleft.2.symm.trans hright.2)).1⟩

/-- The first character that stands in no name is the first one in its part. -/
theorem eq_of_stray {part tail rest before after : List Char} {d : Char}
    (hpart : isPart part = true) (hdrop : part.dropWhile isNamePart = d :: tail)
    (h : part ++ rest = before ++ c :: after)
    (hbefore : ∀ e ∈ before, e = '.' ∨ isNamePart e = true) (hne : c ≠ '.')
    (hc : isNamePart c = false) : part.takeWhile isNamePart = before ∧ d = c := by
  have hd : isNamePart d = false := head?_dropWhile isNamePart part d (by rw [hdrop]; rfl)
  have hmem : d ∈ part := (List.dropWhile_sublist _).subset (hdrop ▸ List.mem_cons_self)
  have hsplit : part ++ rest = part.takeWhile isNamePart ++ d :: (tail ++ rest) := by
    rw [← List.cons_append, ← hdrop, ← List.append_assoc, List.takeWhile_append_dropWhile]
  refine eq_of_split (p := fun e => e = '.' || isNamePart e) (hsplit.symm.trans h) ?_ ?_ ?_ ?_
  · intro e he
    simp [List.all_eq_true.1 List.all_takeWhile e he]
  · simpa using hbefore
  · simp [hd, ne_dot_of_isPart hpart d hmem]
  · simp [hc, hne]

/-- A character that stands in no name, and is no point, stands behind the point that follows a
name. -/
theorem exists_behind_dot {part text before after : List Char}
    (hall : ∀ d ∈ part, isNamePart d = true) (h : part ++ '.' :: text = before ++ c :: after)
    (hne : c ≠ '.') (hc : isNamePart c = false) :
    ∃ before', before = part ++ '.' :: before' ∧ text = before' ++ c :: after := by
  rcases List.append_eq_append_iff.1 h with ⟨as, rfl, has⟩ | ⟨as, rfl, has⟩
  · cases as with
    | nil => exact absurd (List.cons.inj has).1.symm hne
    | cons d as =>
      obtain ⟨rfl, htext⟩ := List.cons.inj has
      exact ⟨as, rfl, htext⟩
  · cases as with
    | nil => exact absurd (List.cons.inj has).1 hne
    | cons d as =>
      obtain ⟨rfl, -⟩ := List.cons.inj has
      rw [hall c (by simp)] at hc
      nomatch hc

theorem isStray_of_mem {part : List Char} (h : isPart part = true) (hmem : c ∈ part)
    (hc : isNamePart c = false) : IsStray c := by
  obtain ⟨d, rest, rfl, hd, hrest⟩ := exists_of_isPart h
  rcases List.mem_cons.1 hmem with rfl | hmem
  · rw [isNamePart_of_isNameStart hd] at hc
    nomatch hc
  · exact ⟨hrest c hmem, hc⟩

theorem IsStray.isWord (h : IsStray c) : Unicode.isWord c = true := by
  obtain ⟨hrest, hname⟩ := h
  rw [isPartRest, Bool.or_eq_true, decide_eq_true_eq] at hrest
  refine hrest.resolve_right ?_
  rintro rfl
  exact absurd hname (by decide)

theorem isWhiteSpace_of_isStray (h : IsStray c) : Unicode.isWhiteSpace c = false := by
  refine Bool.eq_false_iff.2 fun hspace => ?_
  have hword := h.isWord
  rw [Unicode.isWord_eq_false_of_isWhiteSpace hspace] at hword
  nomatch hword

/-- No word begins with such a character. -/
theorem scan_of_isStray (h : IsStray c) (rest : List Char) : scan (c :: rest) = .unexpected c := by
  have hne (d : Char) (hd : Unicode.isWord d = false) : c ≠ d := by
    rintro rfl
    rw [h.isWord] at hd
    nomatch hd
  have hstart : isNameStart c = false := by
    refine Bool.eq_false_iff.2 fun hstart => ?_
    have hpart := isNamePart_of_isNameStart hstart
    rw [h.2] at hpart
    nomatch hpart
  have hdigit : c.isDigit = false := by
    refine Bool.eq_false_iff.2 fun hdigit => ?_
    have hpart : isNamePart c = true := by
      simp [isNamePart, Unicode.isAlphanumeric, Unicode.isNumeric_of_isDigit hdigit]
    rw [h.2] at hpart
    nomatch hpart
  have hleading : Symbol.leading? (c :: rest) = none := by
    cases hs : Symbol.leading? (c :: rest) with
    | none => rfl
    | some s =>
      have hhead := head_of_leading? hs
      cases s <;> exact absurd (Option.some.inj hhead).symm (hne _ (by decide))
  have hquote : ¬(c = '"' ∨ c = '\'') :=
    not_or.2 ⟨hne '"' (by decide), hne '\'' (by decide)⟩
  rw [scan, if_neg (by simp [beginsNumber_cons (hne '.' (by decide)), hdigit]),
    if_neg hquote, if_neg (by simp [hstart]), hleading]

end Context

open Context

/-! ### Reading a path -/

theorem Cursor.skipBlanks_of_cons {c : Cursor} {d : Char} {rest : List Char}
    (h : c.rest = d :: rest) (hd : Unicode.isWhiteSpace d = false) : c.skipBlanks = c := by
  obtain ⟨text, position⟩ := c
  obtain rfl : text = d :: rest := h
  simp [skipBlanks, hd]

namespace Lexer

variable {l : Lexer} {part rest : List Char}

/-- A part of a path, up to where nothing prolongs it. -/
theorem toList_name (hl : l.finished = false) (hpart : IsName part)
    (hrest : ∀ c ∈ rest.head?, isNamePart c = false) (h : l.cursor.rest = part ++ rest) :
    l.toList = .ok ⟨nameToken (String.ofList part), String.ofList part, l.cursor.position⟩ ::
      toList { l with cursor := ⟨rest, l.cursor.position.after part⟩ } := by
  have hskip : l.cursor.skipBlanks = l.cursor := by
    obtain ⟨c, tail, rfl, hc, -⟩ := isName_iff.1 hpart
    exact Cursor.skipBlanks_of_cons h (isWhiteSpace_of_scan (scan_of_isNameStart hc tail))
  have hscan := scan_name hpart hrest
  rw [← h, ← hskip] at hscan
  rw [toList_of_found hl hscan, hskip]

theorem toList_identifier (hl : l.finished = false) (hpart : IsWord (String.ofList part))
    (hrest : ∀ c ∈ rest.head?, isNamePart c = false) (h : l.cursor.rest = part ++ rest) :
    l.toList = .ok ⟨.identifier (String.ofList part), String.ofList part, l.cursor.position⟩ ::
      toList { l with cursor := ⟨rest, l.cursor.position.after part⟩ } := by
  have hname : IsName part := by simpa using hpart.1
  rw [toList_name hl hname hrest h, nameToken_eq_identifier_iff.2 hpart.2]

/-- A point before the next part. -/
theorem toList_dot (hl : l.finished = false) (hrest : beginsNumber ('.' :: rest) = false)
    (h : l.cursor.rest = '.' :: rest) :
    l.toList = .ok ⟨.symbol .dot, ".", l.cursor.position⟩ ::
      toList { l with cursor := ⟨rest, l.cursor.position.after ['.']⟩ } := by
  have hskip := Cursor.skipBlanks_of_cons h (by decide)
  have hscan := scan_dot hrest
  rw [← h, ← hskip] at hscan
  rw [toList_of_found hl hscan, hskip]

theorem toList_stray {c : Char} (hl : l.finished = false) (hc : IsStray c)
    (h : l.cursor.rest = c :: rest) :
    l.toList = [.error (.unexpectedChar c l.cursor.position)] := by
  have hskip := Cursor.skipBlanks_of_cons h (isWhiteSpace_of_isStray hc)
  have hscan := scan_of_isStray hc rest
  rw [← h, ← hskip] at hscan
  rw [toList_of_error hl (next_of_unexpected hscan), hskip]

/-- A point does not prolong a name. -/
theorem head?_dot (text : List Char) : ∀ c ∈ ('.' :: text).head?, isNamePart c = false := by
  rintro c ⟨⟩
  decide

/-- A point in a path does not begin a number. -/
theorem beginsNumber_dot {other : List Char} (others : List (List Char)) {c : Char}
    {tail : List Char} (h : other = c :: tail) (hc : isNameStart c = true) :
    beginsNumber ('.' :: ['.'].intercalate (other :: others)) = false := by
  subst h
  have hdigit := isDigit_eq_false_of_isNameStart hc
  cases others with
  | nil => simpa [beginsNumber] using hdigit
  | cons next others => simpa [beginsNumber] using hdigit

/-- Names with points between them are read as a name with members of it. -/
theorem toList_path (hl : l.finished = false) {others : List (List Char)}
    (hpath : ∀ p ∈ part :: others, IsWord (String.ofList p))
    (h : l.cursor.rest = ['.'].intercalate (part :: others)) :
    ∃ ls : List Lexeme, l.toList = ls.map .ok ∧
      ls.map Lexeme.token =
        pathTokens (String.ofList part) (others.map String.ofList) ++ [.eof] ∧
      ls.flatMap (·.text.toList) = l.cursor.rest := by
  induction others generalizing l part with
  | nil =>
    have hrest : l.cursor.rest = part ++ [] := by simpa using h
    rw [toList_identifier hl (hpath part List.mem_cons_self) (by simp) hrest,
      toList_of_done (l := { l with cursor := ⟨[], l.cursor.position.after part⟩ }) hl rfl]
    refine ⟨[⟨.identifier (String.ofList part), String.ofList part, l.cursor.position⟩,
      ⟨.eof, "", _⟩], rfl, rfl, ?_⟩
    simpa using hrest.symm
  | cons other others ih =>
    have hothers : ∀ p ∈ other :: others, IsWord (String.ofList p) :=
      fun p hp => hpath p (List.mem_cons_of_mem _ hp)
    have hrest : l.cursor.rest = part ++ '.' :: ['.'].intercalate (other :: others) := by
      simpa using h
    have hname : IsName other := by simpa using (hothers other List.mem_cons_self).1
    obtain ⟨c, tail, hother, hc, -⟩ := isName_iff.1 hname
    rw [toList_identifier hl (hpath part List.mem_cons_self) (head?_dot _) hrest,
      toList_dot (by exact hl) (beginsNumber_dot others hother hc) rfl]
    obtain ⟨ls, hls, htokens, htext⟩ := ih (l := { l with cursor :=
      ⟨['.'].intercalate (other :: others), (l.cursor.position.after part).after ['.']⟩ })
      hl hothers rfl
    rw [hls]
    refine ⟨⟨.identifier (String.ofList part), String.ofList part, _⟩ ::
      ⟨.symbol .dot, ".", _⟩ :: ls, rfl, ?_, ?_⟩
    · simp [htokens, pathTokens]
    · simp [htext, hrest]

/-- A part of a path that is no name is read up to its first stray character. -/
theorem toList_stray_part (hl : l.finished = false) (hpart : isPart part = true)
    (h : l.cursor.rest = part ++ rest) {c : Char} {tail : List Char}
    (hdrop : part.dropWhile isNamePart = c :: tail) :
    l.toList.getLast? = some (.error (.unexpectedChar c
      (l.cursor.position.after (part.takeWhile isNamePart)))) := by
  have hhead : isNamePart c = false := head?_dropWhile isNamePart part c (by rw [hdrop]; rfl)
  have hmem : c ∈ part := (List.dropWhile_sublist _).subset (hdrop ▸ List.mem_cons_self)
  have hsplit : l.cursor.rest = part.takeWhile isNamePart ++ c :: (tail ++ rest) := by
    rw [h, ← List.cons_append, ← hdrop, ← List.append_assoc, List.takeWhile_append_dropWhile]
  have hprolonged : ∀ d ∈ (c :: (tail ++ rest)).head?, isNamePart d = false := by
    rintro d ⟨⟩
    exact hhead
  rw [toList_name hl (isName_takeWhile hpart) hprolonged hsplit,
    toList_stray (by exact hl) (isStray_of_mem hpart hmem hhead) rfl]
  rfl

/-- A path is read up to its first character that stands in no name. -/
theorem toList_path_of_stray (hl : l.finished = false) {others : List (List Char)}
    (hpath : ∀ p ∈ part :: others, isPart p = true)
    (h : l.cursor.rest = ['.'].intercalate (part :: others)) {before after : List Char} {c : Char}
    (hrest : l.cursor.rest = before ++ c :: after)
    (hbefore : ∀ d ∈ before, d = '.' ∨ isNamePart d = true) (hne : c ≠ '.')
    (hc : isNamePart c = false) :
    l.toList.getLast? = some (.error (.unexpectedChar c (l.cursor.position.after before))) := by
  induction others generalizing l part before with
  | nil =>
    have htext : l.cursor.rest = part ++ [] := by simpa using h
    cases hdrop : part.dropWhile isNamePart with
    | nil =>
      have hmem : c ∈ part ++ [] := htext ▸ hrest ▸ List.mem_append_right _ List.mem_cons_self
      rw [List.append_nil] at hmem
      rw [isNamePart_of_dropWhile hdrop c hmem] at hc
      nomatch hc
    | cons d tail =>
      obtain ⟨rfl, rfl⟩ := eq_of_stray (hpath part List.mem_cons_self) hdrop
        (htext.symm.trans hrest) hbefore hne hc
      exact toList_stray_part hl (hpath part List.mem_cons_self) htext hdrop
  | cons other others ih =>
    have htext : l.cursor.rest = part ++ '.' :: ['.'].intercalate (other :: others) := by
      simpa using h
    cases hdrop : part.dropWhile isNamePart with
    | nil =>
      have hall := isNamePart_of_dropWhile hdrop
      obtain ⟨before', rfl, hbehind⟩ := exists_behind_dot hall (htext.symm.trans hrest) hne hc
      have hothers : ∀ p ∈ other :: others, isPart p = true :=
        fun p hp => hpath p (List.mem_cons_of_mem _ hp)
      obtain ⟨e, tail, hother, he, -⟩ := exists_of_isPart (hothers other List.mem_cons_self)
      have hname := isName_of_isPart (hpath part List.mem_cons_self) hall
      have hlast := ih (l := { l with cursor :=
        ⟨['.'].intercalate (other :: others), (l.cursor.position.after part).after ['.']⟩ })
        hl hothers rfl hbehind (fun d hd => hbefore d (by simp [hd]))
      rw [toList_name hl hname (head?_dot _) htext,
        toList_dot (by exact hl) (beginsNumber_dot others hother he) rfl, List.getLast?_cons,
        List.getLast?_cons, hlast, Position.after_append]
      rfl
    | cons d tail =>
      obtain ⟨rfl, rfl⟩ := eq_of_stray (hpath part List.mem_cons_self) hdrop
        (htext.symm.trans hrest) hbefore hne hc
      exact toList_stray_part hl (hpath part List.mem_cons_self) htext hdrop

end Lexer

/-- The text is read as the name with the members, and nothing of it is left over. -/
def ReadsAsPath (text head : String) (members : List String) : Prop :=
  ∃ ls : List Lexeme, (Lexer.ofSource text).toList = ls.map .ok ∧
    ls.map Lexeme.token = pathTokens head members ++ [.eof] ∧
    ls.flatMap (·.text.toList) = text.toList

theorem ReadsAsPath.tokens_eq {text head : String} {members : List String}
    (h : ReadsAsPath text head members) : tokens text = .ok (pathTokens head members) := by
  obtain ⟨ls, hls, htokens, -⟩ := h
  have hok : (ls.map Except.ok).mapM id = (Except.ok ls : Except LexError (List Lexeme)) := by
    clear hls htokens
    induction ls with
    | nil => rfl
    | cons x ls ih => rw [List.map_cons, List.mapM_cons, ih]; rfl
  have hdrop : ls.dropLast.map Lexeme.token = pathTokens head members := by
    rw [List.map_dropLast, htokens, List.dropLast_concat]
  rw [tokens, Lexer.tokens, hls, hok, ← hdrop]
  rfl

namespace Context

/-- **When a context is read as a path.**  A context is read as a name with members of it, if no
part of it is the word for a constant, exactly if every character of it but the points can stand in
a name; then `this` stands for that path in generated code.  Otherwise the lexer stops at the first
character that cannot. -/
theorem ofName_reads_iff {name : String} {c : Context} (h : ofName name = .ok c)
    (hkeyword : ∀ part ∈ parts name.toList, String.ofList part ∉ ["true", "false", "null"]) :
    ((∀ x ∈ name.toList, x = '.' ∨ isNamePart x = true) ↔
      ∃ head members, ReadsAsPath name head members) ∧
    (∀ head members, ReadsAsPath name head members →
      Expr.parseWithin none ((Expr.identifier "this").render c.name) =
        .ok (members.foldl .getter (.identifier head))) ∧
    ∀ before x after, name.toList = before ++ x :: after →
      (∀ y ∈ before, y = '.' ∨ isNamePart y = true) → x ≠ '.' → isNamePart x = false →
      (Lexer.ofSource name).toList.getLast? =
        some (.error (.unexpectedChar x (Position.start.after before))) := by
  obtain ⟨hpath, rfl⟩ : isPath name.toList = true ∧ c.name = name := by
    unfold ofName at h
    split at h
    · next hpath => exact ⟨hpath, (congrArg Context.name (Except.ok.inj h)).symm⟩
    · nomatch h
  obtain ⟨part, others, hparts⟩ := List.exists_cons_of_ne_nil (parts_ne_nil c.name.toList)
  have htext := intercalate_parts c.name.toList
  have hall : ∀ p ∈ part :: others, isPart p = true := List.all_eq_true.1 (hparts ▸ hpath)
  rw [hparts] at htext hkeyword
  have hstray : ∀ before x after, c.name.toList = before ++ x :: after →
      (∀ y ∈ before, y = '.' ∨ isNamePart y = true) → x ≠ '.' → isNamePart x = false →
      (Lexer.ofSource c.name).toList.getLast? =
        some (.error (.unexpectedChar x (Position.start.after before))) :=
    fun before x after hsplit hbefore hne hx =>
      Lexer.toList_path_of_stray (l := .ofSource c.name) rfl hall htext.symm hsplit hbefore hne hx
  refine ⟨⟨fun hclean => ?_, ?_⟩, fun head members hreads => ?_, hstray⟩
  · have hwords : ∀ p ∈ part :: others, IsWord (String.ofList p) := by
      intro p hp
      refine ⟨?_, hkeyword p hp⟩
      have hname : ∀ x ∈ p, isNamePart x = true := fun x hx =>
        (hclean x (htext ▸ mem_intercalate hp hx)).resolve_left (ne_dot_of_isPart (hall p hp) x hx)
      rw [String.toList_ofList]
      exact isName_of_isPart (hall p hp) hname
    exact ⟨_, _, Lexer.toList_path (l := .ofSource c.name) rfl hwords htext.symm⟩
  · rintro ⟨head, members, ls, hls, -⟩ x hx
    by_contra hunclean
    -- The first such character is where the lexer stops, but there is no error among the items.
    have hsome : (c.name.toList.find? fun y => !(y = '.' || isNamePart y)).isSome := by
      rw [List.find?_isSome]
      exact ⟨x, hx, by simpa using hunclean⟩
    obtain ⟨y, hy⟩ := Option.isSome_iff_exists.1 hsome
    obtain ⟨hstop, before, after, hsplit, hbefore⟩ := List.find?_eq_some_iff_append.1 hy
    simp only [Bool.not_eq_true', Bool.or_eq_false_iff, decide_eq_false_iff_not] at hstop
    have hlast := hstray before y after hsplit (by simpa using hbefore) hstop.1 hstop.2
    rw [hls] at hlast
    simpa using List.mem_of_getLast? hlast
  · rw [Expr.render, if_pos rfl]
    exact Expr.parseWithin_of_writes
      ((Phrase.writes_path hreads.tokens_eq).imp fun _ h => .plain (.unary (.access h)))

/-- A letter beyond ASCII is no obstacle. -/
theorem ofName_reads_letters : ∃ c, ofName "this.größe" = .ok c ∧
    (∀ part ∈ parts "this.größe".toList, String.ofList part ∉ ["true", "false", "null"]) ∧
    ∃ head members, ReadsAsPath "this.größe" head members ∧
      Expr.parseWithin none ((Expr.identifier "this").render c.name) =
        .ok (members.foldl .getter (.identifier head)) := by
  have h : ofName "this.größe" = .ok ⟨"this.größe", by decide +kernel⟩ := dif_pos _
  have hkeyword : ∀ part ∈ parts "this.größe".toList,
      String.ofList part ∉ ["true", "false", "null"] := by
    decide +kernel
  have hclean : "this.größe".toList.all (fun x => x = '.' || isNamePart x) = true := by
    decide +kernel
  obtain ⟨hreads, hparse, -⟩ := ofName_reads_iff h hkeyword
  obtain ⟨head, members, hpath⟩ :=
    hreads.1 fun x hx => by simpa using List.all_eq_true.1 hclean x hx
  exact ⟨_, h, hkeyword, head, members, hpath, hparse head members hpath⟩

/-- An accent of its own is accepted in a context, and no source can hold it outside of a string.
The word for a constant is accepted too. -/
theorem ofName_accent_constant_unread :
    ((∃ c, ofName "a\u0301" = .ok c) ∧
      tokens "a\u0301" = .error (.unexpectedChar '\u0301' ⟨1, 1, 2⟩) ∧
      ¬∃ head members, ReadsAsPath "a\u0301" head members) ∧
    (∃ c, ofName "true" = .ok c) ∧ tokens "true" = .ok [.boolean true] ∧
      ¬∃ head members, ReadsAsPath "true" head members := by
  have haccent : tokens "a\u0301" = .error (.unexpectedChar '\u0301' ⟨1, 1, 2⟩) := by
    decide +kernel
  have hconstant : tokens "true" = .ok [.boolean true] := by decide +kernel
  refine ⟨⟨⟨⟨"a\u0301", by decide +kernel⟩, dif_pos _⟩, haccent, ?_⟩,
    ⟨⟨"true", by decide +kernel⟩, dif_pos _⟩, hconstant, ?_⟩
  · rintro ⟨head, members, hreads⟩
    rw [hreads.tokens_eq] at haccent
    nomatch haccent
  · rintro ⟨head, members, hreads⟩
    rw [hreads.tokens_eq] at hconstant
    nomatch hconstant

end Context

end Binding
