import Binding.Proofs.Number.Canonical
import Binding.Proofs.Token.Tokens
import Binding.Text.Quoted

/-!
# How tokens are spelled

For every kind of token, a text that the scanner takes for it, and takes no further: a name, the
canonical text of a number, a text in double quotes, the characters of a symbol.

## Where a word ends

A name goes on as far as it can, and so does a number.  `Scan.Stops` says of a text that it prolongs
neither, so that a word right before it ends there.  A symbol ends by itself, unless the next
character makes it one of the symbols of two characters, or makes a point the beginning of a number.
White space after a word, or the end of the text, makes every word end (`Scan.Apart`).

## Main results

* `Scan.found_cases`: what the scanner can find.
* `Scan.scan_name`, `Scan.scan_number`, `Scan.scan_quoted`: the texts of the tokens that carry a
  value.
* `Scan.scan_symbol`, `Scan.scan_symbol_append`: symbols.
* `Scan.isName_of_scan`, `Scan.number_of_scan`: what the scanner takes for a name or a number.
-/

namespace Binding

namespace Unicode

theorem Ranges.covers_eq_false_of_isWhiteSpace {table : Ranges}
    (h : ∀ run ∈ whiteSpace.runs, ∀ n ∈ List.range' run.1 (run.2 + 1 - run.1),
      table.covers n = false)
    {c : Char} (hc : isWhiteSpace c = true) : table.covers c.toNat = false := by
  obtain ⟨run, hrun, hlo, hhi⟩ := covers_iff.1 hc
  exact h run hrun c.toNat (List.mem_range'_1.2 (by omega))

-- There are only twenty-five characters to look up.

/-- No letter is white space. -/
theorem isAlphabetic_eq_false_of_isWhiteSpace {c : Char} (h : isWhiteSpace c = true) :
    isAlphabetic c = false :=
  Ranges.covers_eq_false_of_isWhiteSpace (by decide +kernel) h

/-- No number is white space. -/
theorem isNumeric_eq_false_of_isWhiteSpace {c : Char} (h : isWhiteSpace c = true) :
    isNumeric c = false :=
  Ranges.covers_eq_false_of_isWhiteSpace (by decide) h

theorem Ranges.covers_eq_false_of_isDigit {table : Ranges}
    (h : ∀ run ∈ table.runs, run.2 < 48 ∨ 57 < run.1) {c : Char} (hc : c.isDigit = true) :
    table.covers c.toNat = false := by
  have hdigit : 48 ≤ c.toNat ∧ c.toNat ≤ 57 := Char.isDigit_iff_toNat.1 hc
  refine Bool.eq_false_iff.2 fun hcovers => ?_
  obtain ⟨run, hrun, hlo, hhi⟩ := covers_iff.1 hcovers
  have := h run hrun
  omega

theorem isAlphabetic_eq_false_of_isDigit {c : Char} (h : c.isDigit = true) :
    isAlphabetic c = false :=
  Ranges.covers_eq_false_of_isDigit (by decide +kernel) h

theorem isWhiteSpace_eq_false_of_isDigit {c : Char} (h : c.isDigit = true) :
    isWhiteSpace c = false :=
  Ranges.covers_eq_false_of_isDigit (by decide) h

end Unicode

namespace Scan

/-! ### What can be found -/

/-- **What the scanner can find** is a number, a string, a name or a symbol, tried in this order. -/
theorem found_cases {c : Char} {text word rest : List Char} {t : Token}
    (h : scan (c :: text) = .found t word rest) :
    (beginsNumber (c :: text) = true ∧ t = .number (.ofChars (splitNumber (c :: text)).1) ∧
        (word, rest) = splitNumber (c :: text)) ∨
    beginsNumber (c :: text) = false ∧
      (((c = '"' ∨ c = '\'') ∧ ∃ body, readBody c text = some body ∧
          t = .string (String.ofList body.value) ∧ word = c :: body.word ∧ rest = body.rest) ∨
        (isNameStart c = true ∧ t = nameToken (String.ofList word) ∧
          word = (c :: text).takeWhile isNamePart ∧ rest = (c :: text).dropWhile isNamePart) ∨
        isNameStart c = false ∧ ∃ s, Symbol.leading? (c :: text) = some s ∧
          t = .symbol s ∧ word = s.chars ∧ rest = (c :: text).drop s.chars.length) := by
  rw [scan] at h
  split at h
  · next hnumber =>
    obtain ⟨rfl, rfl, rfl⟩ := Scan.found.inj h
    exact .inl ⟨hnumber, rfl, rfl⟩
  · next hnumber =>
    refine .inr ⟨by simpa using hnumber, ?_⟩
    split at h
    · next hquote =>
      split at h
      · next body hbody =>
        obtain ⟨rfl, rfl, rfl⟩ := Scan.found.inj h
        exact .inl ⟨hquote, body, hbody, rfl, rfl, rfl⟩
      · simp at h
    · split at h
      · next hname =>
        obtain ⟨rfl, rfl, rfl⟩ := Scan.found.inj h
        exact .inr (.inl ⟨hname, rfl, rfl, rfl⟩)
      · next hname =>
        refine .inr (.inr ⟨by simpa using hname, ?_⟩)
        split at h
        · next s hs =>
          obtain ⟨rfl, rfl, rfl⟩ := Scan.found.inj h
          exact ⟨s, hs, rfl, rfl, rfl⟩
        · simp at h

/-- A name is a keyword with a value, or stands for itself. -/
theorem nameToken_cases (name : String) :
    (∃ value, nameToken name = .boolean value) ∨ nameToken name = .null ∨
      nameToken name = .identifier name := by
  unfold nameToken
  split
  · exact .inl ⟨true, rfl⟩
  · split
    · exact .inl ⟨false, rfl⟩
    · split
      · exact .inr (.inl rfl)
      · exact .inr (.inr rfl)

/-! ### First characters -/

theorem ne_of_isWhiteSpace {c d : Char} (h : Unicode.isWhiteSpace c = true)
    (hd : Unicode.isWhiteSpace d = false) : c ≠ d := by
  rintro rfl
  exact Bool.noConfusion (hd.symm.trans h)

theorem isDigit_eq_false_of_isNameStart {c : Char} (h : isNameStart c = true) :
    c.isDigit = false := by
  refine Bool.eq_false_iff.2 fun hdigit => ?_
  have hne (d : Char) (hd : d.isDigit = false) : c ≠ d := fun heq => by simp_all
  simp [isNameStart, Unicode.isAlphabetic_eq_false_of_isDigit hdigit, hne '_' rfl, hne '$' rfl] at h

theorem isNamePart_eq_false_of_isWhiteSpace {c : Char} (h : Unicode.isWhiteSpace c = true) :
    isNamePart c = false := by
  have hunderscore : c ≠ '_' := ne_of_isWhiteSpace h (by decide)
  have hdollar : c ≠ '$' := ne_of_isWhiteSpace h (by decide)
  simp [isNamePart, Unicode.isAlphanumeric, Unicode.isAlphabetic_eq_false_of_isWhiteSpace h,
    Unicode.isNumeric_eq_false_of_isWhiteSpace h, hunderscore, hdollar]

theorem isNameStart_eq_false_of_isWhiteSpace {c : Char} (h : Unicode.isWhiteSpace c = true) :
    isNameStart c = false := by
  refine Bool.eq_false_iff.2 fun hstart => ?_
  have hpart := isNamePart_of_isNameStart hstart
  rw [isNamePart_eq_false_of_isWhiteSpace h] at hpart
  nomatch hpart

/-- The first character of a symbol begins no other kind of word. -/
theorem head_symbol {s : Symbol} {c : Char} (h : s.chars.head? = some c) :
    isNameStart c = false ∧ c ≠ '"' ∧ c ≠ '\'' ∧ Unicode.isWhiteSpace c = false := by
  cases s <;>
    · obtain rfl := Option.some.inj h
      decide

theorem beginsNumber_cons {c : Char} {rest : List Char} (h : c ≠ '.') :
    beginsNumber (c :: rest) = c.isDigit := by
  unfold beginsNumber
  split <;> simp_all

theorem head_of_leading? {c : Char} {rest : List Char} {s : Symbol}
    (h : Symbol.leading? (c :: rest) = some s) : s.chars.head? = some c := by
  obtain ⟨after, hafter⟩ := Symbol.isPrefix_of_leading? h
  cases hchars : s.chars with
  | nil => cases s <;> nomatch hchars
  | cons d ds =>
    rw [hchars, List.cons_append, List.cons.injEq] at hafter
    simp [hafter.1]

/-- A word does not begin with white space. -/
theorem isWhiteSpace_of_scan {c : Char} {text word rest : List Char} {t : Token}
    (h : scan (c :: text) = .found t word rest) : Unicode.isWhiteSpace c = false := by
  refine Bool.eq_false_iff.2 fun hspace => ?_
  have hne (d : Char) (hd : Unicode.isWhiteSpace d = false) : c ≠ d :=
    ne_of_isWhiteSpace hspace hd
  obtain ⟨hnumber, -⟩ | ⟨-, ⟨hquote, -⟩ | ⟨hname, -⟩ | ⟨-, s, hs, -⟩⟩ := found_cases h
  · rw [beginsNumber_cons (hne '.' (by decide))] at hnumber
    simp [Unicode.isWhiteSpace_eq_false_of_isDigit hnumber] at hspace
  · obtain hquote | hquote := hquote
    · exact hne '"' (by decide) hquote
    · exact hne '\'' (by decide) hquote
  · simp [isNameStart_eq_false_of_isWhiteSpace hspace] at hname
  · have hsymbol := (head_symbol (head_of_leading? hs)).2.2.2
    simp [hspace] at hsymbol

/-- White space before a word has been dropped. -/
theorem dropWhile_of_scan {text word rest : List Char} {t : Token}
    (h : scan text = .found t word rest) : text.dropWhile Unicode.isWhiteSpace = text := by
  cases text with
  | nil => rfl
  | cons c text => simp [isWhiteSpace_of_scan h]

/-! ### Where a word ends -/

/-- The text prolongs neither a name nor a number. -/
structure Stops (rest : List Char) : Prop where
  name : ∀ c ∈ rest.head?, isNamePart c = false
  number : beginsNumber rest = false

theorem stops_nil : Stops [] :=
  ⟨nofun, rfl⟩

/-- A blank, a comma, a colon or a bracket ends every word. -/
theorem stops_cons {c : Char} (h : c ∈ " ,:()[]\x7b\x7d".toList) (rest : List Char) :
    Stops (c :: rest) := by
  have hall : (" ,:()[]\x7b\x7d".toList.all fun c =>
      !isNamePart c && c ≠ '.' && !c.isDigit) = true := by
    decide
  have hc := List.all_eq_true.1 hall c h
  simp only [Bool.and_eq_true, Bool.not_eq_true', decide_eq_true_eq] at hc
  exact ⟨by simpa using hc.1.1, (beginsNumber_cons hc.1.2).trans hc.2⟩

theorem Stops.isDigit {rest : List Char} (h : Stops rest) :
    ∀ c ∈ rest.head?, c.isDigit = false := by
  cases rest with
  | nil => nofun
  | cons c rest =>
    intro d hd
    obtain rfl : c = d := by simpa using hd
    by_cases hdot : c = '.'
    · exact hdot ▸ rfl
    · exact (beginsNumber_cons hdot).symm.trans h.number

/-- Nothing follows, or white space does. -/
def Apart (rest : List Char) : Prop :=
  ∀ c ∈ rest.head?, Unicode.isWhiteSpace c = true

/-- White space ends names and numbers. -/
theorem Apart.stops {rest : List Char} (h : Apart rest) : Stops rest := by
  cases rest with
  | nil => exact stops_nil
  | cons c rest =>
    have hc : Unicode.isWhiteSpace c = true := h c rfl
    have hdot : c ≠ '.' := ne_of_isWhiteSpace hc (by decide)
    have hdigit : c.isDigit = false := by
      refine Bool.eq_false_iff.2 fun hdigit => ?_
      rw [Unicode.isWhiteSpace_eq_false_of_isDigit hdigit] at hc
      nomatch hc
    refine ⟨?_, (beginsNumber_cons hdot).trans hdigit⟩
    rintro d ⟨⟩
    exact isNamePart_eq_false_of_isWhiteSpace hc

/-- A word that goes on as long as its characters allow. -/
theorem takeWhile_append_of_head {p : Char → Bool} {word rest : List Char}
    (hword : ∀ c ∈ word, p c = true) (hrest : ∀ c ∈ rest.head?, p c = false) :
    (word ++ rest).takeWhile p = word ∧ (word ++ rest).dropWhile p = rest := by
  rw [List.takeWhile_append_of_pos hword, List.dropWhile_append_of_pos hword]
  cases rest with
  | nil => simp
  | cons c rest => simp [hrest c rfl]

/-- What stops a word is no part of it. -/
theorem head?_dropWhile (p : Char → Bool) (text : List Char) :
    ∀ c ∈ (text.dropWhile p).head?, p c = false := by
  intro c hc
  have hhead := List.head?_dropWhile_not p text
  rw [Option.mem_def.1 hc] at hhead
  simpa using hhead

/-! ### Names -/

/-- The text has the form of a name: a letter, `_` or `$`, and behind it letters, numbers, `_` and
`$`. -/
def IsName (text : List Char) : Prop :=
  ∃ c tail, text = c :: tail ∧ (Unicode.isAlphabetic c = true ∨ c = '_' ∨ c = '$') ∧
    ∀ d ∈ tail, Unicode.isAlphanumeric d = true ∨ d = '_' ∨ d = '$'

/-- The scanner knows names by these characters. -/
theorem isName_iff {text : List Char} :
    IsName text ↔
      ∃ c tail, text = c :: tail ∧ isNameStart c = true ∧ tail.all isNamePart = true := by
  simp [IsName, isNameStart, isNamePart, or_assoc]

/-- The words for the constants have the form of names. -/
theorem isName_of_mem_constants {word : String} (h : word ∈ ["true", "false", "null"]) :
    IsName word.toList := by
  simp only [List.mem_cons, List.not_mem_nil, or_false] at h
  rcases h with rfl | rfl | rfl
  · exact isName_iff.2 ⟨'t', "rue".toList, rfl, by decide⟩
  · exact isName_iff.2 ⟨'f', "alse".toList, rfl, by decide⟩
  · exact isName_iff.2 ⟨'n', "ull".toList, rfl, by decide⟩

/-- The beginning of a name. -/
theorem scan_of_isNameStart {c : Char} (h : isNameStart c = true) (rest : List Char) :
    scan (c :: rest) = .found (nameToken (String.ofList ((c :: rest).takeWhile isNamePart)))
      ((c :: rest).takeWhile isNamePart) ((c :: rest).dropWhile isNamePart) := by
  have hne (d : Char) (hd : isNameStart d = false) : c ≠ d := fun heq => by simp_all
  have hdigit := isDigit_eq_false_of_isNameStart h
  have hquote : ¬(c = '"' ∨ c = '\'') :=
    not_or.2 ⟨hne '"' (by decide), hne '\'' (by decide)⟩
  rw [scan, if_neg (by simp [beginsNumber_cons (hne '.' (by decide)), hdigit]),
    if_neg hquote, if_pos h]

/-- A name ends where nothing prolongs it. -/
theorem scan_name {name rest : List Char} (h : IsName name)
    (hrest : ∀ c ∈ rest.head?, isNamePart c = false) :
    scan (name ++ rest) = .found (nameToken (String.ofList name)) name rest := by
  obtain ⟨c, tail, rfl, hc, htail⟩ := isName_iff.1 h
  have hall : ∀ d ∈ c :: tail, isNamePart d = true := by
    simpa [isNamePart_of_isNameStart hc] using htail
  obtain ⟨htake, hdrop⟩ := takeWhile_append_of_head hall hrest
  rw [List.cons_append] at htake hdrop ⊢
  rw [scan_of_isNameStart hc, htake, hdrop]

theorem nameToken_eq_identifier {word name : String} (h : nameToken word = .identifier name) :
    word = name := by
  obtain ⟨value, hword⟩ | hword | hword := nameToken_cases word <;> simp_all

/-- A name in a text, taken apart. -/
theorem isName_of_scan {text word rest : List Char} {name : String}
    (h : scan text = .found (.identifier name) word rest) :
    IsName word ∧ String.ofList word = name ∧ nameToken name = .identifier name ∧
      text.dropWhile isNamePart = rest := by
  cases text with
  | nil => nomatch h
  | cons c text =>
    obtain ⟨-, ht, -⟩ | ⟨-, ⟨-, _, -, ht, -⟩ | ⟨hc, htoken, hword, hrest⟩ | ⟨-, _, -, ht, -⟩⟩ :=
      found_cases h
    · nomatch ht
    · nomatch ht
    · have hname := nameToken_eq_identifier htoken.symm
      refine ⟨?_, hname, hname ▸ htoken.symm, hrest.symm⟩
      rw [List.takeWhile_cons_of_pos (isNamePart_of_isNameStart hc)] at hword
      exact isName_iff.2 ⟨c, _, hword, hc, List.all_takeWhile⟩
    · nomatch ht

/-- A name that has been read is read in the same way before any text that does not prolong it. -/
theorem scan_append_of_name {text word rest : List Char} {name : String}
    (h : scan text = .found (.identifier name) word rest) {after : List Char}
    (hafter : ∀ c ∈ after.head?, isNamePart c = false) :
    scan (text ++ after) = .found (.identifier name) word (rest ++ after) := by
  obtain ⟨hname, rfl, htoken, hdrop⟩ := isName_of_scan h
  have hrest : ∀ c ∈ (rest ++ after).head?, isNamePart c = false := by
    cases rest with
    | nil => exact hafter
    | cons d rest =>
      have hhead := head?_dropWhile isNamePart text
      rw [hdrop] at hhead
      exact hhead
  rw [← append_of_scan h, List.append_assoc, scan_name hname hrest, htoken]

/-! ### Numbers -/

theorem scan_of_beginsNumber {text : List Char} (h : beginsNumber text = true) :
    scan text = .found (.number (.ofChars (splitNumber text).1)) (splitNumber text).1
      (splitNumber text).2 := by
  cases text with
  | nil => nomatch h
  | cons c text => rw [scan, if_pos h]

/-- A number in a text begins it. -/
theorem beginsNumber_of_scan {text word rest : List Char} {value : Number}
    (h : scan text = .found (.number value) word rest) : beginsNumber text = true := by
  cases text with
  | nil => nomatch h
  | cons c text =>
    obtain ⟨hnumber, -⟩ | ⟨-, ⟨-, _, -, ht, -⟩ | ⟨-, ht, -⟩ | ⟨-, _, -, ht, -⟩⟩ := found_cases h
    · exact hnumber
    · nomatch ht
    · obtain ⟨_, hname⟩ | hname | hname := nameToken_cases (String.ofList word) <;>
        nomatch ht.trans hname
    · nomatch ht

/-- A number in a text, taken apart. -/
theorem number_of_scan {text word rest : List Char} {value : Number}
    (h : scan text = .found (.number value) word rest) :
    value = .ofChars (splitNumber text).1 := by
  have hscan := scan_of_beginsNumber (beginsNumber_of_scan h)
  exact Token.number.inj (Scan.found.inj (h.symm.trans hscan)).1

/-- The scanner finds a number text where nothing prolongs it. -/
theorem splitNumber_joined {whole fraction rest : List Char}
    (hwhole : ∀ c ∈ whole, c.isDigit = true) (hfraction : ∀ c ∈ fraction, c.isDigit = true)
    (hrest : ∀ c ∈ rest.head?, c.isDigit = false)
    (hpoint : fraction = [] → beginsNumber rest = false) :
    splitNumber (Number.joined whole fraction ++ rest) = (Number.joined whole fraction, rest) := by
  cases fraction with
  | nil =>
    obtain ⟨htake, hdrop⟩ := takeWhile_append_of_head hwhole hrest
    rw [Number.joined, splitNumber, htake, hdrop]
    split
    · next c tail =>
      have hdigit : c.isDigit = false := hpoint rfl
      simp [hdigit]
    · rfl
  | cons c fraction =>
    obtain ⟨htake, hdrop⟩ := takeWhile_append_of_head hfraction hrest
    have hpoint : ∀ d ∈ ('.' :: c :: fraction ++ rest).head?, d.isDigit = false := by simp
    obtain ⟨htake', hdrop'⟩ := takeWhile_append_of_head hwhole hpoint
    rw [Number.joined, List.append_assoc, splitNumber]
    simp only [List.cons_append] at htake hdrop htake' hdrop' ⊢
    rw [htake', hdrop']
    simp only [hfraction c (by simp), if_true, htake, hdrop]

/-- What the scanner finds is a number text, and what follows does not prolong it. -/
theorem exists_splitNumber_eq_joined (text : List Char) :
    ∃ whole fraction, (splitNumber text).1 = Number.joined whole fraction ∧
      (∀ c ∈ whole, c.isDigit = true) ∧ (∀ c ∈ fraction, c.isDigit = true) ∧
      (∀ c ∈ (splitNumber text).2.head?, c.isDigit = false) ∧
      (fraction = [] → beginsNumber (splitNumber text).2 = false) := by
  have hdigits (text : List Char) : ∀ c ∈ text.takeWhile Char.isDigit, c.isDigit = true :=
    List.all_eq_true.1 List.all_takeWhile
  have hrest := head?_dropWhile Char.isDigit text
  unfold splitNumber
  split
  · next c rest hdrop =>
    split
    · next hc =>
      have hall := hdigits (c :: rest)
      have hrest := head?_dropWhile Char.isDigit (c :: rest)
      rw [List.takeWhile_cons_of_pos hc] at hall ⊢
      exact ⟨_, _, rfl, hdigits text, hall, hrest, nofun⟩
    · next hc =>
      rw [hdrop] at hrest
      exact ⟨_, [], rfl, hdigits _, nofun, hrest, fun _ => Bool.eq_false_iff.2 hc⟩
  · next hpoint =>
    refine ⟨_, [], rfl, hdigits _, nofun, hrest, fun _ => ?_⟩
    generalize text.dropWhile Char.isDigit = rest at hrest hpoint
    cases rest with
    | nil => rfl
    | cons d rest =>
      by_cases hd : d = '.'
      · subst hd
        cases rest with
        | nil => rfl
        | cons c rest => exact absurd rfl (hpoint c rest)
      · rw [beginsNumber_cons hd]
        exact hrest d rfl

/-- The canonical text of a number is read as that number. -/
theorem scan_number (text : List Char) {rest : List Char} (hrest : Stops rest) :
    scan (Number.canonical (splitNumber text).1 ++ rest) =
      .found (.number (.ofChars (splitNumber text).1)) (Number.canonical (splitNumber text).1)
        rest := by
  obtain ⟨whole, fraction, hjoined, hwhole, hfraction, -⟩ := exists_splitNumber_eq_joined text
  have hdot : '.' ∉ whole := fun hmem => by simpa using hwhole '.' hmem
  have hwhole' : ∀ c ∈ Number.canonicalWhole whole, c.isDigit = true := by
    intro c hc
    rcases Number.mem_of_mem_canonicalWhole hc with rfl | hc
    · rfl
    · exact hwhole c hc
  have hfraction' : ∀ c ∈ Text.dropTrailing (· = '0') fraction, c.isDigit = true :=
    fun c hc => hfraction c ((Text.dropTrailing_isPrefix _ fraction).subset hc)
  have hcanonical : Number.canonical (splitNumber text).1 =
      Number.joined (Number.canonicalWhole whole) (Text.dropTrailing (· = '0') fraction) := by
    rw [hjoined, Number.canonical_eq_joined, (Number.parts_joined hdot fraction).1,
      (Number.parts_joined hdot fraction).2]
  have hbegins : beginsNumber (Number.canonical (splitNumber text).1 ++ rest) = true := by
    obtain ⟨c, digits, hdigits⟩ := List.exists_cons_of_ne_nil (Number.canonicalWhole_ne_nil whole)
    have hc : c.isDigit = true := hwhole' c (by simp [hdigits])
    have hne : c ≠ '.' := by rintro rfl; simp at hc
    rw [hcanonical, hdigits]
    cases Text.dropTrailing (· = '0') fraction <;> exact (beginsNumber_cons hne).trans hc
  rw [scan_of_beginsNumber hbegins]
  rw [hcanonical, splitNumber_joined hwhole' hfraction' hrest.isDigit fun _ => hrest.number,
    ← hcanonical, Number.ofChars_canonical]

/-! ### Strings -/

theorem readBody_quote (quote : Char) (rest : List Char) :
    readBody quote (quote :: rest) = some ⟨[], [quote], rest⟩ := by
  cases rest <;> simp [readBody]

theorem readBody_backslash {quote : Char} (h : quote ≠ '\\') (c : Char) (rest : List Char) :
    readBody quote ('\\' :: c :: rest) =
      (readBody quote rest).map (Body.cons (unescape c) ['\\', c]) := by
  simp [readBody, h.symm]

theorem readBody_plain {quote c : Char} (hquote : c ≠ quote) (hne : c ≠ '\\')
    (rest : List Char) :
    readBody quote (c :: rest) = (readBody quote rest).map (Body.cons c [c]) := by
  cases rest <;> simp [readBody, hquote, hne]

/-- A text with its quotes and backslashes escaped is read up to the closing quote. -/
theorem readBody_escaped {quote : Char} (hquote : quote = '"' ∨ quote = '\'')
    (text rest : List Char) :
    readBody quote (Text.escaped quote text ++ quote :: rest) =
      some ⟨text, Text.escaped quote text ++ [quote], rest⟩ := by
  have hne : quote ≠ '\\' := by rcases hquote with rfl | rfl <;> decide
  induction text with
  | nil => exact readBody_quote quote rest
  | cons c text ih =>
    rw [Text.escaped]
    split
    · next hescaped =>
      have hunescape : unescape c = c := by
        rcases hescaped with rfl | rfl
        · rcases hquote with rfl | rfl <;> rfl
        · rfl
      rw [List.cons_append, List.cons_append, readBody_backslash hne, ih, hunescape]
      rfl
    · next hplain =>
      obtain ⟨hc, hbackslash⟩ := not_or.1 hplain
      rw [List.cons_append, readBody_plain hc hbackslash, ih]
      rfl

/-- A quoted text is read as the text. -/
theorem scan_quoted {quote : Char} (hquote : quote = '"' ∨ quote = '\'') (text rest : List Char) :
    scan (Text.quoted quote text ++ rest) =
      .found (.string (String.ofList text)) (Text.quoted quote text) rest := by
  have hnumber (tail : List Char) : beginsNumber (quote :: tail) = false := by
    rcases hquote with rfl | rfl <;> rfl
  rw [Text.quoted, List.cons_append, List.append_assoc, List.singleton_append, scan,
    if_neg (by simp [hnumber]), if_pos hquote, readBody_escaped hquote]

/-! ### Symbols -/

theorem scan_of_leading? {text : List Char} {s : Symbol} (hs : Symbol.leading? text = some s)
    (hnumber : beginsNumber text = false) :
    scan text = .found (.symbol s) s.chars (text.drop s.chars.length) := by
  cases text with
  | nil => cases s <;> nomatch hs
  | cons c text =>
    obtain ⟨hname, hdouble, hsingle, -⟩ := head_symbol (head_of_leading? hs)
    rw [scan, if_neg (by simp [hnumber]), if_neg (not_or.2 ⟨hdouble, hsingle⟩),
      if_neg (by simp [hname]), hs]

/-- A symbol that no character can prolong. -/
theorem scan_symbol {s : Symbol} (h : s ∉ [Symbol.bar, .bang, .less, .greater, .dot])
    (rest : List Char) : scan (s.chars ++ rest) = .found (.symbol s) s.chars rest := by
  have hleading : Symbol.leading? (s.chars ++ rest) = some s := by
    cases s <;> first | rfl | simp at h
  have hnumber : beginsNumber (s.chars ++ rest) = false := by
    cases s <;> first | rfl | simp at h
  simpa using scan_of_leading? hleading hnumber

/-- White space ends symbols. -/
theorem scan_symbol_append (s : Symbol) {rest : List Char} (h : Apart rest) :
    scan (s.chars ++ rest) = .found (.symbol s) s.chars rest := by
  cases rest with
  | nil =>
    have hleading : Symbol.leading? s.chars = some s := by cases s <;> rfl
    have hnumber : beginsNumber s.chars = false := by cases s <;> rfl
    simpa using scan_of_leading? hleading hnumber
  | cons c rest =>
    have hleading : Symbol.leading? (s.chars ++ c :: rest) = some s := by
      -- Only a bar and an equals sign ever prolong a symbol.
      have hbar : '|' ≠ c := (ne_of_isWhiteSpace (h c rfl) (by decide)).symm
      have hequal : '=' ≠ c := (ne_of_isWhiteSpace (h c rfl) (by decide)).symm
      cases s <;> first
        | rfl
        | simp [Symbol.leading?, Symbol.all, Symbol.chars, List.isPrefixOf, hbar, hequal]
    have hnumber : beginsNumber (s.chars ++ c :: rest) = false := by
      have hdigit := h.stops.isDigit c rfl
      cases s <;> first | rfl | exact hdigit
    simpa using scan_of_leading? hleading hnumber

/-- A blank ends every symbol. -/
theorem scan_symbol_blank (s : Symbol) (rest : List Char) :
    scan (s.chars ++ ' ' :: rest) = .found (.symbol s) s.chars (' ' :: rest) := by
  refine scan_symbol_append s ?_
  rintro c ⟨⟩
  decide

theorem scan_dot {rest : List Char} (h : beginsNumber ('.' :: rest) = false) :
    scan ('.' :: rest) = .found (.symbol .dot) ['.'] rest :=
  scan_of_leading? rfl h

theorem scan_bang {rest : List Char} (h : rest.head? ≠ some '=') :
    scan ('!' :: rest) = .found (.symbol .bang) ['!'] rest := by
  have hleading : Symbol.leading? ('!' :: rest) = some .bang := by
    cases rest with
    | nil => rfl
    | cons c rest =>
      have hne : '=' ≠ c := fun heq => h (by simp [← heq])
      simp [Symbol.leading?, Symbol.all, Symbol.chars, List.isPrefixOf, hne]
  exact scan_of_leading? hleading rfl

/-- A symbol in a text, taken apart. -/
theorem symbol_of_scan {text word rest : List Char} {s : Symbol}
    (h : scan text = .found (.symbol s) word rest) :
    word = s.chars ∧ beginsNumber text = false := by
  cases text with
  | nil => nomatch h
  | cons c text =>
    obtain ⟨-, ht, -⟩ | ⟨hnumber, ⟨-, _, -, ht, -⟩ | ⟨-, ht, -⟩ | ⟨-, _, -, ht, hword, -⟩⟩ :=
      found_cases h
    · nomatch ht
    · nomatch ht
    · obtain ⟨_, hname⟩ | hname | hname := nameToken_cases (String.ofList word) <;>
        nomatch ht.trans hname
    · exact ⟨by rw [hword, Token.symbol.inj ht], hnumber⟩

/-- A point that has been read before something is read in the same way before more of it. -/
theorem scan_append_of_dot {text word rest : List Char}
    (h : scan text = .found (.symbol .dot) word rest) (hrest : rest ≠ []) (after : List Char) :
    scan (text ++ after) = .found (.symbol .dot) word (rest ++ after) := by
  obtain ⟨rfl, hnumber⟩ := symbol_of_scan h
  have htext := append_of_scan h
  rw [← htext] at hnumber ⊢
  cases rest with
  | nil => exact absurd rfl hrest
  | cons c rest => exact scan_dot hnumber

/-- Only one token begins with an equals sign. -/
theorem token_of_scan_equal {text word rest : List Char} {t : Token}
    (h : scan ('=' :: text) = .found t word rest) : t = .symbol .equalEqual := by
  obtain ⟨hnumber, -⟩ | ⟨-, ⟨hquote, -⟩ | ⟨hname, -⟩ | ⟨-, s, hs, ht, -⟩⟩ := found_cases h
  · simp [beginsNumber] at hnumber
  · exact absurd hquote (by decide)
  · exact absurd hname (by decide)
  · rw [ht]
    have hhead := head_of_leading? hs
    cases s <;> first | rfl | simp [Symbol.chars] at hhead

end Scan

end Binding
