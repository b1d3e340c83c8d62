import Binding.Proofs.Token.Places

/-!
# The longest word

What the words of the language are can be said without a scanner: a name, a constant, a number, a
text in quotes, or a symbol (`Word`).  Three tables belong to this: the constants, the characters
with a meaning of their own behind a backslash, and the spellings of the symbols.  A text may begin
with many words.  The scanner always takes the longest one, and it finds none only where there is
none.

## Why looking one character ahead is enough

The scanner decides by the first character, or by two where a point may begin a number, which kind
of word it reads, and then reads on as far as that kind goes.  So a word can only be missed if
another kind of word begins with it.  `Reaches` says that this does not happen: what the scanner
finds is at least as long as any given word that the text begins with, and if it is that very word,
it has the same token.  There is one such statement for each kind, and everything else follows from
them; in particular no text is a word in two ways.

## Main results

* `unescape_eq_decoded`, `constant_iff`, `Symbol.mem_spellings_iff`: the scanner goes by the tables.
* `Scan.scan_eq_found_iff`: what is found is the longest word.
* `Lexer.nextLexeme_longest`: reading the next lexeme, in terms of words alone.
-/

namespace Binding

open Scan

/-! ### The words of the language -/

/-- The characters with a meaning of their own behind a backslash, and what they stand for there. -/
def escapes : List (Char × Char) :=
  [('n', '\n'), ('t', '\t'), ('r', '\r'), ('b', '\x08'), ('f', '\x0c'), ('v', '\x0b'),
   ('0', '\x00')]

/-- What a character stands for behind a backslash.  A character that is not in the table stands
for itself. -/
def decoded (c : Char) : Char :=
  (escapes.lookup c).getD c

/-- Between two quotes, the body stands for the value.  A character other than the quote and the
backslash stands for itself, and a backslash decides what the character behind it stands for. -/
inductive StandsFor (quote : Char) : List Char → List Char → Prop
  | nil : StandsFor quote [] []
  | plain {c : Char} {body value : List Char} : c ≠ quote → c ≠ '\\' →
    StandsFor quote body value → StandsFor quote (c :: body) (c :: value)
  | escape (c : Char) {body value : List Char} : StandsFor quote body value →
    StandsFor quote ('\\' :: c :: body) (decoded c :: value)

/-- The words that look like names and are none. -/
def constants : List (String × Token) :=
  [("true", .boolean true), ("false", .boolean false), ("null", .null)]

/-- The symbols as they are written. -/
def Symbol.spellings : List (String × Symbol) :=
  [("+", plus), ("-", minus), ("*", star), ("/", slash), ("%", percent), ("<", less),
   ("<=", lessEqual), (">", greater), (">=", greaterEqual), ("==", equalEqual), ("!=", bangEqual),
   ("&&", ampAmp), ("||", barBar), ("|", bar), ("!", bang), ("?", question), (":", colon),
   (".", dot), (",", comma), ("(", parenOpen), (")", parenClose), ("[", bracketOpen),
   ("]", bracketClose), ("\x7b", braceOpen), ("\x7d", braceClose)]

/-- The text is a word of the language, and the token is what it is read as. -/
inductive Word : List Char → Token → Prop
  | name {name : String} : IsWord name → Word name.toList (.identifier name)
  | constant {text : String} {t : Token} : (text, t) ∈ constants → Word text.toList t
  | number {text : List Char} : Number.IsDigits text → Word text (.number (.ofChars text))
  | string {quote : Char} {body value : List Char} : quote = '"' ∨ quote = '\'' →
    StandsFor quote body value → Word (quote :: (body ++ [quote])) (.string (String.ofList value))
  | symbol {text : String} {s : Symbol} : (text, s) ∈ Symbol.spellings →
    Word text.toList (.symbol s)

/-- The text begins with the word, and with no longer one. -/
structure Longest (text word : List Char) (t : Token) : Prop where
  isPrefix : word <+: text
  isWord : Word word t
  longest : ∀ word' t', word' <+: text → Word word' t' → word'.length ≤ word.length

/-! ### The tables -/

theorem unescape_eq_decoded (c : Char) : unescape c = decoded c := by
  unfold unescape
  split
  case h_8 =>
    -- The character is not in the table.
    have hnone : escapes.lookup c = none := List.lookup_eq_none_iff.2 (by simp_all [escapes])
    rw [decoded, hnone, Option.getD_none]
  all_goals rfl

theorem constant_iff {text : String} {t : Token} :
    (text, t) ∈ constants ↔ text ∈ ["true", "false", "null"] ∧ nameToken text = t := by
  constructor
  · intro h
    simp only [constants, List.mem_cons, Prod.mk.injEq, List.not_mem_nil, or_false] at h
    rcases h with ⟨rfl, rfl⟩ | ⟨rfl, rfl⟩ | ⟨rfl, rfl⟩ <;> decide
  · rintro ⟨h, rfl⟩
    simp only [List.mem_cons, List.not_mem_nil, or_false] at h
    rcases h with rfl | rfl | rfl <;> decide

theorem Symbol.mem_spellings_iff {text : String} {s : Symbol} :
    (text, s) ∈ spellings ↔ text = s.spelling := by
  constructor
  · have hall : ∀ entry ∈ spellings, entry.1 = entry.2.spelling := by decide
    exact hall (text, s)
  · rintro rfl
    cases s <;> decide

/-! ### Strings -/

/-- A string is read up to its closing quote. -/
theorem StandsFor.readBody {quote : Char} {body value : List Char} (h : StandsFor quote body value)
    (hquote : quote ≠ '\\') (rest : List Char) :
    readBody quote (body ++ quote :: rest) = some ⟨value, body ++ [quote], rest⟩ := by
  induction h with
  | nil => exact readBody_quote quote rest
  | plain hc hbackslash _ ih =>
    rw [List.cons_append, readBody_plain hc hbackslash, ih]
    rfl
  | escape c _ ih =>
    rw [List.cons_append, List.cons_append, readBody_backslash hquote, ih, unescape_eq_decoded]
    rfl

/-- What has been read of a string stands for its value. -/
theorem standsFor_of_readBody {quote : Char} {text : List Char} {read : Body}
    (h : readBody quote text = some read) :
    ∃ body, StandsFor quote body read.value ∧ read.word = body ++ [quote] := by
  fun_induction readBody quote text generalizing read with
  | case1 => cases h
  | case2 rest =>
    obtain rfl := Option.some.inj h
    exact ⟨[], .nil, rfl⟩
  | case3 => cases h
  | case4 c rest _ ih =>
    obtain ⟨inner, hinner, rfl⟩ := Option.map_eq_some_iff.1 h
    obtain ⟨body, hbody, hword⟩ := ih hinner
    refine ⟨'\\' :: c :: body, ?_, by rw [Body.cons, hword]; rfl⟩
    rw [unescape_eq_decoded]
    exact .escape c hbody
  | case5 c rest hquote hbackslash ih =>
    obtain ⟨inner, hinner, rfl⟩ := Option.map_eq_some_iff.1 h
    obtain ⟨body, hbody, hword⟩ := ih hinner
    exact ⟨c :: body, .plain hquote hbackslash hbody, by rw [Body.cons, hword]; rfl⟩

/-! ### What is found is a word -/

/-- A text of the form of a name is a word, also if it is one of the constants. -/
theorem word_of_isName {name : String} (h : IsName name.toList) :
    Word name.toList (nameToken name) := by
  by_cases hword : name ∈ ["true", "false", "null"]
  · exact .constant (constant_iff.2 ⟨hword, rfl⟩)
  · rw [nameToken_eq_identifier_iff.2 hword]
    exact .name ⟨h, hword⟩

theorem word_symbol (s : Symbol) : Word s.chars (.symbol s) := by
  have hword := Word.symbol (Symbol.mem_spellings_iff.2 (Eq.refl s.spelling))
  rwa [Symbol.toList_spelling] at hword

theorem word_of_scan {text word rest : List Char} {t : Token}
    (h : scan text = .found t word rest) : Word word t := by
  cases text with
  | nil => nomatch h
  | cons c text =>
    obtain ⟨hnumber, rfl, hsplit⟩ | ⟨-, ⟨hquote, body, hbody, rfl, rfl, -⟩ |
      ⟨hc, rfl, hword, -⟩ | ⟨-, s, -, rfl, rfl, -⟩⟩ := found_cases h
    · rw [← hsplit]
      have hdigits := isDigits_splitNumber hnumber
      rw [← hsplit] at hdigits
      exact .number hdigits
    · obtain ⟨inner, hinner, hword⟩ := standsFor_of_readBody hbody
      rw [hword]
      exact .string hquote hinner
    · have hname : IsName (String.ofList word).toList := by
        rw [String.toList_ofList, hword,
          List.takeWhile_cons_of_pos (isNamePart_of_isNameStart hc)]
        exact isName_iff.2 ⟨c, _, rfl, hc, List.all_takeWhile⟩
      have hw := word_of_isName hname
      rwa [String.toList_ofList] at hw
    · exact word_symbol s

/-! ### No word is missed -/

/-- What the scanner finds is no shorter than the word, and if it is the word, it is the token. -/
def Reaches (text word : List Char) (t : Token) : Prop :=
  ∃ t' word' rest, scan text = .found t' word' rest ∧ word.length ≤ word'.length ∧
    (word' = word → t' = t)

theorem reaches_name {name : String} (h : IsName name.toList) (rest : List Char) :
    Reaches (name.toList ++ rest) name.toList (nameToken name) := by
  obtain ⟨c, tail, heq, hc, htail⟩ := isName_iff.1 h
  have hall : ∀ d ∈ name.toList, isNamePart d = true := by
    rw [heq]
    simpa [isNamePart_of_isNameStart hc] using htail
  have hscan := scan_of_isNameStart hc (tail ++ rest)
  rw [← List.cons_append, ← heq, List.takeWhile_append_of_pos hall] at hscan
  refine ⟨_, _, _, hscan, ?_, fun hsame => ?_⟩
  · rw [List.length_append]
    omega
  · rw [hsame, String.ofList_toList]

/-- The digits that a text begins with belong to its number. -/
theorem length_takeWhile_le_splitNumber (text : List Char) :
    (text.takeWhile Char.isDigit).length ≤ (splitNumber text).1.length := by
  unfold splitNumber
  split
  · split
    · rw [List.length_append]
      omega
    · exact Nat.le_refl _
  · exact Nat.le_refl _

theorem length_joined_le {whole fraction : List Char} (hwhole : ∀ c ∈ whole, c.isDigit = true)
    (hfraction : ∀ c ∈ fraction, c.isDigit = true) (rest : List Char) :
    (Number.joined whole fraction).length ≤
      (splitNumber (Number.joined whole fraction ++ rest)).1.length := by
  cases fraction with
  | nil =>
    have hle := length_takeWhile_le_splitNumber (whole ++ rest)
    rw [List.takeWhile_append_of_pos hwhole, List.length_append] at hle
    rw [Number.joined]
    omega
  | cons c fraction =>
    have hpoint : ∀ d ∈ ('.' :: c :: fraction ++ rest).head?, d.isDigit = false := by simp
    obtain ⟨htake, hdrop⟩ := takeWhile_append_of_head hwhole hpoint
    rw [Number.joined, List.append_assoc, splitNumber, htake, hdrop]
    simp only [List.cons_append, hfraction c List.mem_cons_self, if_true]
    rw [← List.cons_append, List.takeWhile_append_of_pos hfraction]
    simp only [List.length_append, List.length_cons]
    omega

theorem reaches_number {text : List Char} (h : Number.IsDigits text) (rest : List Char) :
    Reaches (text ++ rest) text (.number (.ofChars text)) := by
  have hscan := scan_of_beginsNumber (beginsNumber_append h.beginsNumber rest)
  obtain ⟨-, whole, fraction, rfl, hwhole, hfraction⟩ := h
  refine ⟨_, _, _, hscan, length_joined_le hwhole hfraction rest, fun hsame => ?_⟩
  rw [hsame]

/-- A string in quotes is found whatever follows it. -/
theorem scan_string {quote : Char} (hquote : quote = '"' ∨ quote = '\'')
    {body value : List Char} (h : StandsFor quote body value) (rest : List Char) :
    scan (quote :: (body ++ [quote]) ++ rest) =
      .found (.string (String.ofList value)) (quote :: (body ++ [quote])) rest := by
  have hbackslash : quote ≠ '\\' := by rcases hquote with rfl | rfl <;> decide
  have hnumber (tail : List Char) : beginsNumber (quote :: tail) = false := by
    rcases hquote with rfl | rfl <;> rfl
  rw [List.cons_append, List.append_assoc, List.singleton_append, scan, if_neg (by simp [hnumber]),
    if_pos hquote, h.readBody hbackslash]

theorem reaches_string {quote : Char} (hquote : quote = '"' ∨ quote = '\'')
    {body value : List Char} (h : StandsFor quote body value) (rest : List Char) :
    Reaches (quote :: (body ++ [quote]) ++ rest) (quote :: (body ++ [quote]))
      (.string (String.ofList value)) :=
  ⟨_, _, rest, scan_string hquote h rest, Nat.le_refl _, fun _ => rfl⟩

namespace Symbol

/-- No symbol comes before a longer one. -/
theorem pairwise_all : all.Pairwise fun s s' => s'.chars.length ≤ s.chars.length := by
  decide

/-- The symbol that is found is no shorter than any that the text begins with. -/
theorem exists_leading? {text : List Char} {s : Symbol} (h : s.chars <+: text) :
    ∃ s', leading? text = some s' ∧ s.chars.length ≤ s'.chars.length := by
  cases hleading : leading? text with
  | none =>
    have hnot := List.find?_eq_none.1 hleading s (mem_all s)
    exact absurd (List.isPrefixOf_iff_prefix.2 h) hnot
  | some s' =>
    refine ⟨s', rfl, ?_⟩
    obtain ⟨-, before, behind, hall, hbefore⟩ := List.find?_eq_some_iff_append.1 hleading
    have hs := mem_all s
    have hpairwise := pairwise_all
    rw [hall] at hs hpairwise
    rcases List.mem_append.1 hs with hmem | hmem
    · -- A symbol before the one that is found does not begin the text.
      have hnot := hbefore s hmem
      rw [List.isPrefixOf_iff_prefix.2 h] at hnot
      nomatch hnot
    · rcases List.mem_cons.1 hmem with rfl | hmem
      · exact Nat.le_refl _
      · exact (List.pairwise_cons.1 (List.pairwise_append.1 hpairwise).2.1).1 s hmem

/-- Of all symbols, only the point can begin a number. -/
theorem eq_dot_of_beginsNumber {s : Symbol} {rest : List Char}
    (h : beginsNumber (s.chars ++ rest) = true) : s = .dot := by
  cases s <;> first | rfl | nomatch h

end Symbol

theorem reaches_symbol (s : Symbol) (rest : List Char) :
    Reaches (s.chars ++ rest) s.chars (.symbol s) := by
  by_cases hnumber : beginsNumber (s.chars ++ rest) = true
  · -- The point is not by itself, and what is found has a digit behind it.
    obtain rfl := Symbol.eq_dot_of_beginsNumber hnumber
    have hdigits := isDigits_splitNumber hnumber
    have hlength : 1 < (splitNumber (Symbol.dot.chars ++ rest)).1.length := by
      cases rest with
      | nil => nomatch hnumber
      | cons d rest =>
        have hd : d.isDigit = true := hnumber
        simp [Symbol.chars, splitNumber, hd]
    refine ⟨_, _, _, scan_of_beginsNumber hnumber, Nat.le_of_lt hlength, fun hsame => ?_⟩
    rw [hsame] at hlength
    exact absurd hlength (by decide)
  · obtain ⟨s', hs', hle⟩ := Symbol.exists_leading? (List.prefix_append s.chars rest)
    refine ⟨_, _, _, scan_of_leading? hs' (Bool.eq_false_iff.2 hnumber), hle, fun hsame => ?_⟩
    rw [Symbol.chars_injective hsame]

/-- **No word is missed.** -/
theorem Word.reaches {word : List Char} {t : Token} (h : Word word t) (rest : List Char) :
    Reaches (word ++ rest) word t := by
  cases h with
  | @name name hname =>
    have hreaches := reaches_name hname.1 rest
    rwa [nameToken_eq_identifier_iff.2 hname.2] at hreaches
  | constant h =>
    obtain ⟨hmem, rfl⟩ := constant_iff.1 h
    exact reaches_name (isName_of_mem_constants hmem) rest
  | number hdigits => exact reaches_number hdigits rest
  | string hquote hbody => exact reaches_string hquote hbody rest
  | @symbol text s h =>
    rw [Symbol.mem_spellings_iff.1 h, Symbol.toList_spelling]
    exact reaches_symbol s rest

/-- A word by itself is found whole. -/
theorem Word.scan_eq {word : List Char} {t : Token} (h : Word word t) :
    scan word = .found t word [] := by
  obtain ⟨t', word', rest, hscan, hle, htoken⟩ := h.reaches []
  rw [List.append_nil] at hscan
  have htext := append_of_scan hscan
  obtain rfl : word' = word := List.IsPrefix.eq_of_length_le ⟨rest, htext⟩ hle
  obtain rfl : rest = [] := List.append_right_eq_self.1 htext
  rw [hscan, htoken rfl]

/-- No text is a word in two ways. -/
theorem Word.unique {word : List Char} {t t' : Token} (h : Word word t) (h' : Word word t') :
    t' = t := by
  have hscan := h'.scan_eq
  rw [h.scan_eq] at hscan
  exact (Scan.found.inj hscan).1.symm

theorem Word.reaches_of_isPrefix {text word : List Char} {t : Token} (h : Word word t)
    (hleads : word <+: text) : Reaches text word t := by
  obtain ⟨rest, rfl⟩ := hleads
  exact h.reaches rest

namespace Scan

/-- **What is found is the longest word.** -/
theorem scan_eq_found_iff {text word rest : List Char} {t : Token} :
    scan text = .found t word rest ↔ Longest text word t ∧ text = word ++ rest := by
  constructor
  · intro h
    have htext := append_of_scan h
    refine ⟨⟨⟨rest, htext⟩, word_of_scan h, fun word' t' hleads hword => ?_⟩, htext.symm⟩
    obtain ⟨_, _, _, hscan, hle, -⟩ := hword.reaches_of_isPrefix hleads
    rw [h] at hscan
    cases hscan
    exact hle
  · rintro ⟨⟨hleads, hword, hlongest⟩, htext⟩
    obtain ⟨t', word', rest', hscan, hle, htoken⟩ := hword.reaches_of_isPrefix hleads
    have hleads' : word' <+: text := ⟨rest', append_of_scan hscan⟩
    have hle' := hlongest word' t' hleads' (word_of_scan hscan)
    obtain rfl : word' = word :=
      (List.prefix_of_prefix_length_le hleads' hleads hle').eq_of_length_le hle
    have hrest : word' ++ rest' = word' ++ rest := by rw [append_of_scan hscan, htext]
    rw [hscan, htoken rfl, List.append_cancel_left hrest]

/-- Where nothing is found, the first character tells what is missing. -/
theorem scan_of_not_found {c : Char} {tail : List Char}
    (h : ∀ t word rest, scan (c :: tail) ≠ .found t word rest) :
    scan (c :: tail) = if c = '"' ∨ c = '\'' then .unterminated c else .unexpected c := by
  have hnumber : beginsNumber (c :: tail) = false :=
    Bool.eq_false_iff.2 fun hbegins => h _ _ _ (scan_of_beginsNumber hbegins)
  have hname : isNameStart c = false :=
    Bool.eq_false_iff.2 fun hstart => h _ _ _ (scan_of_isNameStart hstart tail)
  have hsymbol : Symbol.leading? (c :: tail) = none := by
    cases hs : Symbol.leading? (c :: tail) with
    | none => rfl
    | some s => exact absurd (scan_of_leading? hs hnumber) (h _ _ _)
  by_cases hquote : c = '"' ∨ c = '\''
  · have hbody : readBody c tail = none := by
      cases hbody : readBody c tail with
      | none => rfl
      | some body =>
        refine absurd ?_ (h (.string (String.ofList body.value)) (c :: body.word) body.rest)
        rw [scan, if_neg (by simp [hnumber]), if_pos hquote, hbody]
    rw [scan, if_neg (by simp [hnumber]), if_pos hquote, if_pos hquote, hbody]
  · rw [scan, if_neg (by simp [hnumber]), if_neg hquote, if_neg hquote, if_neg (by simp [hname]),
      hsymbol]

end Scan

/-! ### The next lexeme -/

/-- **The lexer takes the longest word.**  It passes all the white space before it.  At the end of
the source it gives the end of input and stays.  Where a word begins it gives the longest one, with
the only token that this text is read as, and stands behind it.  Elsewhere it fails: a quote has no
closing one, and the lexer has gone on to the end of the source; any other character is unexpected,
and the lexer stands before it. -/
theorem Lexer.nextLexeme_longest (l : Lexer) :
    ∃ blanks text, l.cursor.rest = blanks ++ text ∧
      (∀ c ∈ blanks, Unicode.isWhiteSpace c = true) ∧
      (∀ c ∈ text.head?, Unicode.isWhiteSpace c = false) ∧
      let place := l.cursor.position.after blanks
      (text = [] → l.nextLexeme = (.ok ⟨.eof, "", place⟩, { l with cursor := ⟨[], place⟩ })) ∧
      ((∃ word t, word <+: text ∧ Word word t) →
        ∃ word t rest, Longest text word t ∧ (∀ t', Word word t' → t' = t) ∧
          text = word ++ rest ∧ l.nextLexeme =
            (.ok ⟨t, String.ofList word, place⟩, { l with cursor := ⟨rest, place.after word⟩ })) ∧
      ∀ c tail, text = c :: tail → (¬∃ word t, word <+: text ∧ Word word t) →
        l.nextLexeme =
          if c = '"' ∨ c = '\'' then
            (.error (.unterminatedString c place), { l with cursor := ⟨[], place.after text⟩ })
          else (.error (.unexpectedChar c place), { l with cursor := ⟨text, place⟩ }) := by
  refine ⟨l.cursor.rest.takeWhile Unicode.isWhiteSpace,
    l.cursor.rest.dropWhile Unicode.isWhiteSpace, List.takeWhile_append_dropWhile.symm,
    List.all_eq_true.1 List.all_takeWhile, head?_dropWhile _ _, ?_, ?_, ?_⟩
  · intro hnil
    simp [nextLexeme, Cursor.next, Cursor.readWord, Cursor.skipBlanks, hnil, scan]
  · rintro ⟨_, _, hleads, hword⟩
    obtain ⟨t, word, rest, hscan, -⟩ := hword.reaches_of_isPrefix hleads
    obtain ⟨hlongest, htext⟩ := scan_eq_found_iff.1 hscan
    refine ⟨word, t, rest, hlongest, fun t' => hlongest.isWord.unique, htext, ?_⟩
    simp [nextLexeme, Cursor.next, Cursor.readWord, Cursor.skipBlanks, hscan]
  · intro c tail htext hnone
    have hscan := @scan_of_not_found c tail fun t word rest hfound => hnone
      ⟨word, t, htext ▸ ⟨rest, append_of_scan hfound⟩, word_of_scan hfound⟩
    rw [← htext] at hscan
    by_cases hquote : c = '"' ∨ c = '\''
    · rw [if_pos hquote] at hscan ⊢
      simp [nextLexeme, Cursor.next, Cursor.readWord, Cursor.skipBlanks, hscan]
    · rw [if_neg hquote] at hscan ⊢
      simp [nextLexeme, Cursor.next, Cursor.readWord, Cursor.skipBlanks, hscan]

end Binding
