import Binding.Proofs.Token.Spelling

/-!
# Texts that are written for tokens

A text is *written for* a list of tokens if these tokens are read off it wherever it stands before
something that stops a word.  The texts of single tokens are, and longer ones are put together from
them: what has to be checked at each seam is that the second text stops the last word of the first.

## Main results

* `written_identifier`, `written_number`, `written_string`: the texts of tokens with a value.
* `Written.punctuated`, `Written.grouped`, `Written.member`, `Written.operator`, `Written.unary`:
  longer texts.
* `written_path`: a source of names with points between them is written for its tokens.
* `exists_tokens_eq`: every list of tokens that can be read is the list of tokens of a source.
-/

namespace Binding

open Scan

/-- Some text is read as the token. -/
def Token.Readable (t : Token) : Prop :=
  ∃ text word rest, scan text = .found t word rest

namespace Spells

theorem readable {text rest : List Char} {ts : List Token} (h : Spells text ts rest) :
    ∀ t ∈ ts, t.Readable := by
  induction h with
  | nil _ => nofun
  | cons hscan _ ih =>
    intro t ht
    rcases List.mem_cons.1 ht with rfl | ht
    · exact ⟨_, _, _, hscan⟩
    · exact ih t ht

/-- A word before the text. -/
theorem word {text word middle rest : List Char} {t : Token} {ts : List Token}
    (h : scan text = .found t word middle) (hrest : Spells middle ts rest) :
    Spells text (t :: ts) rest :=
  .cons (by rwa [dropWhile_of_scan h]) hrest

/-- A blank before the text. -/
theorem blank {text rest : List Char} {ts : List Token} (h : Spells text ts rest) :
    Spells (' ' :: text) ts rest := by
  have hdrop : text.dropWhile Unicode.isWhiteSpace =
      (' ' :: text).dropWhile Unicode.isWhiteSpace := rfl
  exact h.congr hdrop

/-- A text that begins with an equals sign is no operand. -/
theorem head_ne_equal {text rest : List Char} {t : Token} {ts : List Token}
    (h : Spells text (t :: ts) rest) (ht : t ≠ .symbol .equalEqual) : text.head? ≠ some '=' := by
  cases text with
  | nil => simp
  | cons c text =>
    rintro hc
    obtain rfl : c = '=' := by simpa using hc
    cases h with
    | cons hscan _ => exact ht (token_of_scan_equal hscan)

end Spells

/-- The tokens are read off the text wherever what follows stops a word. -/
def Written (text : List Char) (ts : List Token) : Prop :=
  ∀ rest, Stops rest → Spells (text ++ rest) ts rest

/-! ### Single tokens -/

theorem written_nil : Written [] [] :=
  fun rest _ => .refl rest

theorem written_of_scan {text : List Char} {t : Token}
    (h : ∀ rest, Stops rest → scan (text ++ rest) = .found t text rest) : Written text [t] :=
  fun rest hrest => .word (h rest hrest) (.refl rest)

theorem written_name {name : String} (h : IsName name.toList) :
    Written name.toList [nameToken name] :=
  written_of_scan fun rest hrest => by simpa using scan_name h hrest.name

theorem isName_of_readable {name : String} (h : (Token.identifier name).Readable) :
    IsName name.toList := by
  obtain ⟨text, word, rest, hscan⟩ := h
  obtain ⟨hname, rfl, -⟩ := isName_of_scan hscan
  simpa using hname

theorem written_identifier {name : String} (h : (Token.identifier name).Readable) :
    Written name.toList [.identifier name] := by
  have hname := written_name (isName_of_readable h)
  obtain ⟨text, word, rest, hscan⟩ := h
  rwa [(isName_of_scan hscan).2.2.1] at hname

theorem written_number {value : Number} (h : (Token.number value).Readable) :
    Written value.text.toList [.number value] := by
  obtain ⟨text, word, rest, hscan⟩ := h
  obtain rfl := number_of_scan hscan
  rw [Number.text_ofChars, String.toList_ofList]
  exact written_of_scan fun rest hrest => scan_number text hrest

theorem written_string (value : String) :
    Written (Text.doubleQuoted value).toList [.string value] := by
  rw [Text.toList_doubleQuoted]
  exact written_of_scan fun rest _ => by simpa using scan_quoted (.inl rfl) value.toList rest

theorem written_boolean (value : Bool) :
    Written (Token.booleanText value).toList [.boolean value] := by
  cases value with
  | true => exact @written_name "true" (isName_of_mem_constants (by simp))
  | false => exact @written_name "false" (isName_of_mem_constants (by simp))

theorem written_null : Written "null".toList [.null] :=
  @written_name "null" (isName_of_mem_constants (by simp))

/-! ### Putting texts together -/

namespace Symbol

/-- The symbols that nothing can prolong, and that prolong nothing. -/
def punctuation : List Symbol :=
  [.comma, .colon, .parenOpen, .parenClose, .bracketOpen, .bracketClose, .braceOpen, .braceClose]

theorem scan_of_mem_punctuation {s : Symbol} (h : s ∈ punctuation) (rest : List Char) :
    scan (s.chars ++ rest) = .found (.symbol s) s.chars rest := by
  have hsolo : ∀ s ∈ punctuation, s ∉ [Symbol.bar, .bang, .less, .greater, .dot] := by decide
  exact scan_symbol (hsolo s h) rest

theorem stops_of_mem_punctuation {s : Symbol} (h : s ∈ punctuation) (rest : List Char) :
    Stops (s.chars ++ rest) := by
  simp only [punctuation, List.mem_cons, List.not_mem_nil, or_false] at h
  rcases h with rfl | rfl | rfl | rfl | rfl | rfl | rfl | rfl <;>
    exact stops_cons (by decide) rest

end Symbol

namespace Written

variable {text text' : List Char} {ts us : List Token}

theorem blank (h : Written text ts) : Written (' ' :: text) ts :=
  fun rest hrest => (h rest hrest).blank

/-- A punctuation mark between two texts, either of which may be empty. -/
theorem punctuated (s : Symbol) (hs : s ∈ Symbol.punctuation) (h : Written text ts)
    (h' : Written text' us) : Written (text ++ (s.chars ++ text')) (ts ++ .symbol s :: us) := by
  intro rest hrest
  rw [List.append_assoc, List.append_assoc]
  refine (h _ (Symbol.stops_of_mem_punctuation hs _)).trans ?_
  exact .word (Symbol.scan_of_mem_punctuation hs _) (h' rest hrest)

/-- A text between two brackets, behind another text. -/
theorem grouped (opening closing : Symbol) (ho : opening ∈ Symbol.punctuation)
    (hc : closing ∈ Symbol.punctuation) (h : Written text ts) (h' : Written text' us) :
    Written (text ++ (opening.chars ++ (text' ++ closing.chars)))
      (ts ++ .symbol opening :: (us ++ [.symbol closing])) := by
  have hclosed := h'.punctuated closing hc written_nil
  rw [List.append_nil] at hclosed
  exact h.punctuated opening ho hclosed

/-- A member of what is written. -/
theorem member {name : String} (h : Written text ts) (hname : (Token.identifier name).Readable) :
    Written (text ++ '.' :: name.toList) (ts ++ [.symbol .dot, .identifier name]) := by
  intro rest hrest
  -- The point cannot begin a number, and so stops the word before it.
  have hnumber : beginsNumber ('.' :: (name.toList ++ rest)) = false := by
    obtain ⟨c, tail, heq, hc, -⟩ := isName_iff.1 (isName_of_readable hname)
    rw [heq]
    exact isDigit_eq_false_of_isNameStart hc
  have hdot : isNamePart '.' = false := by decide
  have hstops : Stops ('.' :: (name.toList ++ rest)) := ⟨by simpa using hdot, hnumber⟩
  rw [List.append_assoc]
  exact (h _ hstops).trans (.word (scan_dot hnumber) (written_identifier hname rest hrest))

/-- An operator with blanks around it between two texts. -/
theorem operator (s : Symbol) (h : Written text ts) (h' : Written text' us) :
    Written (text ++ ' ' :: (s.chars ++ ' ' :: text')) (ts ++ .symbol s :: us) := by
  intro rest hrest
  rw [List.append_assoc, List.cons_append, List.append_assoc, List.cons_append]
  refine (h _ (stops_cons (by decide) _)).trans (.blank ?_)
  exact .word (scan_symbol_blank s _) (h' rest hrest).blank

/-- An operator before an operand. -/
theorem unary (op : UnaryOp) {t : Token} (h : Written text (t :: ts))
    (ht : t ≠ .symbol .equalEqual) :
    Written (op.symbol.chars ++ text) (.symbol op.symbol :: t :: ts) := by
  intro rest hrest
  have hoperand := h rest hrest
  rw [List.append_assoc]
  cases op with
  | not => exact .word (scan_bang (hoperand.head_ne_equal ht)) hoperand
  | negate => exact .word (scan_symbol (s := .minus) (by decide) _) hoperand
  | plus => exact .word (scan_symbol (s := .plus) (by decide) _) hoperand

end Written

/-! ### Paths -/

/-- The tokens of a name with members of it. -/
def pathTokens (head : String) (members : List String) : List Token :=
  .identifier head :: members.flatMap fun name => [.symbol .dot, .identifier name]

/-- The white space before a word is the same whatever follows the text. -/
theorem Scan.dropWhile_append_of_scan {text word middle : List Char} {t : Token}
    (h : scan (text.dropWhile Unicode.isWhiteSpace) = .found t word middle) (rest : List Char) :
    (text ++ rest).dropWhile Unicode.isWhiteSpace =
      text.dropWhile Unicode.isWhiteSpace ++ rest := by
  have hne : (text.dropWhile Unicode.isWhiteSpace).isEmpty = false := by
    rw [List.isEmpty_eq_false_iff]
    intro hnil
    rw [hnil] at h
    nomatch h
  simp [List.dropWhile_append, hne]

/-- A text of names with points between them is read in the same way before anything that stops a
word. -/
theorem written_path {head : String} {members : List String} {text : List Char}
    (h : Spells text (pathTokens head members) []) : Written text (pathTokens head members) := by
  intro rest hrest
  induction members generalizing head text with
  | nil =>
    cases h with
    | @cons _ _ middle _ _ _ hscan hmiddle =>
      have hend : middle.dropWhile Unicode.isWhiteSpace = [] := by
        cases hmiddle with
        | nil hend => exact hend
      have hname := scan_append_of_name hscan hrest.name
      rw [← dropWhile_append_of_scan hscan] at hname
      exact .cons hname (.nil (by simp [List.dropWhile_append, hend]))
  | cons name members ih =>
    cases h with
    | cons hscan hmiddle =>
      cases hmiddle with
      | @cons _ _ tail _ _ _ hscan' htail =>
        have hne : tail ≠ [] := by
          rintro rfl
          cases htail with
          | cons hnil _ => nomatch hnil
        have hname := scan_append_of_name hscan hrest.name
        have hdot := scan_append_of_dot hscan' hne rest
        rw [← dropWhile_append_of_scan hscan] at hname
        rw [← dropWhile_append_of_scan hscan'] at hdot
        exact .cons hname (.cons hdot (ih htail))

/-! ### Sources for given tokens -/

namespace Token

@[simp] theorem readable_symbol (s : Symbol) : (Token.symbol s).Readable :=
  ⟨_, _, _, scan_symbol_blank s []⟩

/-- A token that is read off some text has a text that it is read off before every blank. -/
theorem Readable.spells {t : Token} (h : t.Readable) :
    ∃ text, ∀ rest, Spells (text ++ ' ' :: rest) [t] (' ' :: rest) := by
  have hwritten {text : List Char} (hw : Written text [t]) :
      ∃ text, ∀ rest, Spells (text ++ ' ' :: rest) [t] (' ' :: rest) :=
    ⟨text, fun rest => hw _ (stops_cons (by decide) rest)⟩
  cases t with
  | number value => exact hwritten (written_number h)
  | string value => exact hwritten (written_string value)
  | boolean value => exact hwritten (written_boolean value)
  | null => exact hwritten written_null
  | identifier name => exact hwritten (written_identifier h)
  | symbol s => exact ⟨s.chars, fun rest => .word (scan_symbol_blank s rest) (.refl _)⟩
  | eof =>
    obtain ⟨text, word, rest, hscan⟩ := h
    exact absurd rfl (token_ne_eof_of_scan hscan)

end Token

/-- **Readable tokens have a source.**  With a blank behind each of them, the texts of the tokens
cannot run together. -/
theorem exists_tokens_eq {ts : List Token} (h : ∀ t ∈ ts, t.Readable) :
    ∃ source, tokens source = .ok ts := by
  suffices hspells : ∃ text, Spells text ts [] by
    obtain ⟨text, htext⟩ := hspells
    exact ⟨String.ofList text, tokens_eq_ok_iff.2 (by rwa [String.toList_ofList])⟩
  induction ts with
  | nil => exact ⟨[], .refl []⟩
  | cons t ts ih =>
    obtain ⟨word, hword⟩ := (h t (by simp)).spells
    obtain ⟨text, htext⟩ := ih fun u hu => h u (by simp [hu])
    exact ⟨word ++ ' ' :: text, (hword text).trans htext.blank⟩

theorem readable_of_tokens {source : String} {ts : List Token} (h : tokens source = .ok ts) :
    ∀ t ∈ ts, t.Readable :=
  (tokens_eq_ok_iff.1 h).readable

/-! ### Which tokens can be read -/

/-- The name can be written: it has the form of a name and is not one of the three literals. -/
def Scan.IsWord (name : String) : Prop :=
  IsName name.toList ∧ name ∉ ["true", "false", "null"]

/-- The text is that of a number without a sign: digits, or digits with a point and more digits
behind it, where those before the point may be missing. -/
def Number.IsDigits (text : List Char) : Prop :=
  text ≠ [] ∧ ∃ whole fraction, text = joined whole fraction ∧
    (∀ c ∈ whole, c.isDigit = true) ∧ ∀ c ∈ fraction, c.isDigit = true

theorem Scan.nameToken_eq_identifier_iff {name : String} :
    nameToken name = .identifier name ↔ name ∉ ["true", "false", "null"] := by
  simp only [nameToken, List.mem_cons, List.not_mem_nil, or_false, not_or]
  constructor
  · intro h
    refine ⟨?_, ?_, ?_⟩ <;> rintro rfl <;> simp at h
  · rintro ⟨htrue, hfalse, hnull⟩
    rw [if_neg htrue, if_neg hfalse, if_neg hnull]

/-- A number text begins a number. -/
theorem Number.IsDigits.beginsNumber {text : List Char} (h : IsDigits text) :
    beginsNumber text = true := by
  obtain ⟨hne, whole, fraction, rfl, hwhole, hfraction⟩ := h
  cases whole with
  | nil =>
    cases fraction with
    | nil => exact absurd rfl hne
    | cons c fraction => exact hfraction c (by simp)
  | cons c whole =>
    have hc : c.isDigit = true := hwhole c (by simp)
    have hdot : c ≠ '.' := by
      rintro rfl
      simp at hc
    cases fraction <;> exact (beginsNumber_cons hdot).trans hc

theorem Scan.isDigits_splitNumber {text : List Char} (h : beginsNumber text = true) :
    Number.IsDigits (splitNumber text).1 := by
  obtain ⟨whole, fraction, hjoined, hwhole, hfraction, -⟩ := exists_splitNumber_eq_joined text
  exact ⟨splitNumber_ne_nil h, whole, fraction, hjoined, hwhole, hfraction⟩

namespace Token

theorem readable_identifier_iff {name : String} :
    (Token.identifier name).Readable ↔ IsWord name := by
  constructor
  · intro h
    have hname := isName_of_readable h
    obtain ⟨text, word, rest, hscan⟩ := h
    exact ⟨hname, nameToken_eq_identifier_iff.1 (isName_of_scan hscan).2.2.1⟩
  · rintro ⟨hname, hword⟩
    have hscan := @scan_name _ [] hname nofun
    rw [String.ofList_toList, nameToken_eq_identifier_iff.2 hword] at hscan
    exact ⟨_, _, _, hscan⟩

theorem readable_number_iff {value : Number} :
    (Token.number value).Readable ↔ ∃ text, Number.IsDigits text ∧ value = .ofChars text := by
  constructor
  · rintro ⟨text, word, rest, hscan⟩
    exact ⟨_, isDigits_splitNumber (beginsNumber_of_scan hscan), number_of_scan hscan⟩
  · rintro ⟨text, htext, rfl⟩
    have hscan := scan_of_beginsNumber htext.beginsNumber
    obtain ⟨-, whole, fraction, rfl, hwhole, hfraction⟩ := htext
    have hsplit := splitNumber_joined hwhole hfraction stops_nil.isDigit fun _ => stops_nil.number
    rw [List.append_nil] at hsplit
    rw [hsplit] at hscan
    exact ⟨_, _, _, hscan⟩

@[simp] theorem readable_string (value : String) : (Token.string value).Readable := by
  have hspells := written_string value [] stops_nil
  exact hspells.readable _ (by simp)

@[simp] theorem readable_boolean (value : Bool) : (Token.boolean value).Readable := by
  have hspells := written_boolean value [] stops_nil
  exact hspells.readable _ (by simp)

end Token

@[simp] theorem Token.readable_null : Token.null.Readable := by
  have htokens : tokens "null" = .ok [.null] := by decide +kernel
  exact readable_of_tokens htokens _ (by simp)

@[simp] theorem Token.readable_a : (Token.identifier "a").Readable := by
  have htokens : tokens "a" = .ok [.identifier "a"] := by decide +kernel
  exact readable_of_tokens htokens _ (by simp)

end Binding
