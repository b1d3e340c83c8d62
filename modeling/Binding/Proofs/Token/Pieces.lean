import Binding.Proofs.Token.Written

/-!
# A text in pieces

`pieces` cuts a text into its words, each with the token that it is read as, and the white space
between them.  The tokens alone forget how a word is written and what stands directly behind it;
the pieces keep both, and still give the tokens of a source that can be read to its end
(`tokens_eq_ok_iff_pieces`).

A list of pieces is *laid out* well if cutting its text gives the pieces back, whatever follows, as
long as it stops a word.  As with texts that are written for tokens, single pieces are laid out
well, and longer lists are put together from them at seams where nothing runs together.

## Main results

* `tokens_eq_ok_iff_pieces`: a source and its tokens, piece by piece.
* `laid_word`, `Laid.append`, `Laid.punctuated`, `Laid.operator`, `Laid.member`, `Laid.unary`:
  lists of pieces that are laid out well.
* `laid_path`: the pieces of a name with members of it are laid out well.
-/

namespace Binding

open Scan

/-- A white space character, or a word with the token that it is read as. -/
inductive Piece where
  | blank (c : Char)
  | word (token : Token) (text : List Char)
deriving DecidableEq

namespace Piece

/-- The characters of the piece. -/
def chars : Piece → List Char
  | .blank c => [c]
  | .word _ text => text

/-- The token of the piece, if it is a word. -/
def token? : Piece → Option Token
  | .blank _ => none
  | .word token _ => some token

/-- A symbol. -/
def symbol (s : Symbol) : Piece :=
  .word (.symbol s) s.chars

/-- A name. -/
def name (name : String) : Piece :=
  .word (.identifier name) name.toList

/-- A space. -/
def space : Piece :=
  .blank ' '

end Piece

/-- The text of the pieces. -/
def textOf (ps : List Piece) : List Char :=
  ps.flatMap Piece.chars

/-- The tokens of the pieces. -/
def tokensOf (ps : List Piece) : List Token :=
  ps.filterMap Piece.token?

@[simp] theorem textOf_nil : textOf [] = [] := rfl

@[simp] theorem textOf_cons (p : Piece) (ps : List Piece) :
    textOf (p :: ps) = p.chars ++ textOf ps :=
  List.flatMap_cons

@[simp] theorem textOf_append (ps qs : List Piece) : textOf (ps ++ qs) = textOf ps ++ textOf qs :=
  List.flatMap_append

@[simp] theorem tokensOf_append (ps qs : List Piece) :
    tokensOf (ps ++ qs) = tokensOf ps ++ tokensOf qs :=
  List.filterMap_append

@[simp] theorem tokensOf_word (t : Token) (text : List Char) (ps : List Piece) :
    tokensOf (.word t text :: ps) = t :: tokensOf ps := rfl

@[simp] theorem tokensOf_blank (c : Char) (ps : List Piece) :
    tokensOf (.blank c :: ps) = tokensOf ps := rfl

/-- The text cut into words and white space, up to the first word that cannot be read. -/
def pieces : List Char → List Piece
  | [] => []
  | c :: rest =>
    if Unicode.isWhiteSpace c then .blank c :: pieces rest
    else
      match _h : scan (c :: rest) with
      | .found token word after => .word token word :: pieces after
      | _ => []
termination_by text => text.length
decreasing_by
  · simp
  · exact length_rest_lt_of_scan _h

theorem pieces_nil : pieces [] = [] := by
  rw [pieces]

theorem pieces_blank {c : Char} (h : Unicode.isWhiteSpace c = true) (rest : List Char) :
    pieces (c :: rest) = .blank c :: pieces rest := by
  rw [pieces, if_pos h]

theorem pieces_word {text word rest : List Char} {t : Token} (h : scan text = .found t word rest) :
    pieces text = .word t word :: pieces rest := by
  cases text with
  | nil => nomatch h
  | cons c text =>
    rw [pieces, if_neg (by simp [isWhiteSpace_of_scan h])]
    split <;> simp_all

/-- White space comes off the front, character by character. -/
theorem pieces_append_blanks {blanks : List Char} (h : ∀ c ∈ blanks, Unicode.isWhiteSpace c = true)
    (rest : List Char) : pieces (blanks ++ rest) = blanks.map .blank ++ pieces rest := by
  induction blanks with
  | nil => rfl
  | cons c blanks ih =>
    rw [List.cons_append, pieces_blank (h c (by simp)), ih fun d hd => h d (by simp [hd])]
    rfl

theorem pieces_eq_blanks_append (text : List Char) :
    pieces text = (text.takeWhile Unicode.isWhiteSpace).map .blank ++
      pieces (text.dropWhile Unicode.isWhiteSpace) := by
  have hblanks : ∀ c ∈ text.takeWhile Unicode.isWhiteSpace, Unicode.isWhiteSpace c = true :=
    List.all_eq_true.1 List.all_takeWhile
  rw [← pieces_append_blanks hblanks, List.takeWhile_append_dropWhile]

/-- Every word of a text is one that can be read. -/
theorem scan_of_mem_pieces {text word : List Char} {t : Token} (h : .word t word ∈ pieces text) :
    ∃ text' rest, scan text' = .found t word rest := by
  fun_induction pieces text with
  | case1 => nomatch h
  | case2 c rest hc ih => exact ih (by simpa using h)
  | case3 c rest _ t' word' after hscan ih =>
    rcases List.mem_cons.1 h with heq | h
    · obtain ⟨rfl, rfl⟩ := Piece.word.inj heq
      exact ⟨_, _, hscan⟩
    · exact ih h
  | case4 => nomatch h

theorem isWhiteSpace_of_mem_pieces {text : List Char} {c : Char} (h : .blank c ∈ pieces text) :
    Unicode.isWhiteSpace c = true := by
  fun_induction pieces text with
  | case1 => nomatch h
  | case2 c' rest hc ih =>
    rcases List.mem_cons.1 h with heq | h
    · exact (Piece.blank.inj heq) ▸ hc
    · exact ih h
  | case3 c rest _ t word after hscan ih => exact ih (by simpa using h)
  | case4 => nomatch h

/-- The pieces of a text that falls into pieces spell its tokens. -/
theorem spells_of_pieces {text : List Char} (h : textOf (pieces text) = text) :
    Spells text (tokensOf (pieces text)) [] := by
  fun_induction pieces text with
  | case1 => exact .refl []
  | case2 c rest hc ih =>
    have hrest : textOf (pieces rest) = rest := by simpa [Piece.chars] using h
    have hdrop : rest.dropWhile Unicode.isWhiteSpace =
        (c :: rest).dropWhile Unicode.isWhiteSpace := by
      rw [List.dropWhile_cons_of_pos hc]
    exact (ih hrest).congr hdrop
  | case3 c rest _ t word after hscan ih =>
    have hafter : textOf (pieces after) = after := by
      rw [textOf_cons, Piece.chars, ← append_of_scan hscan] at h
      exact List.append_cancel_left h
    exact .word hscan (ih hafter)
  | case4 c rest => simp at h

/-- A text that spells tokens falls into pieces with these tokens. -/
theorem textOf_pieces_of_spells {text : List Char} {ts : List Token} (h : Spells text ts []) :
    textOf (pieces text) = text ∧ tokensOf (pieces text) = ts := by
  fun_induction pieces text generalizing ts with
  | case1 =>
    obtain rfl := (Spells.nil_right_of_done rfl).1 h
    exact ⟨rfl, rfl⟩
  | case2 c rest hc ih =>
    have hdrop : (c :: rest).dropWhile Unicode.isWhiteSpace =
        rest.dropWhile Unicode.isWhiteSpace := by
      rw [List.dropWhile_cons_of_pos hc]
    obtain ⟨htext, htokens⟩ := ih (h.congr hdrop)
    exact ⟨by rw [textOf_cons, htext]; rfl, htokens⟩
  | case3 c rest _ t word after hscan ih =>
    have hdrop := dropWhile_of_scan hscan
    obtain ⟨us, rfl, hafter⟩ := (Spells.nil_right_of_found (hdrop.symm ▸ hscan)).1 h
    obtain ⟨htext, htokens⟩ := ih hafter
    refine ⟨?_, by rw [tokensOf_word, htokens]⟩
    rw [textOf_cons, htext]
    exact append_of_scan hscan
  | case4 c rest hc hscan =>
    have hdrop : (c :: rest).dropWhile Unicode.isWhiteSpace = c :: rest :=
      List.dropWhile_cons_of_neg hc
    refine absurd h (Spells.not_nil_right ?_ ?_) <;> rw [hdrop]
    · intro hdone
      nomatch eq_nil_of_scan hdone
    · exact hscan

/-- **The tokens of a source** are those of its pieces, if these are all of it. -/
theorem tokens_eq_ok_iff_pieces {source : String} {ts : List Token} :
    tokens source = .ok ts ↔
      textOf (pieces source.toList) = source.toList ∧ tokensOf (pieces source.toList) = ts := by
  rw [tokens_eq_ok_iff]
  constructor
  · exact textOf_pieces_of_spells
  · rintro ⟨htext, rfl⟩
    exact spells_of_pieces htext

/-! ### Pieces that are laid out well -/

/-- Cutting the text of the pieces gives the pieces back wherever what follows stops a word. -/
def Laid (ps : List Piece) : Prop :=
  ∀ rest, Stops rest → pieces (textOf ps ++ rest) = ps ++ pieces rest

theorem Laid.pieces_textOf {ps : List Piece} (h : Laid ps) : pieces (textOf ps) = ps := by
  have hps := h [] stops_nil
  rwa [List.append_nil, pieces_nil, List.append_nil] at hps

theorem laid_nil : Laid [] :=
  fun _ _ => rfl

theorem laid_word {t : Token} {text : List Char}
    (h : ∀ rest, Stops rest → scan (text ++ rest) = .found t text rest) :
    Laid [.word t text] := by
  intro rest hrest
  rw [textOf_cons, textOf_nil, List.append_nil, Piece.chars, pieces_word (h rest hrest)]
  rfl

theorem laid_name {name : String} (h : IsWord name) : Laid [.name name] := by
  refine laid_word fun rest hrest => ?_
  have hscan := scan_name h.1 hrest.name
  rwa [String.ofList_toList, nameToken_eq_identifier_iff.2 h.2] at hscan

theorem laid_string (value : String) :
    Laid [.word (.string value) (Text.doubleQuoted value).toList] := by
  refine laid_word fun rest _ => ?_
  rw [Text.toList_doubleQuoted, scan_quoted (.inl rfl), String.ofList_toList]

theorem laid_number {value : Number} (h : (Token.number value).Readable) :
    Laid [.word (.number value) value.text.toList] := by
  obtain ⟨text, word, rest, hscan⟩ := h
  obtain rfl := number_of_scan hscan
  rw [Number.text_ofChars, String.toList_ofList]
  exact laid_word fun rest hrest => scan_number text hrest

/-- A word that is written like a name. -/
theorem laid_nameToken {name : String} (h : IsName name.toList) :
    Laid [.word (nameToken name) name.toList] :=
  laid_word fun rest hrest => by simpa using scan_name h hrest.name

theorem laid_boolean (value : Bool) :
    Laid [.word (.boolean value) (Token.booleanText value).toList] := by
  cases value with
  | true => exact @laid_nameToken "true" (isName_of_mem_constants (by simp))
  | false => exact @laid_nameToken "false" (isName_of_mem_constants (by simp))

theorem laid_null : Laid [.word .null "null".toList] :=
  @laid_nameToken "null" (isName_of_mem_constants (by simp))

namespace Laid

variable {ps qs : List Piece}

/-- Two lists of pieces, the second of which stops the last word of the first. -/
theorem append (h : Laid ps) (h' : Laid qs)
    (hstops : ∀ rest, Stops rest → Stops (textOf qs ++ rest)) : Laid (ps ++ qs) := by
  intro rest hrest
  rw [textOf_append, List.append_assoc, h _ (hstops rest hrest), h' rest hrest, List.append_assoc]

theorem space (h : Laid ps) : Laid (.space :: ps) := by
  intro rest hrest
  have hspace : Unicode.isWhiteSpace ' ' = true := by decide
  rw [textOf_cons, List.append_assoc]
  exact (pieces_blank hspace _).trans (congrArg _ (h rest hrest))

/-- A symbol that no character can prolong, before something. -/
theorem symbol {s : Symbol} (hs : s ∉ [Symbol.bar, .bang, .less, .greater, .dot]) (h : Laid ps) :
    Laid (.symbol s :: ps) := by
  intro rest hrest
  rw [textOf_cons, List.append_assoc]
  exact (pieces_word (scan_symbol hs _)).trans (congrArg _ (h rest hrest))

/-- A punctuation mark between two lists of pieces, either of which may be empty. -/
theorem punctuated (s : Symbol) (hs : s ∈ Symbol.punctuation) (h : Laid ps) (h' : Laid qs) :
    Laid (ps ++ .symbol s :: qs) := by
  have hsolo : ∀ s ∈ Symbol.punctuation, s ∉ [Symbol.bar, .bang, .less, .greater, .dot] := by
    decide
  refine h.append (h'.symbol (hsolo s hs)) fun rest _ => ?_
  rw [textOf_cons, List.append_assoc]
  exact Symbol.stops_of_mem_punctuation hs _

/-- Pieces between two brackets, behind others. -/
theorem grouped (opening closing : Symbol) (ho : opening ∈ Symbol.punctuation)
    (hc : closing ∈ Symbol.punctuation) (h : Laid ps) (h' : Laid qs) :
    Laid (ps ++ .symbol opening :: (qs ++ [.symbol closing])) :=
  h.punctuated opening ho (h'.punctuated closing hc laid_nil)

/-- A symbol with spaces around it between two lists of pieces. -/
theorem operator (s : Symbol) (h : Laid ps) (h' : Laid qs) :
    Laid (ps ++ .space :: .symbol s :: .space :: qs) := by
  have hoperand : Laid (.symbol s :: .space :: qs) := by
    intro rest hrest
    rw [textOf_cons, List.append_assoc]
    exact (pieces_word (scan_symbol_blank s _)).trans (congrArg _ (h'.space rest hrest))
  refine h.append hoperand.space fun rest _ => ?_
  rw [textOf_cons, List.append_assoc]
  exact stops_cons (by decide) _

/-- A member of what is laid out. -/
theorem member {name : String} (h : Laid ps) (hname : IsWord name) :
    Laid (ps ++ [.symbol .dot, .name name]) := by
  -- The point cannot begin a number, and so stops the word before it.
  have hnumber (rest : List Char) : beginsNumber ('.' :: (name.toList ++ rest)) = false := by
    obtain ⟨c, tail, heq, hc, -⟩ := isName_iff.1 hname.1
    rw [heq]
    exact isDigit_eq_false_of_isNameStart hc
  have hmember : Laid [.symbol .dot, .name name] := by
    intro rest hrest
    have hscan := scan_dot (hnumber rest)
    have hpieces := laid_name hname rest hrest
    rw [textOf_cons, textOf_nil, List.append_nil] at hpieces
    rw [textOf_cons, textOf_cons, textOf_nil, List.append_nil, List.append_assoc]
    exact (pieces_word hscan).trans (congrArg _ hpieces)
  refine h.append hmember fun rest _ => ?_
  have hdot : isNamePart '.' = false := by decide
  rw [textOf_cons, textOf_cons, textOf_nil, List.append_nil, List.append_assoc]
  exact ⟨by simpa [Piece.symbol, Piece.chars, Symbol.chars] using hdot, hnumber rest⟩

/-- An operator before an operand, which does not begin with an equals sign. -/
theorem unary (op : UnaryOp) {c : Char} {text : List Char} (h : Laid ps)
    (htext : textOf ps = c :: text) (hc : c ≠ '=') : Laid (.symbol op.symbol :: ps) := by
  cases op with
  | negate => exact h.symbol (by decide)
  | plus => exact h.symbol (by decide)
  | not =>
    intro rest hrest
    have hhead : (textOf ps ++ rest).head? ≠ some '=' := by simpa [htext] using hc
    rw [textOf_cons, List.append_assoc]
    exact (pieces_word (scan_bang hhead)).trans (congrArg _ (h rest hrest))

end Laid

/-! ### Paths -/

/-- A word that is read in the same way before the rest comes off the front of both texts. -/
theorem pieces_append_of_scan {text word middle rest : List Char} {t : Token}
    (h : scan (text.dropWhile Unicode.isWhiteSpace) = .found t word middle)
    (hrest : scan (text.dropWhile Unicode.isWhiteSpace ++ rest) = .found t word (middle ++ rest))
    (hmiddle : pieces (middle ++ rest) = pieces middle ++ pieces rest) :
    pieces (text ++ rest) = pieces text ++ pieces rest := by
  have hblanks := List.all_eq_true.1 (@List.all_takeWhile _ Unicode.isWhiteSpace text)
  calc pieces (text ++ rest)
      = pieces (text.takeWhile Unicode.isWhiteSpace ++
          (text.dropWhile Unicode.isWhiteSpace ++ rest)) := by
        rw [← List.append_assoc, List.takeWhile_append_dropWhile]
    _ = (text.takeWhile Unicode.isWhiteSpace).map .blank ++
          .word t word :: pieces (middle ++ rest) := by
        rw [pieces_append_blanks hblanks, pieces_word hrest]
    _ = pieces text ++ pieces rest := by
        rw [pieces_eq_blanks_append text, pieces_word h, hmiddle, List.append_assoc,
          List.cons_append]

/-- The pieces of a text of names with points between them are laid out well. -/
theorem laid_path {head : String} {members : List String} {text : List Char}
    (h : Spells text (pathTokens head members) []) : Laid (pieces text) := by
  intro rest hrest
  rw [(textOf_pieces_of_spells h).1]
  induction members generalizing head text with
  | nil =>
    cases h with
    | @cons _ _ middle _ _ _ hscan hmiddle =>
      have hend : middle.dropWhile Unicode.isWhiteSpace = [] := by
        cases hmiddle with
        | nil hend => exact hend
      have hblanks : ∀ c ∈ middle, Unicode.isWhiteSpace c = true :=
        List.dropWhile_eq_nil_iff.1 hend
      refine pieces_append_of_scan hscan (scan_append_of_name hscan hrest.name) ?_
      have hpieces := pieces_append_blanks hblanks []
      rw [List.append_nil, pieces_nil, List.append_nil] at hpieces
      rw [pieces_append_blanks hblanks, hpieces]
  | cons name members ih =>
    cases h with
    | cons hscan hmiddle =>
      cases hmiddle with
      | @cons _ _ tail _ _ _ hscan' htail =>
        have hne : tail ≠ [] := by
          rintro rfl
          cases htail with
          | cons hnil _ => nomatch hnil
        have hdot := pieces_append_of_scan hscan' (scan_append_of_dot hscan' hne rest) (ih htail)
        exact pieces_append_of_scan hscan (scan_append_of_name hscan hrest.name) hdot

end Binding
