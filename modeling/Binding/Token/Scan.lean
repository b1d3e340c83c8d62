import Binding.Token.Basic
import Binding.Unicode.Numeric
import Binding.Unicode.WhiteSpace

/-!
# The word that a text begins with

`scan` reads one token off the front of a text that does not begin with white space.  It works on
the list of characters alone and knows nothing of positions, so that what counts as a word can be
stated without them.

There are four kinds of words, told apart by their first character: names, numbers, strings, and
symbols.  A point followed by a digit begins a number; any other point is a symbol.

## Main results

`append_of_scan` says that a word and what is left after it make up the text, and
`ne_nil_of_scan` that a word is never empty.  Together they let a source be read to its end by
recursion on what is left.
-/

namespace Binding

/-- What a text begins with. -/
inductive Scan where
  /-- Nothing: the text is empty. -/
  | done
  /-- A token, spelled by `word`, before `rest`. -/
  | found (token : Token) (word rest : List Char)
  /-- A string whose closing quote is missing. -/
  | unterminated (quote : Char)
  /-- A character that begins no token. -/
  | unexpected (c : Char)

namespace Scan

/-! ### Names -/

/-- Whether a name may begin with the character. -/
def isNameStart (c : Char) : Bool :=
  Unicode.isAlphabetic c || c = '_' || c = '$'

/-- Whether a name may go on with the character. -/
def isNamePart (c : Char) : Bool :=
  Unicode.isAlphanumeric c || c = '_' || c = '$'

/-- The token that a name spells.  Three names are literals. -/
def nameToken (name : String) : Token :=
  if name = "true" then .boolean true
  else if name = "false" then .boolean false
  else if name = "null" then .null
  else .identifier name

theorem isNamePart_of_isNameStart {c : Char} (h : isNameStart c = true) :
    isNamePart c = true := by
  simp only [isNameStart, Bool.or_eq_true] at h
  simp only [isNamePart, Bool.or_eq_true]
  exact h.imp_left (·.imp_left Unicode.isAlphanumeric_of_isAlphabetic)

theorem nameToken_ne_eof (name : String) : nameToken name ≠ .eof := by
  unfold nameToken
  split
  · simp
  · split
    · simp
    · split <;> simp

/-! ### Numbers -/

/-- Whether the text begins with a number: a digit, or a point before a digit. -/
def beginsNumber : List Char → Bool
  | '.' :: c :: _ => c.isDigit
  | c :: _ => c.isDigit
  | [] => false

/-- Splits the text behind its leading number: digits, and a point with the digits behind it if
there are any. -/
def splitNumber (text : List Char) : List Char × List Char :=
  let whole := text.takeWhile Char.isDigit
  match text.dropWhile Char.isDigit with
  | '.' :: c :: rest =>
    if c.isDigit then
      (whole ++ '.' :: (c :: rest).takeWhile Char.isDigit, (c :: rest).dropWhile Char.isDigit)
    else (whole, '.' :: c :: rest)
  | rest => (whole, rest)

theorem append_splitNumber (text : List Char) :
    (splitNumber text).1 ++ (splitNumber text).2 = text := by
  have hall := List.takeWhile_append_dropWhile (p := Char.isDigit) (l := text)
  unfold splitNumber
  split
  · next c rest h =>
    split
    · simp only [List.append_assoc, List.cons_append, List.takeWhile_append_dropWhile]
      rw [← h, hall]
    · rw [← h, hall]
  · exact hall

theorem splitNumber_ne_nil {text : List Char} (h : beginsNumber text = true) :
    (splitNumber text).1 ≠ [] := by
  unfold beginsNumber at h
  split at h
  · next c rest =>
    have hdot : Char.isDigit '.' = false := by decide
    simp [splitNumber, hdot, h]
  · next c rest _ =>
    unfold splitNumber
    split
    · split <;> simp [h]
    · simp [h]
  · simp at h

/-! ### Strings -/

/-- A string read behind its opening quote. -/
structure Body where
  /-- The text that the string stands for. -/
  value : List Char
  /-- The characters read, with the closing quote. -/
  word : List Char
  /-- What follows the closing quote. -/
  rest : List Char

/-- The character that stands after a backslash, decoded.  Quotes, the backslash and every
character without a meaning of its own stand for themselves. -/
def unescape : Char → Char
  | 'n' => '\n'
  | 't' => '\t'
  | 'r' => '\r'
  | 'b' => '\x08'
  | 'f' => '\x0c'
  | 'v' => '\x0b'
  | '0' => '\x00'
  | c => c

/-- A character put before a string body: its value and how it is written. -/
def Body.cons (c : Char) (written : List Char) (body : Body) : Body :=
  { body with value := c :: body.value, word := written ++ body.word }

/-- Reads a string behind its opening quote, up to the next `quote` that no backslash precedes. -/
def readBody (quote : Char) : List Char → Option Body
  | [] => none
  | c :: rest =>
    if c = quote then some ⟨[], [c], rest⟩
    else if c = '\\' then
      match rest with
      | [] => none
      | e :: rest => (readBody quote rest).map (Body.cons (unescape e) [c, e])
    else (readBody quote rest).map (Body.cons c [c])

theorem append_of_readBody {quote : Char} {text : List Char} {body : Body}
    (h : readBody quote text = some body) : body.word ++ body.rest = text := by
  fun_induction readBody quote text generalizing body with
  | case1 => simp at h
  | case2 => simp [← Option.some.inj h]
  | case3 => simp at h
  | case4 e rest _ ih =>
    obtain ⟨inner, hinner, rfl⟩ := Option.map_eq_some_iff.1 h
    simp [Body.cons, ih hinner]
  | case5 c rest _ _ ih =>
    obtain ⟨inner, hinner, rfl⟩ := Option.map_eq_some_iff.1 h
    simp [Body.cons, ih hinner]

end Scan

/-! ### One word -/

open Scan in
/-- Reads the word that the text begins with. -/
def scan (text : List Char) : Scan :=
  match text with
  | [] => .done
  | c :: rest =>
    if beginsNumber text then
      let (word, rest) := splitNumber text
      .found (.number (Number.ofChars word)) word rest
    else if c = '"' ∨ c = '\'' then
      match readBody c rest with
      | some body => .found (.string (String.ofList body.value)) (c :: body.word) body.rest
      | none => .unterminated c
    else if isNameStart c then
      let word := text.takeWhile isNamePart
      .found (nameToken (String.ofList word)) word (text.dropWhile isNamePart)
    else
      match Symbol.leading? text with
      | some s => .found (.symbol s) s.chars (text.drop s.chars.length)
      | none => .unexpected c

namespace Scan

/-- **Nothing is lost.**  A word and what is left after it make up the text. -/
theorem append_of_scan {text word rest : List Char} {token : Token}
    (h : scan text = .found token word rest) : word ++ rest = text := by
  unfold scan at h
  split at h
  · simp at h
  · next c tail =>
    split at h
    · simp only [Scan.found.injEq] at h
      obtain ⟨-, rfl, rfl⟩ := h
      exact append_splitNumber _
    · split at h
      · split at h
        · next body hbody =>
          simp only [Scan.found.injEq] at h
          obtain ⟨-, rfl, rfl⟩ := h
          simp [append_of_readBody hbody]
        · simp at h
      · split at h
        · simp only [Scan.found.injEq] at h
          obtain ⟨-, rfl, rfl⟩ := h
          exact List.takeWhile_append_dropWhile
        · split at h
          · next s hs =>
            simp only [Scan.found.injEq] at h
            obtain ⟨-, rfl, rfl⟩ := h
            obtain ⟨after, hafter⟩ := Symbol.isPrefix_of_leading? hs
            simp [← hafter]
          · simp at h

/-- **Progress.**  A word has at least one character. -/
theorem ne_nil_of_scan {text word rest : List Char} {token : Token}
    (h : scan text = .found token word rest) : word ≠ [] := by
  unfold scan at h
  split at h
  · simp at h
  · next c tail =>
    split at h
    · next hnumber =>
      simp only [Scan.found.injEq] at h
      exact h.2.1 ▸ splitNumber_ne_nil hnumber
    · split at h
      · split at h
        · simp only [Scan.found.injEq] at h
          simp [← h.2.1]
        · simp at h
      · split at h
        · next hname =>
          simp only [Scan.found.injEq] at h
          simp [← h.2.1, isNamePart_of_isNameStart hname]
        · split at h
          · next s _ =>
            simp only [Scan.found.injEq] at h
            rw [← h.2.1]
            cases s <;> decide
          · simp at h

/-- The end of input is no word of a source. -/
theorem token_ne_eof_of_scan {text word rest : List Char} {token : Token}
    (h : scan text = .found token word rest) : token ≠ .eof := by
  unfold scan at h
  split at h
  · simp at h
  · split at h
    · simp only [Scan.found.injEq] at h
      simp [← h.1]
    · split at h
      · split at h
        · simp only [Scan.found.injEq] at h
          simp [← h.1]
        · simp at h
      · split at h
        · simp only [Scan.found.injEq] at h
          exact h.1 ▸ nameToken_ne_eof _
        · split at h
          · simp only [Scan.found.injEq] at h
            simp [← h.1]
          · simp at h

/-- What is left after a word is shorter than the text. -/
theorem length_rest_lt_of_scan {text word rest : List Char} {token : Token}
    (h : scan text = .found token word rest) : rest.length < text.length := by
  have hpos := List.length_pos_iff.2 (ne_nil_of_scan h)
  rw [← append_of_scan h, List.length_append]
  omega

end Scan

end Binding
