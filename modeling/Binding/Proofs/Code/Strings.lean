import Binding.Proofs.Command.Agreement
import Binding.Proofs.Grammar.Acceptance
import Binding.Proofs.Token.Written

/-!
# Strings in sources and in code

A source may write a string in either of two quotes and escape any character; code writes it in
double quotes and escapes the double quote and the backslash.  The two meet in `Text.quoted`: for
either quote, the text that escapes that quote and the backslash is one way to write the string in a
source, and for the double quote it is the code.

## Why escaping two characters is enough

The reader has an escape for other characters too, among them letters: behind a backslash, an `n` is
a line feed.  It does not meet them here, since a backslash of the string is written as two, and the
reader takes them together.  So no character of the string is ever read behind a single backslash
but the two that stand for themselves there (`Scan.readBody_escaped`).

## Main results

* `Lexer.nextLexeme_quoted`: the text is read as the string, whatever follows it.
* `Text.doubleQuoted_injective`: no two strings have the same code.
* `Text.doubleQuoted_roundtrip`: reading, compiling and compiling again.
-/

namespace Binding

open Scan Phrase

variable {quote : Char}

/-- A word right at the cursor is read from there. -/
theorem Cursor.next_of_scan {c : Cursor} {t : Token} {word rest : List Char}
    (h : scan c.rest = .found t word rest) :
    c.next = (.ok ⟨t, String.ofList word, c.position⟩, ⟨rest, c.position.after word⟩) := by
  obtain ⟨text, position⟩ := c
  have hskip : skipBlanks ⟨text, position⟩ = ⟨text, position⟩ := by
    cases text with
    | nil => rfl
    | cons ch text => simp [skipBlanks, isWhiteSpace_of_scan h]
  rw [next, hskip, readWord, h]

/-- **A quoted text is read as the text,** and the lexer stands right behind it. -/
theorem Lexer.nextLexeme_quoted (hquote : quote = '"' ∨ quote = '\'') (value : String)
    {l : Lexer} {rest : List Char} (h : l.cursor.rest = Text.quoted quote value.toList ++ rest) :
    l.nextLexeme =
      (.ok ⟨.string value, String.ofList (Text.quoted quote value.toList), l.cursor.position⟩,
        { l with
          cursor := ⟨rest, l.cursor.position.after (Text.quoted quote value.toList)⟩ }) := by
  have hscan : scan l.cursor.rest =
      .found (.string value) (Text.quoted quote value.toList) rest := by
    rw [h, scan_quoted hquote, String.ofList_toList]
  rw [nextLexeme, Cursor.next_of_scan hscan]

/-- A quoted text is a source of one token. -/
theorem tokens_quoted (hquote : quote = '"' ∨ quote = '\'') (value : String) :
    tokens (String.ofList (Text.quoted quote value.toList)) = .ok [.string value] := by
  have hscan := scan_quoted hquote value.toList []
  rw [List.append_nil, String.ofList_toList] at hscan
  rw [tokens_eq_ok_iff, String.toList_ofList]
  exact .word hscan (.refl [])

/-- A quoted text is a source of the string, under every limit. -/
theorem Expr.parseWithin_quoted (hquote : quote = '"' ∨ quote = '\'') (value : String)
    (allowance : Option Allowance) :
    parseWithin allowance (String.ofList (Text.quoted quote value.toList)) =
      .ok (.literal (.string value)) := by
  refine parseWithin_eq_ok_iff.2 ⟨_, tokens_quoted hquote value, .inr ?_, fun _ _ => Nat.zero_le _⟩
  exact .plain (.unary (.access (.operand (.string value))))

theorem compile_quoted (hquote : quote = '"' ∨ quote = '\'') (value : String) (context : Context) :
    compile context (String.ofList (Text.quoted quote value.toList)) =
      .ok (Text.doubleQuoted value) := by
  rw [compile_eq, Expr.parse, Expr.parseWithin_quoted hquote]
  rfl

namespace Text

/-- No two strings have the same code: what has been written can be read. -/
theorem doubleQuoted_injective : Function.Injective doubleQuoted := by
  intro value value' h
  have htokens := tokens_quoted (.inl rfl) value
  have htokens' := tokens_quoted (.inl rfl) value'
  rw [doubleQuoted, doubleQuoted] at h
  rw [h, htokens'] at htokens
  simpa using htokens.symm

/-- **Strings survive.**  In either quote, a string is read back from its literal wherever this
stands, and nothing of what follows is touched.  So both literals compile to the same code, which
tells the string, and compiling the code gives the code. -/
theorem doubleQuoted_roundtrip (value : String) (hquote : quote = '"' ∨ quote = '\'') :
    (∀ (l : Lexer) (rest : List Char), l.cursor.rest = quoted quote value.toList ++ rest →
      l.nextLexeme =
        (.ok ⟨.string value, String.ofList (quoted quote value.toList), l.cursor.position⟩,
          { l with cursor := ⟨rest, l.cursor.position.after (quoted quote value.toList)⟩ })) ∧
    (∀ context, compile context (String.ofList (quoted quote value.toList)) =
      .ok (doubleQuoted value)) ∧
    (∀ value', doubleQuoted value' = doubleQuoted value → value' = value) ∧
    ∀ context, compile context (doubleQuoted value) = .ok (doubleQuoted value) :=
  ⟨fun _ _ h => Lexer.nextLexeme_quoted hquote value h, compile_quoted hquote value,
    fun _ h => doubleQuoted_injective h, compile_quoted (.inl rfl) value⟩

/-- A string with a quote, and with a backslash before a letter that has an escape. -/
theorem doubleQuoted_roundtrip_apostrophe :
    (Lexer.ofSource "'it\\'s \\\\n'+1").nextLexeme =
      (.ok ⟨.string "it's \\n", "'it\\'s \\\\n'", .start⟩,
        { Lexer.ofSource "'it\\'s \\\\n'+1" with cursor := ⟨['+', '1'], ⟨11, 1, 12⟩⟩ }) ∧
    compile .default "'it\\'s \\\\n'" = .ok "\"it's \\\\n\"" := by
  have hquoted : String.ofList (quoted '\'' "it's \\n".toList) = "'it\\'s \\\\n'" := by
    decide +kernel
  have hcode : doubleQuoted "it's \\n" = "\"it's \\\\n\"" := by decide +kernel
  obtain ⟨hread, hcompile, -⟩ := doubleQuoted_roundtrip "it's \\n" (.inr rfl)
  have hlexeme := hread (Lexer.ofSource "'it\\'s \\\\n'+1") ['+', '1'] (by decide +kernel)
  have hcompiled := hcompile .default
  rw [hquoted] at hlexeme hcompiled
  exact ⟨hlexeme, hcode ▸ hcompiled⟩

end Text

end Binding
