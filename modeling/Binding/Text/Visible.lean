import Binding.Unicode.Printable

/-!
# Making every character visible

Messages show a string so that a reader can tell what is in it: in double quotes, with characters
that print as nothing, or that would fuse with their neighbour, written by their code point.
-/

namespace Binding.Text

/-- The code point in lower-case hexadecimal between braces, after `\u`. -/
def codePoint (c : Char) : List Char :=
  ['\\', 'u', '\x7b'] ++ Nat.toDigits 16 c.toNat ++ ['\x7d']

/-- A character as messages show it. -/
def visibleChar (c : Char) : List Char :=
  match c with
  | '\x00' => ['\\', '0']
  | '\t' => ['\\', 't']
  | '\n' => ['\\', 'n']
  | '\r' => ['\\', 'r']
  | '"' => ['\\', '"']
  | '\\' => ['\\', '\\']
  | c => if Unicode.isVisible c then [c] else codePoint c

/-- The string as messages show it, in double quotes. -/
def visible (text : String) : String :=
  String.ofList (['"'] ++ text.toList.flatMap visibleChar ++ ['"'])

end Binding.Text
