/-!
# Operators and punctuation

The twenty-five symbols of the expression language and their spellings.  No letter or digit occurs
in a spelling, and no spelling has more than two characters.

## Main definitions

* `Symbol.spelling` is the text of a symbol.
* `Symbol.leading?` finds the symbol that a text begins with.  Where two symbols fit, as in `<=`,
  it is the longer one, because `Symbol.all` lists the longer spellings first.
-/

namespace Binding

/-- An operator or a punctuation mark. -/
inductive Symbol where
  | barBar
  | ampAmp
  | equalEqual
  | bangEqual
  | lessEqual
  | greaterEqual
  | bar
  | bang
  | less
  | greater
  | plus
  | minus
  | star
  | slash
  | percent
  | question
  | colon
  | dot
  | comma
  | parenOpen
  | parenClose
  | bracketOpen
  | bracketClose
  | braceOpen
  | braceClose
deriving DecidableEq, Repr

namespace Symbol

/-- Every symbol, those of two characters before those of one. -/
def all : List Symbol :=
  [barBar, ampAmp, equalEqual, bangEqual, lessEqual, greaterEqual, bar, bang, less, greater, plus,
   minus, star, slash, percent, question, colon, dot, comma, parenOpen, parenClose, bracketOpen,
   bracketClose, braceOpen, braceClose]

/-- The characters of a symbol. -/
def chars : Symbol → List Char
  | barBar => ['|', '|']
  | ampAmp => ['&', '&']
  | equalEqual => ['=', '=']
  | bangEqual => ['!', '=']
  | lessEqual => ['<', '=']
  | greaterEqual => ['>', '=']
  | bar => ['|']
  | bang => ['!']
  | less => ['<']
  | greater => ['>']
  | plus => ['+']
  | minus => ['-']
  | star => ['*']
  | slash => ['/']
  | percent => ['%']
  | question => ['?']
  | colon => [':']
  | dot => ['.']
  | comma => [',']
  | parenOpen => ['(']
  | parenClose => [')']
  | bracketOpen => ['[']
  | bracketClose => [']']
  | braceOpen => ['\x7b']
  | braceClose => ['\x7d']

/-- The spelling of a symbol. -/
def spelling (s : Symbol) : String :=
  String.ofList s.chars

/-- The longest symbol that the text begins with. -/
def leading? (text : List Char) : Option Symbol :=
  all.find? fun s => s.chars.isPrefixOf text

theorem mem_all (s : Symbol) : s ∈ all := by
  cases s <;> decide

@[simp] theorem toList_spelling (s : Symbol) : s.spelling.toList = s.chars :=
  String.toList_ofList

theorem chars_injective {s t : Symbol} (h : s.chars = t.chars) : s = t := by
  revert h
  cases s <;> cases t <;> decide

theorem isPrefix_of_leading? {text : List Char} {s : Symbol} (h : leading? text = some s) :
    s.chars <+: text := by
  have hs := List.find?_some h
  exact List.isPrefixOf_iff_prefix.1 hs

end Symbol

end Binding
