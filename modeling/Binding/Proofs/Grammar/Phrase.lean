import Binding.Expr.Basic
import Binding.Token.Basic

/-!
# The grammar, declared

Which lists of tokens are expressions, and of which trees.  The rules say nothing of how a parser
finds a tree: operators and accesses are left-recursive, and no rule looks at the token that comes
next.

```
expression   binary | binary `?` expression `:` expression
binary p     unary | (binary q) operator (binary (q + 1))     operator of band q, p ≤ q
unary        (`!` | `-` | `+`) unary | access
access       operand | access `.` name | access `.` name `(` arguments `)`
             | access `(` arguments `)` | access `[` expression `]`
arguments    nothing | expression {`,` expression}
operand      literal | name | `(` expression `)` | `[` items `]` | `{` entries `}`
```

Which operators bind tighter than others is part of the grammar: `BinaryOp.bands` has a row for each
of the seven bands.  The numbers by which a parser compares operators must be the places of the rows
(`BinaryOp.precedence_eq_band`).

## Where the rules would leave a choice

* `a.f(x)` could be the method `f` called, or the member `f` taken and the result called.  It is the
  first: what is called without a method (`Access.call`) is not a getter.
* In a list, every segment that ends in a comma is an item, and a hole if it is empty; what stands
  behind the last comma is an item only if it is not empty.  So `[a,]` has one item and `[a,,]` two.
* In a map, empty segments count for nothing.  A key without a colon is an entry without a value.
-/

namespace Binding

namespace BinaryOp

/-- The binary operators, a row for each band, from the loosest one to the tightest. -/
def bands : List (List BinaryOp) :=
  [[pipe],
   [or],
   [and],
   [equal, notEqual],
   [lessThan, lessEqual, greaterThan, greaterEqual],
   [add, subtract],
   [multiply, divide, modulo]]

/-- The place of the operator's band, counted from 1. -/
def band (op : BinaryOp) : Nat :=
  bands.findIdx (op ∈ ·) + 1

theorem one_le_band (op : BinaryOp) : 1 ≤ op.band :=
  Nat.le_add_left 1 _

theorem band_le (op : BinaryOp) : op.band ≤ 7 := by
  cases op <;> decide

theorem precedence_eq_band (op : BinaryOp) : op.precedence = op.band := by
  cases op <;> rfl

end BinaryOp

/-- Whether the tree is a member access. -/
def Expr.isGetter : Expr → Bool
  | .getter _ _ => true
  | _ => false

namespace Phrase

mutual

/-- A conditional, or an expression that is none. -/
inductive Expression : List Token → Expr → Prop
  | plain {ts : List Token} {e : Expr} : Binary 1 ts e → Expression ts e
  | ternary {cs ts fs : List Token} {c t f : Expr} :
    Binary 1 cs c → Expression ts t → Expression fs f →
      Expression (cs ++ .symbol .question :: (ts ++ .symbol .colon :: fs)) (.ternary c t f)

/-- Operands joined by operators of the band `least` and tighter ones.  Operators of one band group
from the left: on the right of an operator there are tighter ones only. -/
inductive Binary : Nat → List Token → Expr → Prop
  | unary {least : Nat} {ts : List Token} {e : Expr} : Unary ts e → Binary least ts e
  | join {least : Nat} {op : BinaryOp} {ls rs : List Token} {l r : Expr} :
    least ≤ op.band → Binary op.band ls l → Binary (op.band + 1) rs r →
      Binary least (ls ++ .symbol op.symbol :: rs) (.binary op l r)

/-- An operand with the operators before it. -/
inductive Unary : List Token → Expr → Prop
  | apply {op : UnaryOp} {ts : List Token} {e : Expr} :
    Unary ts e → Unary (.symbol op.symbol :: ts) (.unary op e)
  | access {ts : List Token} {e : Expr} : Access ts e → Unary ts e

/-- An operand with the member accesses, calls and indexings after it. -/
inductive Access : List Token → Expr → Prop
  | operand {ts : List Token} {e : Expr} : Operand ts e → Access ts e
  | getter {ts : List Token} {e : Expr} {name : String} :
    Access ts e → Access (ts ++ [.symbol .dot, .identifier name]) (.getter e name)
  | method {ts us : List Token} {e : Expr} {name : String} {args : List Expr} :
    Access ts e → Arguments us args →
      Access (ts ++ .symbol .dot :: .identifier name :: .symbol .parenOpen ::
        (us ++ [.symbol .parenClose])) (.invoke e (some name) (some args))
  | call {ts us : List Token} {e : Expr} {args : List Expr} :
    Access ts e → e.isGetter = false → Arguments us args →
      Access (ts ++ .symbol .parenOpen :: (us ++ [.symbol .parenClose]))
        (.invoke e none (some args))
  | index {ts us : List Token} {e i : Expr} :
    Access ts e → Expression us i →
      Access (ts ++ .symbol .bracketOpen :: (us ++ [.symbol .bracketClose])) (.index e i)

/-- The arguments of a call, without their parentheses. -/
inductive Arguments : List Token → List Expr → Prop
  | empty : Arguments [] []
  | list {ts : List Token} {args : List Expr} : ArgumentList ts args → Arguments ts args

/-- One or more arguments with commas between them. -/
inductive ArgumentList : List Token → List Expr → Prop
  | last {ts : List Token} {e : Expr} : Expression ts e → ArgumentList ts [e]
  | more {ts us : List Token} {e : Expr} {args : List Expr} :
    Expression ts e → ArgumentList us args →
      ArgumentList (ts ++ .symbol .comma :: us) (e :: args)

/-- A literal, a name, or an expression in brackets of some kind. -/
inductive Operand : List Token → Expr → Prop
  | number (value : Number) : Operand [.number value] (.literal (.number value))
  | string (value : String) : Operand [.string value] (.literal (.string value))
  | boolean (value : Bool) : Operand [.boolean value] (.literal (.boolean value))
  | null : Operand [.null] (.literal .null)
  | identifier (name : String) : Operand [.identifier name] (.identifier name)
  | paren {ts : List Token} {e : Expr} : Expression ts e →
    Operand (.symbol .parenOpen :: (ts ++ [.symbol .parenClose])) (.paren e)
  | list {ts : List Token} {items : List (Option Expr)} : Items ts items →
    Operand (.symbol .bracketOpen :: (ts ++ [.symbol .bracketClose])) (.list items)
  | map {ts : List Token} {entries : List (String × Option Expr)} : Entries ts entries →
    Operand (.symbol .braceOpen :: (ts ++ [.symbol .braceClose])) (.map entries)

/-- The items of a list, without its brackets. -/
inductive Items : List Token → List (Option Expr) → Prop
  | nil : Items [] []
  | last {ts : List Token} {e : Expr} : Expression ts e → Items ts [some e]
  | hole {ts : List Token} {items : List (Option Expr)} :
    Items ts items → Items (.symbol .comma :: ts) (none :: items)
  | item {ts us : List Token} {e : Expr} {items : List (Option Expr)} :
    Expression ts e → Items us items → Items (ts ++ .symbol .comma :: us) (some e :: items)

/-- The entries of a map, without its braces. -/
inductive Entries : List Token → List (String × Option Expr) → Prop
  | nil : Entries [] []
  | last {ts : List Token} {entry : String × Option Expr} : Entry ts entry → Entries ts [entry]
  | skip {ts : List Token} {entries : List (String × Option Expr)} :
    Entries ts entries → Entries (.symbol .comma :: ts) entries
  | entry {ts us : List Token} {entry : String × Option Expr}
    {entries : List (String × Option Expr)} :
    Entry ts entry → Entries us entries → Entries (ts ++ .symbol .comma :: us) (entry :: entries)

/-- An entry of a map: a key, which is a name or a string, with or without a value. -/
inductive Entry : List Token → String × Option Expr → Prop
  | key {t : Token} {key : String} : t = .identifier key ∨ t = .string key →
    Entry [t] (key, none)
  | value {t : Token} {key : String} {ts : List Token} {e : Expr} :
    t = .identifier key ∨ t = .string key → Expression ts e →
      Entry (t :: .symbol .colon :: ts) (key, some e)

end

/-- Where an operator of some band may stand, a tighter one may. -/
theorem Binary.mono {m n : Nat} {ts : List Token} {e : Expr} (h : Binary n ts e) (hle : m ≤ n) :
    Binary m ts e := by
  cases h with
  | unary h => exact .unary h
  | join hop hl hr => exact .join (Nat.le_trans hle hop) hl hr

end Phrase

end Binding
