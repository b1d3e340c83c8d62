import Binding.Proofs.Grammar.Phrase

/-!
# What generated code stands for

Generated code is an expression again.  `Expr.resolved` says which one, without any text: the tree
in which bare names have become members of the context, holes have become `null`, and pipes have
become calls.

A call is written behind its callee, and no parentheses are added.  Two things follow, and they are
what `Expr.call` and `Expr.attach` are about.

* A member that is called is a method: `a.f` called with `x` reads `a.f(x)`.
* The call of an operator expression is a call of its last operand: `-f` called with `x` reads
  `-f(x)`, and `a + f` called with `x` reads `a + f(x)`.
-/

namespace Binding

namespace Expr

/-- The call of a tree. -/
def call (callee : Expr) (args : List Expr) : Expr :=
  match callee with
  | .getter receiver name => .invoke receiver (some name) (some args)
  | callee => .invoke callee none (some args)

/-- The tree with its last operand called. -/
def attach : Expr → Expr → Expr
  | .unary op operand, argument => .unary op (attach operand argument)
  | .binary op left right, argument => .binary op left (attach right argument)
  | callee, argument => callee.call [argument]

mutual

/-- What the code of the tree stands for, if bare names are members of `path`. -/
def resolved (path : Expr) : Expr → Expr
  | .empty => .empty
  | .literal value => .literal value
  | .identifier name => if name = "this" then path else .getter path name
  | .unary op operand => .unary op (resolved path operand)
  | .binary op left right =>
    if op = .pipe then attach (resolved path right) (resolved path left)
    else .binary op (resolved path left) (resolved path right)
  | .getter receiver name => .getter (resolved path receiver) name
  | .invoke receiver none none => call (resolved path receiver) []
  | .invoke receiver none (some args) =>
    call (resolved path receiver) (resolvedArguments path args)
  | .invoke receiver (some method) none =>
    .invoke (resolved path receiver) (some method) (some [])
  | .invoke receiver (some method) (some args) =>
    .invoke (resolved path receiver) (some method) (some (resolvedArguments path args))
  | .paren child => .paren (resolved path child)
  | .index receiver argument => .index (resolved path receiver) (resolved path argument)
  | .ternary condition whenTrue whenFalse =>
    .ternary (resolved path condition) (resolved path whenTrue) (resolved path whenFalse)
  | .map entries => .map ((resolvedEntries path entries).map (Prod.map id some))
  | .list items => .list ((resolvedItems path items).map some)

/-- What the code of each argument stands for. -/
def resolvedArguments (path : Expr) : List Expr → List Expr
  | [] => []
  | argument :: rest => resolved path argument :: resolvedArguments path rest

/-- What the code of each entry stands for.  A key without a value has the value `null`. -/
def resolvedEntries (path : Expr) : List (String × Option Expr) → List (String × Expr)
  | [] => []
  | (key, none) :: rest => (key, .literal .null) :: resolvedEntries path rest
  | (key, some value) :: rest => (key, resolved path value) :: resolvedEntries path rest

/-- What the code of each item stands for.  A hole is `null`. -/
def resolvedItems (path : Expr) : List (Option Expr) → List Expr
  | [] => []
  | none :: rest => .literal .null :: resolvedItems path rest
  | some item :: rest => resolved path item :: resolvedItems path rest

end

end Expr

namespace Phrase

/-- Arguments behind a callee are a call of it. -/
theorem Access.called {ts us : List Token} {e : Expr} {args : List Expr} (h : Access ts e)
    (hargs : Arguments us args) :
    Access (ts ++ .symbol .parenOpen :: (us ++ [.symbol .parenClose])) (e.call args) := by
  cases e with
  | getter receiver name =>
    cases h with
    | operand h => nomatch h
    | getter h =>
      rw [List.append_assoc]
      exact h.method hargs
  | _ => exact h.call rfl hargs

/-- Below all operators, the last operand is the whole. -/
theorem Access.attach_eq {ts : List Token} {e : Expr} (h : Access ts e) (argument : Expr) :
    e.attach argument = e.call [argument] := by
  cases h with
  | operand h => cases h <;> rfl
  | _ => rfl

variable {us : List Token} {argument : Expr}

/-- An argument behind an expression is passed to its last operand. -/
theorem Unary.attach {ts : List Token} {e : Expr} (hargument : Expression us argument) :
    Unary ts e →
      Unary (ts ++ .symbol .parenOpen :: (us ++ [.symbol .parenClose])) (e.attach argument)
  | .apply h => .apply (h.attach hargument)
  | .access h => by
    rw [h.attach_eq]
    exact .access (h.called (.list (.last hargument)))

theorem Binary.attach {least : Nat} {ts : List Token} {e : Expr}
    (hargument : Expression us argument) :
    Binary least ts e →
      Binary least (ts ++ .symbol .parenOpen :: (us ++ [.symbol .parenClose])) (e.attach argument)
  | .unary h => .unary (h.attach hargument)
  | .join hop hl hr => by
    rw [List.append_assoc]
    exact .join hop hl (hr.attach hargument)

end Phrase

end Binding
