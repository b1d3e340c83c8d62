import Binding.Code.Context
import Binding.Proofs.Code.Reading
import Binding.Proofs.Grammar.Subtree

/-!
# What a pipe calls

The code of a pipe is the code of its right operand, followed by the code of the left operand in
parentheses.  Whether that is a call of the right operand depends on what the operand is: an
operator expression as the right operand keeps its operators outside the call, because no
parentheses are written around it.

## Main results

* `Expr.render_pipe_calls_iff`: the code of a pipe calls the whole of its right operand if and only
  if this is no operator expression.
* `Expr.render_pipe_negated_not_called`: a pipe into a negation calls something else.
-/

namespace Binding

namespace Expr

/-- Whether the root of the tree is an operator with one or two operands. -/
def isOperator : Expr → Bool
  | .unary _ _ | .binary _ _ _ => true
  | _ => false

/-- What is called, and with which arguments, if the tree is a call.  A method is a member that is
called. -/
def called? : Expr → Option (Expr × List Expr)
  | .invoke receiver none (some args) => some (receiver, args)
  | .invoke receiver (some name) (some args) => some (.getter receiver name, args)
  | _ => none

@[simp] theorem called?_call (callee : Expr) (args : List Expr) :
    (callee.call args).called? = some (callee, args) := by
  cases callee <;> rfl

/-- An operator expression with an argument attached is none of a call. -/
theorem called?_attach_of_isOperator {e : Expr} (h : e.isOperator = true) (argument : Expr) :
    (e.attach argument).called? = none := by
  cases e <;> first | rfl | nomatch h

end Expr

namespace Phrase

open Binding.Expr

/-- The operands of a pipe. -/
theorem Expression.pipe {ts : List Token} {l r : Expr} (h : Expression ts (.binary .pipe l r)) :
    ∃ ls rs, Binary 1 ls l ∧ Binary 2 rs r ∧ ts = ls ++ .symbol .bar :: rs := by
  cases h with
  | plain h =>
    cases h with
    | unary h =>
      cases h with
      | access h =>
        cases h with
        | operand h => nomatch h
    | join _ hl hr => exact ⟨_, _, hl, hr, rfl⟩

/-- Below all operators there are only operands with accesses. -/
theorem Binary.access_of_isOperator {least : Nat} {ts : List Token} {e : Expr}
    (h : Binary least ts e) (he : e.isOperator = false) : Access ts e := by
  cases h with
  | unary h =>
    cases h with
    | apply h => nomatch he
    | access h => exact h
  | join _ _ _ => nomatch he

/-- A right operand of a pipe that is an operator expression stays one. -/
theorem Binary.isOperator_resolved {ts : List Token} {e : Expr} (h : Binary 2 ts e)
    (he : e.isOperator = true) (path : Expr) : (resolved path e).isOperator = true := by
  cases h with
  | unary h =>
    cases h with
    | apply h =>
      rw [resolved]
      rfl
    | access h =>
      cases h with
      | operand h => cases h <;> nomatch he
      | _ => nomatch he
  | @join _ op _ _ _ _ hop _ _ =>
    have hne : op ≠ .pipe := by
      rintro rfl
      exact absurd hop (by decide)
    rw [resolved, if_neg hne]
    rfl

end Phrase

namespace Expr

open Phrase

theorem writes_default :
    Writes Context.default.name (Access · (.identifier "model")) :=
  @writes_path Context.default.name "model" [] (by decide +kernel)

/-- **A pipe calls its right operand unless this is an operator expression.**  For every pipe in the
tree of a source, the code of the pipe, of its left operand and of its right operand can be parsed;
the first is a call of the third with the second as its only argument if and only if the right
operand is no operator expression. -/
theorem render_pipe_calls_iff {source : String} {e l r : Expr}
    (h : parseWithin none source = .ok e) (hpipe : (binary .pipe l r).Occurs e) :
    ∃ whole left right,
      parseWithin none ((binary .pipe l r).render Context.default.name) = .ok whole ∧
      parseWithin none (l.render Context.default.name) = .ok left ∧
      parseWithin none (r.render Context.default.name) = .ok right ∧
      (whole.called? = some (right, [left]) ↔ r.isOperator = false) := by
  obtain ⟨ts, hts, he, -⟩ := parseWithin_eq_ok_iff.1 h
  obtain ⟨-, rfl⟩ | he := he
  · cases hpipe with
    | operand _ hb => nomatch hb
  obtain ⟨us, hus, hsub⟩ := he.occurs hpipe
  obtain ⟨ls, rs, hls, hrs, rfl⟩ := hus.pipe
  have hreadable : ∀ t ∈ ls ++ .symbol .bar :: rs, t.Readable :=
    fun t ht => readable_of_tokens hts t (hsub ht)
  have hleft := (Expression.plain hls).writes writes_default fun t ht => hreadable t (by simp [ht])
  have hright := (Expression.plain (hrs.mono (by decide))).writes writes_default
    fun t ht => hreadable t (by simp [ht])
  have hwhole := hus.writes writes_default hreadable
  rw [resolved, if_pos rfl] at hwhole
  refine ⟨_, _, _, parseWithin_of_writes hwhole, parseWithin_of_writes hleft,
    parseWithin_of_writes hright, ?_⟩
  cases hr : r.isOperator with
  | true => simp [called?_attach_of_isOperator (hrs.isOperator_resolved hr _)]
  | false =>
    obtain ⟨vs, hvs, -⟩ := (hrs.access_of_isOperator hr).writes writes_default
      fun t ht => hreadable t (by simp [ht])
    simp [hvs.attach_eq]

/-- A pipe into a call is a call of the call. -/
theorem render_pipe_calls_call :
    parseWithin none "a|f(b)" = .ok (.binary .pipe (.identifier "a")
        (.invoke (.identifier "f") none (some [.identifier "b"]))) ∧
      ∃ whole left right,
        parseWithin none "model.f(model.b)(model.a)" = .ok whole ∧
        parseWithin none "model.a" = .ok left ∧
        parseWithin none "model.f(model.b)" = .ok right ∧
        whole.called? = some (right, [left]) := by
  have hparse : parseWithin none "a|f(b)" = .ok (.binary .pipe (.identifier "a")
      (.invoke (.identifier "f") none (some [.identifier "b"]))) := by
    decide +kernel
  obtain ⟨whole, left, right, hwhole, hleft, hright, hcalled⟩ := render_pipe_calls_iff hparse .root
  refine ⟨hparse, whole, left, right, ?_, ?_, ?_, hcalled.2 rfl⟩
  · exact hwhole
  · exact hleft
  · exact hright

/-- **A pipe into a negation is no call.**  The negation stays outside. -/
theorem render_pipe_negated_not_called :
    parseWithin none "a|-f" =
        .ok (.binary .pipe (.identifier "a") (.unary .negate (.identifier "f"))) ∧
      ∃ whole,
        parseWithin none ((binary .pipe (.identifier "a") (.unary .negate (.identifier "f"))).render
          Context.default.name) = .ok whole ∧ whole.called? = none := by
  refine ⟨by decide +kernel, .unary .negate (.invoke (.identifier "model") (some "f")
    (some [.getter (.identifier "model") "a"])), by decide +kernel, rfl⟩

end Expr

end Binding
