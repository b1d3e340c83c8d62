import Binding.Proofs.Parser.Lockstep

/-!
# Calls on one parser

A parser can be used again.  The state that one call leaves, whether it succeeds or fails, is the
state in which the next one finds the parser.  `Parser.afterCalls` is the state behind a list of
calls and `Parser.results` is what they gave.

Whatever the single steps of a parser keep, every call keeps, and so does every list of calls.  The
steps that count here are few (`Parser.Invariant`): a lexeme is taken, or an error in its place; a
token is put where another one was; the levels of nesting change; a node is built.

Errors come from single steps too, and there are three of them (`Parser.Reports`).  So what holds of
these errors in states with an invariant holds of every error that a call gives.

## Main results

* `Parser.Invariant.afterCalls`: what single steps keep holds after every list of calls.
* `Parser.Invariant.reports_results`: what is true of the errors of single steps is true of every
  error in the results.
-/

namespace Binding

namespace Parser

variable {σ α : Type}

/-- The parser that the calls leave, one after the other. -/
def afterCalls (build : Builder σ α) (p : Parser σ) (calls : List Call) : Parser σ :=
  calls.foldl (fun p call => (call.apply build p).2) p

/-- What the calls give, one after the other. -/
def results (build : Builder σ α) : Parser σ → List Call → List (Except ParseError α)
  | _, [] => []
  | p, call :: calls => (call.apply build p).1 :: results build (call.apply build p).2 calls

@[simp] theorem afterCalls_nil (build : Builder σ α) (p : Parser σ) :
    p.afterCalls build [] = p := rfl

@[simp] theorem afterCalls_cons (build : Builder σ α) (p : Parser σ) (call : Call)
    (calls : List Call) :
    p.afterCalls build (call :: calls) = (call.apply build p).2.afterCalls build calls := rfl

/-- Single steps keep the property, whether they fail or not, and levels of nesting play no part in
it. -/
structure Invariant (build : Builder σ α) (I : Parser σ → Prop) : Prop where
  taken {p : Parser σ} {l : Lexeme} {f : Feed} : I p → p.feed.next = (.ok l, f) →
    I { p with feed := f, current := l }
  missed {p : Parser σ} {e : LexError} {f : Feed} : I p → p.feed.next = (.error e, f) →
    I { p with feed := f }
  putToken {p : Parser σ} (t : Token) : I p → I { p with current := { p.current with token := t } }
  within {p : Parser σ} (allowance : Option Allowance) : I p → I (p.within allowance)
  made {p : Parser σ} (node : Node α) : I p → I { p with built := (build node p.built).2 }

/-- In states with the one property, the errors of single steps have the other. -/
structure Reports (I : Parser σ → Prop) (E : ParseError → Prop) : Prop where
  lex {p : Parser σ} {e : LexError} {f : Feed} : I p → p.feed.next = (.error e, f) → E (.lex e)
  unexpected {p : Parser σ} (expected : List Expectation) : I p →
    E (.unexpected p.current.token p.current.position expected)
  nestingLimit {p : Parser σ} (limit : Nat) : I p → E (.nestingLimit limit p.current.position)

theorem reports_true (I : Parser σ → Prop) : Reports I fun _ => True :=
  ⟨fun _ _ => trivial, fun _ _ => trivial, fun _ _ => trivial⟩

namespace Invariant

variable {build : Builder σ α} {I : Parser σ → Prop} {E : ParseError → Prop}

/-- A run next to itself, in states that have the one property and with errors that have the
other. -/
def pairing (α : Type) (I : Parser σ → Prop) (E : ParseError → Prop) : Pairing σ σ α α where
  states p p' := p' = p ∧ I p
  values := Eq
  errors e e' := e' = e ∧ E e
  excused _ := False

theorem respected_pairing (h : Invariant build I) (hreports : Reports I E) :
    (pairing α I E).Respected build build where
  token := by
    rintro p _ ⟨rfl, -⟩
    rfl
  unexpected := by
    rintro expected p _ ⟨rfl, hp⟩
    exact ⟨rfl, hreports.unexpected expected hp⟩
  advance := by
    rintro p _ ⟨rfl, hp⟩
    rw [Step.outcome_advance]
    split
    · next hnext => exact .ok rfl ⟨rfl, h.taken hp hnext⟩
    · next hnext => exact .error ⟨rfl, hreports.lex hp hnext⟩ ⟨rfl, h.missed hp hnext⟩
  putToken t := by
    rintro p _ ⟨rfl, hp⟩
    exact .ok rfl ⟨rfl, h.putToken t hp⟩
  spend := by
    rintro p _ ⟨rfl, hp⟩
    rw [Step.outcome_spend]
    split
    · exact .ok rfl ⟨rfl, hp⟩
    · split
      · exact .error ⟨rfl, hreports.nestingLimit _ hp⟩ ⟨rfl, hp⟩
      · exact .ok rfl ⟨rfl, h.within _ hp⟩
  refund := by
    rintro p _ ⟨rfl, hp⟩
    exact ⟨rfl, h.within _ hp⟩
  restore := by
    rintro p q _ _ ⟨rfl, -⟩ ⟨rfl, hq⟩
    exact ⟨rfl, h.within _ hq⟩
  make {node _} hnode := by
    rintro p _ ⟨rfl, hp⟩
    obtain rfl := hnode.eq
    exact .ok rfl ⟨rfl, h.made node hp⟩

/-- One call keeps what single steps keep, and an error that it gives is one of theirs. -/
theorem apply_and_reports (h : Invariant build I) (hreports : Reports I E) {p : Parser σ}
    (hp : I p) (call : Call) :
    I (call.apply build p).2 ∧ ∀ e, (call.apply build p).1 = .error e → E e := by
  have hstates : (pairing α I E).states p p := ⟨rfl, hp⟩
  have hmatched := Call.matched_apply (h.respected_pairing hreports) call hstates
  generalize call.apply build p = r at hmatched ⊢
  cases hmatched with
  | excused _ _ he => exact he.elim
  | error he hstates =>
    refine ⟨hstates.2, fun e' heq => ?_⟩
    obtain rfl := Except.error.inj heq
    exact he.2
  | ok _ hstates => exact ⟨hstates.2, fun _ heq => nomatch heq⟩

theorem apply (h : Invariant build I) {p : Parser σ} (hp : I p) (call : Call) :
    I (call.apply build p).2 :=
  (h.apply_and_reports (reports_true I) hp call).1

/-- **What single steps keep holds after every list of calls.** -/
theorem afterCalls (h : Invariant build I) {p : Parser σ} (hp : I p) (calls : List Call) :
    I (p.afterCalls build calls) := by
  induction calls generalizing p with
  | nil => exact hp
  | cons call calls ih => exact ih (h.apply hp call)

/-- **What is true of the errors of single steps is true of every error in the results.** -/
theorem reports_results (h : Invariant build I) (hreports : Reports I E) {p : Parser σ} (hp : I p)
    {calls : List Call} {e : ParseError} (he : .error e ∈ p.results build calls) : E e := by
  induction calls generalizing p with
  | nil => nomatch he
  | cons call calls ih =>
    obtain ⟨hafter, hcall⟩ := h.apply_and_reports hreports hp call
    rcases List.mem_cons.1 he with hfirst | hrest
    · exact hcall e hfirst.symm
    · exact ih hafter hrest

end Invariant

end Parser

end Binding
