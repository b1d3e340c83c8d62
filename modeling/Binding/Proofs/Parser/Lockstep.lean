import Binding.Parser.Session
import Binding.Proofs.Parser.Coupling
import Binding.Proofs.Parser.Success
import Mathlib.Data.List.Forall2

/-!
# Two runs in lockstep

Two parses of the same tokens go through the same phrases in the same order, whatever builders make
their nodes, whatever levels of nesting they are allowed, and wherever their lexemes stand in a
source.

A `Pairing` says what the two runs have in common: which states may be reached at the same moment,
which values the builders make of the same node, and which errors end both runs alike.  It also
says which errors *excuse* the first run, so that nothing is claimed about the second one any more.
`Pairing.Respected` is what has to be checked of a pairing, step by step.  It makes the pairing a
`Coupling`, one that has no use for moments; so every phrase keeps the two runs together.

The two runs may also have different budgets: a first run that uses up its budget is excused.  With
equality for the pairing, the statement is that a larger budget changes no result
(`Call.outcome_step_mono`).  So calls of the entry points, each with a budget of its own, can be
compared (`Call.matched_apply`).

## Main definitions

* `Pairing`, `Pairing.Matched`, `Pairing.Steps`: what two runs, their outcomes and two steps have
  in common.
* `Pairing.Respected`: every single step keeps the two runs together.
* `Call`: the two entry points.

## Main results

* `Call.runs_step`: every call runs alike under every coupling.
* `Call.outcome_step_mono`: a budget that is enough is as good as any larger one.
* `Call.matched_apply`: the same call on two parsers that belong together.
-/

namespace Binding

/-- Two nodes with the same operator and related operands. -/
inductive Node.Alike {α β : Type} (R : α → β → Prop) : Node α → Node β → Prop
  | empty : Alike R .empty .empty
  | literal (value : Literal) : Alike R (.literal value) (.literal value)
  | identifier (name : String) : Alike R (.identifier name) (.identifier name)
  | unary (op : UnaryOp) {a : α} {b : β} : R a b → Alike R (.unary op a) (.unary op b)
  | binary (op : BinaryOp) {a a' : α} {b b' : β} :
    R a b → R a' b' → Alike R (.binary op a a') (.binary op b b')
  | getter (name : String) {a : α} {b : β} : R a b → Alike R (.getter a name) (.getter b name)
  | invoke (method : Option String) {a : α} {b : β} {as : List α} {bs : List β} :
    R a b → List.Forall₂ R as bs →
      Alike R (.invoke a method (some as)) (.invoke b method (some bs))
  | paren {a : α} {b : β} : R a b → Alike R (.paren a) (.paren b)
  | index {a a' : α} {b b' : β} : R a b → R a' b' → Alike R (.index a a') (.index b b')
  | ternary {a a' a'' : α} {b b' b'' : β} :
    R a b → R a' b' → R a'' b'' → Alike R (.ternary a a' a'') (.ternary b b' b'')
  | map {as : List (String × Option α)} {bs : List (String × Option β)} :
    List.Forall₂ (fun a b => a.1 = b.1 ∧ Option.Rel R a.2 b.2) as bs → Alike R (.map as) (.map bs)
  | list {as : List (Option α)} {bs : List (Option β)} :
    List.Forall₂ (Option.Rel R) as bs → Alike R (.list as) (.list bs)

/-- Values that belong together whatever the moment, one after another. -/
theorem Sequence.forall₂ {W β β' : Type} {R : W → W → β → β' → Prop} {S : β → β' → Prop}
    {v w : W} {bs : List β} {bs' : List β'} (h : Sequence R v bs bs' w)
    (himp : ∀ v w b b', R v w b b' → S b b') : List.Forall₂ S bs bs' := by
  induction h with
  | nil w => exact .nil
  | cons hb _ ih => exact .cons (himp _ _ _ _ hb) ih

theorem Perhaps.rel {W β β' : Type} {R : β → β' → Prop} {v w : W} {b : Option β} {b' : Option β'}
    (h : Perhaps (fun _ _ => R) v w b b') : Option.Rel R b b' := by
  cases h with
  | none => exact .none
  | some h => exact .some h

/-- Nodes built of operands that belong together whatever the moment. -/
theorem Node.Built.alike {W α β : Type} {R : α → β → Prop} {v w : W} {node : Node α}
    {node' : Node β} (h : node.Built (fun _ _ => R) v node' w) : node.Alike R node' := by
  cases h with
  | empty => exact .empty
  | literal value => exact .literal value
  | identifier name => exact .identifier name
  | unary op ha => exact .unary op ha
  | binary op ha hb => exact .binary op ha hb
  | getter name ha => exact .getter name ha
  | invoke method ha hargs => exact .invoke method ha (hargs.forall₂ fun _ _ _ _ h => h)
  | paren ha => exact .paren ha
  | index ha hb => exact .index ha hb
  | ternary ha hb hc => exact .ternary ha hb hc
  | map hentries => exact .map (hentries.forall₂ fun _ _ _ _ h => ⟨h.1, h.2.rel⟩)
  | list hitems => exact .list (hitems.forall₂ fun _ _ _ _ h => h.rel)

/-- What two runs of a parser have in common. -/
structure Pairing (σ σ' α α' : Type) where
  /-- The states that the two runs may be in at the same moment. -/
  states : Parser σ → Parser σ' → Prop
  /-- What the two builders may make of the same node. -/
  values : α → α' → Prop
  /-- The errors that may end both runs at the same moment. -/
  errors : ParseError → ParseError → Prop
  /-- The errors of the first run after which nothing is said about the second one. -/
  excused : ParseError → Prop

namespace Pairing

variable {σ σ' α α' β β' γ γ' : Type} {P : Pairing σ σ' α α'}

/-- The two outcomes belong together: both are successes with related results, or both are
failures with related errors, unless the first run is excused. -/
inductive Matched (P : Pairing σ σ' α α') (R : β → β' → Prop) :
    Option (Except ParseError β × Parser σ) → Option (Except ParseError β' × Parser σ') → Prop
  | exhausted (o : Option (Except ParseError β' × Parser σ')) : Matched P R none o
  | excused {e : ParseError} (p : Parser σ) (o : Option (Except ParseError β' × Parser σ')) :
    P.excused e → Matched P R (some (.error e, p)) o
  | error {e e' : ParseError} {p : Parser σ} {p' : Parser σ'} :
    P.errors e e' → P.states p p' → Matched P R (some (.error e, p)) (some (.error e', p'))
  | ok {b : β} {b' : β'} {p : Parser σ} {p' : Parser σ'} :
    R b b' → P.states p p' → Matched P R (some (.ok b, p)) (some (.ok b', p'))

/-- From states that belong together, the two steps have outcomes that belong together. -/
def Steps (P : Pairing σ σ' α α') (R : β → β' → Prop) (step : Step σ β) (step' : Step σ' β') :
    Prop :=
  ∀ p p', P.states p p' → P.Matched R (step.outcome p) (step'.outcome p')

/-- Every single step keeps the two runs together. -/
structure Respected (P : Pairing σ σ' α α') (build : Builder σ α) (build' : Builder σ' α') :
    Prop where
  token {p : Parser σ} {p' : Parser σ'} : P.states p p' → p.current.token = p'.current.token
  unexpected (expected : List Expectation) {p : Parser σ} {p' : Parser σ'} : P.states p p' →
    P.errors (.unexpected p.current.token p.current.position expected)
      (.unexpected p'.current.token p'.current.position expected)
  advance : P.Steps Eq Step.advance Step.advance
  putToken (t : Token) : P.Steps Eq (Step.putToken t) (Step.putToken t)
  spend : P.Steps Eq Step.spend Step.spend
  refund {p : Parser σ} {p' : Parser σ'} : P.states p p' →
    P.states (Step.refund p) (Step.refund p')
  restore {p q : Parser σ} {p' q' : Parser σ'} : P.states p p' → P.states q q' →
    P.states (q.within p.allowance) (q'.within p'.allowance)
  make {node : Node α} {node' : Node α'} : node.Alike P.values node' →
    P.Steps P.values (Step.make build node) (Step.make build' node')

/-! ### Steps in a row -/

theorem steps_pure {R : β → β' → Prop} {b : β} {b' : β'} (h : R b b') :
    P.Steps R (pure b) (pure b') :=
  fun _ _ hp => .ok h hp

theorem steps_exhausted {R : β → β' → Prop} (step' : Step σ' β') :
    P.Steps R Step.exhausted step' :=
  fun _ _ _ => .exhausted _

theorem Steps.mono {R S : β → β' → Prop} {step : Step σ β} {step' : Step σ' β'}
    (h : P.Steps R step step') (himp : ∀ b b', R b b' → S b b') : P.Steps S step step' := by
  intro p p' hp
  have hmatched := h p p' hp
  generalize step.outcome p = o, step'.outcome p' = o' at hmatched ⊢
  cases hmatched with
  | exhausted o => exact .exhausted _
  | excused q o he => exact .excused q _ he
  | error he hq => exact .error he hq
  | ok hb hq => exact .ok (himp _ _ hb) hq

theorem Steps.bind {R : β → β' → Prop} {S : γ → γ' → Prop} {step : Step σ β}
    {step' : Step σ' β'} {next : β → Step σ γ} {next' : β' → Step σ' γ'}
    (h : P.Steps R step step') (hnext : ∀ b b', R b b' → P.Steps S (next b) (next' b')) :
    P.Steps S (step >>= next) (step' >>= next') := by
  intro p p' hp
  rw [Step.outcome_bind, Step.outcome_bind]
  have hmatched := h p p' hp
  generalize step.outcome p = o, step'.outcome p' = o' at hmatched ⊢
  cases hmatched with
  | exhausted o => exact .exhausted _
  | excused q o he => exact .excused q _ he
  | error he hq => exact .error he hq
  | ok hb hq => exact hnext _ _ hb _ _ hq

namespace Respected

variable {build : Builder σ α} {build' : Builder σ' α'} (h : P.Respected build build')

include h

/-! ### Single steps -/

theorem steps_token : P.Steps Eq Step.token Step.token :=
  fun _ _ hp => .ok (h.token hp) hp

theorem steps_unexpected {R : β → β' → Prop} (expected : List Expectation) :
    P.Steps R (Step.unexpected expected) (Step.unexpected expected) :=
  fun _ _ hp => .error (h.unexpected expected hp) hp

theorem steps_nested {R : β → β' → Prop} {step : Step σ β} {step' : Step σ' β'}
    (hstep : P.Steps R step step') : P.Steps R (Step.nested step) (Step.nested step') := by
  intro p p' hp
  rw [Step.outcome_nested, Step.outcome_nested]
  have hspend := h.spend p p' hp
  generalize Step.spend.outcome p = o, Step.spend.outcome p' = o' at hspend ⊢
  cases hspend with
  | exhausted o => exact .exhausted _
  | excused q o he => exact .excused q _ he
  | error he hq => exact .error he hq
  | @ok _ _ q q' hb hq =>
    have hmatched := hstep q q' hq
    dsimp only
    generalize step.outcome q = o, step'.outcome q' = o' at hmatched ⊢
    cases hmatched with
    | exhausted o => exact .exhausted _
    | excused r o he => exact .excused _ _ he
    | error he hr => exact .error he (h.refund hr)
    | ok hb hr => exact .ok hb (h.refund hr)

theorem steps_restoring {R : β → β' → Prop} {step : Step σ β} {step' : Step σ' β'}
    (hstep : P.Steps R step step') :
    P.Steps R (Step.restoring step) (Step.restoring step') := by
  intro p p' hp
  rw [Step.outcome_restoring, Step.outcome_restoring]
  have hmatched := hstep p p' hp
  generalize step.outcome p = o, step'.outcome p' = o' at hmatched ⊢
  cases hmatched with
  | exhausted o => exact .exhausted _
  | excused q o he => exact .excused q _ he
  | error he hq => exact .error he hq
  | ok hb hq => exact .ok hb (h.restore hp hq)

omit h

/-- A pairing compares two runs without regard to the moment. -/
def coupling (h : P.Respected build build') : Coupling build build' where
  World := Unit
  Made _ _ := P.values
  Runs _ post := P.Steps (post ())
  runs_pure hpost := steps_pure hpost
  runs_bind hstep hnext := hstep.bind fun b b' hb => hnext () b b' hb
  runs_exhausted step' := steps_exhausted step'
  runs_token := h.steps_token.mono fun _ _ ht => ⟨rfl, ht.symm⟩
  runs_unexpected expected := h.steps_unexpected expected
  runs_advance := h.advance.mono fun _ _ hu => ⟨rfl, hu.symm⟩
  runs_putToken t := (h.putToken t).mono fun _ _ hu => ⟨rfl, hu.symm⟩
  runs_spend := h.spend.mono fun _ _ hu => ⟨rfl, hu.symm⟩
  runs_nested hstep := h.steps_nested hstep
  runs_restoring hstep := h.steps_restoring hstep
  runs_make hnode := h.make hnode.alike

end Respected

/-! ### The same run twice -/

/-- The pairing of a run with itself. -/
def same (σ α : Type) : Pairing σ σ α α :=
  ⟨Eq, Eq, Eq, fun _ => False⟩

end Pairing

namespace Node.Alike

variable {α : Type}

private theorem eq_of_rel {a b : Option α} (h : Option.Rel Eq a b) : a = b := by
  cases h with
  | some h => rw [h]
  | none => rfl

private theorem eq_of_forall₂ {as bs : List α} (h : List.Forall₂ Eq as bs) : as = bs :=
  List.forall₂_eq_eq_eq ▸ h

/-- Nodes that are alike up to equality of their operands are equal. -/
theorem eq {node node' : Node α} (h : node.Alike Eq node') : node = node' := by
  cases h with
  | invoke method hr hargs => rw [hr, eq_of_forall₂ hargs]
  | map hentries =>
    rw [eq_of_forall₂ (hentries.imp fun a b hab => Prod.ext hab.1 (eq_of_rel hab.2))]
  | list hitems => rw [eq_of_forall₂ (hitems.imp fun _ _ => eq_of_rel)]
  | _ => simp_all

end Node.Alike

namespace Pairing

variable {σ α β : Type}

theorem steps_same (step : Step σ β) : (same σ α).Steps Eq step step := by
  rintro p _ rfl
  cases step.outcome p with
  | none => exact .exhausted _
  | some o =>
    obtain ⟨result, q⟩ := o
    cases result with
    | error e => exact .error rfl rfl
    | ok b => exact .ok rfl rfl

theorem respected_same (build : Builder σ α) : (same σ α).Respected build build where
  token h := h ▸ rfl
  unexpected _ _ _ h := h ▸ rfl
  advance := steps_same _
  putToken _ := steps_same _
  spend := steps_same _
  refund h := h ▸ rfl
  restore hp hq := hp ▸ hq ▸ rfl
  make h := h.eq ▸ steps_same _

/-- Two runs of one parser agree if the first does not run out of its budget. -/
theorem Matched.eq_of_some {o : Option (Except ParseError β × Parser σ)}
    {r : Except ParseError β × Parser σ} (h : (same σ α).Matched Eq (some r) o) : o = some r := by
  cases h with
  | excused _ _ he => exact he.elim
  | error he hp => rw [he, hp]
  | ok hb hp => rw [hb, hp]

end Pairing

/-! ### The two entry points -/

/-- What a parser can be asked for. -/
inductive Call where
  /-- All that is left of the input. -/
  | parse
  /-- One expression. -/
  | parseExpression
deriving DecidableEq

namespace Call

variable {σ σ' α α' : Type}

/-- The step that the call makes. -/
def step (build : Builder σ α) : Call → Nat → Step σ α
  | .parse => Grammar.whole build
  | .parseExpression => Grammar.ternary build

/-- What the call gives, and the parser that it leaves. -/
def apply (build : Builder σ α) : Call → Parser σ → Except ParseError α × Parser σ
  | .parse, p => p.parse build
  | .parseExpression, p => p.parseExpression build

/-- **Either call runs alike.** -/
theorem runs_step {build : Builder σ α} {build' : Builder σ' α'} (C : Coupling build build')
    (call : Call) {budget budget' : Nat} (hle : budget ≤ budget') (w : C.World) :
    C.Runs w (C.Made w) (call.step build budget) (call.step build' budget') := by
  cases call with
  | parse => exact C.runs_whole hle w
  | parseExpression => exact (C.phrases hle).ternary w

/-- Either call keeps the two runs together. -/
theorem steps_step {P : Pairing σ σ' α α'} {build : Builder σ α} {build' : Builder σ' α'}
    (h : P.Respected build build') (call : Call) {budget budget' : Nat} (hle : budget ≤ budget') :
    P.Steps P.values (call.step build budget) (call.step build' budget') :=
  runs_step h.coupling call hle ()

variable {build : Builder σ α} {call : Call} {p : Parser σ}

theorem outcome_step_mono {budget budget' : Nat} {r : Except ParseError α × Parser σ}
    (h : (call.step build budget).outcome p = some r) (hle : budget ≤ budget') :
    (call.step build budget').outcome p = some r :=
  Pairing.Matched.eq_of_some (h ▸ steps_step (Pairing.respected_same build) call hle p p rfl)

/-- What the call gives, with any budget that is at least as large as its own. -/
theorem outcome_step (build : Builder σ α) (call : Call) (p : Parser σ) {budget : Nat}
    (hle : Grammar.budget p ≤ budget) :
    (call.step build budget).outcome p = some (call.apply build p) := by
  have hown : (call.step build (Grammar.budget p)).outcome p = some (call.apply build p) := by
    cases call <;> exact (Option.some_get _).symm
  exact outcome_step_mono hown hle

/-- **The same call on two parsers that belong together.** -/
theorem matched_apply {P : Pairing σ σ' α α'} {build' : Builder σ' α'}
    (h : P.Respected build build') {p' : Parser σ'} (call : Call) (hp : P.states p p') :
    P.Matched P.values (some (call.apply build p)) (some (call.apply build' p')) := by
  have hmatched :=
    steps_step h call (Nat.le_refl (max (Grammar.budget p) (Grammar.budget p'))) p p' hp
  rwa [outcome_step build call p (Nat.le_max_left _ _),
    outcome_step build' call p' (Nat.le_max_right _ _)] at hmatched

end Call

namespace Grammar

variable {σ α : Type} {build : Builder σ α} {budget budget' : Nat} {p : Parser σ}

/-- A budget that is enough for the value of a map entry is as good as any larger one. -/
theorem outcome_mapValue_mono {r : Except ParseError (Option α) × Parser σ}
    (h : (mapValue build budget).outcome p = some r) (hle : budget ≤ budget') :
    (mapValue build budget').outcome p = some r := by
  have hphrases := (Pairing.respected_same build).coupling.phrases hle
  have hsteps : (Pairing.same σ α).Steps Eq (mapValue build budget) (mapValue build budget') :=
    (hphrases.mapValue ()).mono fun a b hab => by
      cases hab with
      | none => rfl
      | some hab => rw [show _ = _ from hab]
  exact Pairing.Matched.eq_of_some (h ▸ hsteps p p rfl)

end Grammar

namespace Parser

variable {σ σ' α α' : Type}

/-- What the parser makes of its input, with any budget that is at least as large as its own. -/
theorem outcome_whole (build : Builder σ α) (p : Parser σ) {budget : Nat}
    (h : Grammar.budget p ≤ budget) :
    (Grammar.whole build budget).outcome p = some (p.parse build) :=
  Call.outcome_step build .parse p h

/-- A result found with some budget is the result. -/
theorem parse_eq_of_outcome {build : Builder σ α} {p : Parser σ} {budget : Nat}
    {r : Except ParseError α × Parser σ} (h : (Grammar.whole build budget).outcome p = some r) :
    p.parse build = r := by
  have hr : (Call.parse.step build (max budget (Grammar.budget p))).outcome p = some r :=
    Call.outcome_step_mono h (Nat.le_max_left _ _)
  rw [Call.outcome_step build .parse p (Nat.le_max_right _ _)] at hr
  exact Option.some.inj hr

/-- **Two parses of inputs that belong together.** -/
theorem matched_parse {P : Pairing σ σ' α α'} {build : Builder σ α} {build' : Builder σ' α'}
    (h : P.Respected build build') {p : Parser σ} {p' : Parser σ'} (hp : P.states p p') :
    P.Matched P.values (some (p.parse build)) (some (p'.parse build')) :=
  Call.matched_apply h .parse hp

end Parser

end Binding
