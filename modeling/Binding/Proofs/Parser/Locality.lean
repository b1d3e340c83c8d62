import Binding.Proofs.Parser.Lockstep
import Binding.Proofs.Token.Lexemes

/-!
# A parse depends on what it has read

A step looks at no lexeme before it takes it.  So what it does depends on the current token and on
the tokens of the lexemes that it takes, and on nothing that comes after them: another parser that
gets lexemes with the same tokens does the same, whatever follows them there.

This holds of successes and of failures at a lexeme.  It does not hold of lexical errors, which are
not made of tokens, so that the statement leaves them out; and levels of nesting are not limited
here.

## Main definitions

* `Parser.Moves`: the lexemes that a step has taken.
* `Step.Local`: what a step does depends on the tokens that it takes.

## Main results

* `Grammar.locality`: every phrase is local, which is a `Coupling` of a parse with itself.
* `Step.Local.gives`: a phrase that is parsed is parsed wherever it stands before the same token.
-/

namespace Binding

namespace Parser

variable {σ : Type} {p q r : Parser σ} {ls ls' : List Lexeme}

/-- Taking the lexemes leads from the first parser to the second, whose current lexeme is the last
of them.  Its token may have been taken out. -/
def Moves (p : Parser σ) (ls : List Lexeme) (q : Parser σ) : Prop :=
  p.feed.Takes ls q.feed ∧ q.current = { ls.getLastD p.current with token := q.current.token }

theorem moves_nil (p : Parser σ) : p.Moves [] p :=
  ⟨rfl, rfl⟩

theorem getLastD_append (ls ls' : List Lexeme) (l : Lexeme) :
    (ls ++ ls').getLastD l = ls'.getLastD (ls.getLastD l) := by
  induction ls generalizing l with
  | nil => rfl
  | cons x ls ih => rw [List.cons_append, List.getLastD_cons, List.getLastD_cons, ih]

theorem Moves.trans (hq : p.Moves ls q) (hr : q.Moves ls' r) : p.Moves (ls ++ ls') r := by
  refine ⟨Feed.takes_append.2 ⟨q.feed, hq.1, hr.1⟩, ?_⟩
  rw [getLastD_append]
  cases ls' with
  | nil => rw [hr.2, hq.2]; rfl
  | cons l ls' => exact hr.2

theorem Moves.position_eq (h : p.Moves ls q) :
    q.current.position = (ls.getLastD p.current).position := by
  rw [h.2]

/-- The two parsers are at the same token, and their levels of nesting are not limited. -/
structure Like (p p' : Parser σ) : Prop where
  token : p'.current.token = p.current.token
  allowance : p.allowance = none
  allowance' : p'.allowance = none

theorem like_refl (h : p.allowance = none) : p.Like p :=
  ⟨rfl, h, h⟩

/-- The parser behind the lexemes, with the feed that is left then. -/
def past (p : Parser σ) (ls : List Lexeme) (g : Feed) : Parser σ :=
  { p with feed := g, current := ls.getLastD p.current }

theorem past_cons (p : Parser σ) (l : Lexeme) (ls : List Lexeme) (f g : Feed) :
    p.past (l :: ls) g = ({ p with feed := f, current := l } : Parser σ).past ls g := by
  rw [past, past, List.getLastD_cons]

theorem next?_eq_some_iff :
    p.next? = some q ↔
      ∃ l f, p.feed.next = (.ok l, f) ∧ q = { p with feed := f, current := l } := by
  rw [next?]
  split
  · next l f hnext =>
    rw [hnext, Option.some.injEq]
    constructor
    · rintro rfl
      exact ⟨l, f, rfl, rfl⟩
    · rintro ⟨_, _, heq, rfl⟩
      cases heq
      rfl
  · next e f hnext => simp [hnext]

/-- Passing tokens is taking lexemes with these tokens and the one behind them. -/
theorem reads_iff {ts : List Token} :
    p.Reads ts q ↔ ∃ ls g, q = p.past ls g ∧ p.feed.Takes ls g ∧
      (p.current :: ls).map Lexeme.token = ts ++ [q.current.token] ∧ ∀ t ∈ ts, t ≠ .eof := by
  induction ts generalizing p with
  | nil =>
    constructor
    · rintro rfl
      exact ⟨[], _, rfl, rfl, rfl, by simp⟩
    · rintro ⟨ls, g, rfl, htakes, htokens, -⟩
      obtain rfl : ls = [] := by simpa using congrArg List.length htokens
      obtain rfl := htakes
      rfl
  | cons t ts ih =>
    rw [reads_cons]
    constructor
    · rintro ⟨⟨rfl, hne⟩, r, hr, hq⟩
      obtain ⟨l, f, hl, rfl⟩ := next?_eq_some_iff.1 hr
      obtain ⟨ls, g, rfl, htakes, htokens, hts⟩ := ih.1 hq
      refine ⟨l :: ls, g, (p.past_cons l ls f g).symm, ⟨f, hl, htakes⟩, ?_, ?_⟩
      · rw [List.map_cons, htokens, List.cons_append]
      · exact List.forall_mem_cons.2 ⟨hne, hts⟩
    · rintro ⟨ls, g, rfl, htakes, htokens, hts⟩
      obtain ⟨l, ls, rfl⟩ : ∃ l ls', ls = l :: ls' := by
        cases ls with
        | nil => simp at htokens
        | cons l ls => exact ⟨l, ls, rfl⟩
      obtain ⟨f, hl, htakes⟩ := htakes
      rw [List.map_cons, List.cons_append, List.cons.injEq] at htokens
      obtain ⟨hne, hts⟩ := List.forall_mem_cons.1 hts
      refine ⟨⟨htokens.1, hne⟩, _, next?_eq_some_iff.2 ⟨l, f, hl, rfl⟩, ?_⟩
      exact ih.2 ⟨ls, g, p.past_cons l ls f g, htakes, htokens.2, hts⟩

end Parser

/-- The two results are alike: both are the same value, or both are failures at the current lexeme
with the same alternatives. -/
inductive Step.Replays {β : Type} (q q' : Parser Unit) :
    Except ParseError β → Except ParseError β → Prop
  | ok (b : β) : Replays q q' (.ok b) (.ok b)
  | unexpected (expected : List Expectation) :
    Replays q q' (.error (.unexpected q.current.token q.current.position expected))
      (.error (.unexpected q'.current.token q'.current.position expected))

theorem Step.Replays.of_unexpected {β : Type} {q q' : Parser Unit} {found : Token}
    {position : Position} {expected : List Expectation} {result : Except ParseError β}
    (h : Step.Replays q q' (.error (.unexpected found position expected)) result) :
    (found = q.current.token ∧ position = q.current.position) ∧
      result = .error (.unexpected q'.current.token q'.current.position expected) := by
  cases h
  exact ⟨⟨rfl, rfl⟩, rfl⟩

/-- What the step does depends on the current token and the tokens of the lexemes that it takes:
where it can take lexemes with the same tokens, it does the same. -/
def Step.Local {β : Type} (step : Step Unit β) : Prop :=
  ∀ p result q, p.allowance = none → step.outcome p = some (result, q) →
    (∀ e, result ≠ .error (.lex e)) →
      ∃ ls, p.Moves ls q ∧ q.allowance = none ∧ ∀ p' ls' g, p.Like p' → p'.feed.Takes ls' g →
        ls'.map Lexeme.token = ls.map Lexeme.token →
          ∃ result' q', step.outcome p' = some (result', q') ∧ p'.Moves ls' q' ∧ q.Like q' ∧
            Step.Replays q q' result result'

namespace Step

variable {β γ : Type} {step : Step Unit β}

/-- A step that takes no lexeme, and is alike wherever the token is. -/
theorem local_still (h : ∀ p : Parser Unit, p.allowance = none →
    ∃ result q, step.outcome p = some (result, q) ∧ p.Moves [] q ∧ q.allowance = none ∧
      ∀ p', p.Like p' → ∃ result' q', step.outcome p' = some (result', q') ∧ p'.Moves [] q' ∧
        q.Like q' ∧ Replays q q' result result') : step.Local := by
  intro p result q hp houtcome _
  obtain ⟨result₁, q₁, houtcome₁, hmoves, hq, hother⟩ := h p hp
  obtain ⟨rfl, rfl⟩ := Prod.mk.inj (Option.some.inj (houtcome.symm.trans houtcome₁))
  refine ⟨[], hmoves, hq, fun p' ls' g hlike hls' htokens => ?_⟩
  obtain rfl := List.map_eq_nil_iff.1 htokens
  exact hother p' hlike

theorem local_pure (b : β) : (pure b : Step Unit β).Local :=
  local_still fun p hp => ⟨_, p, rfl, p.moves_nil, hp, fun p' hlike =>
    ⟨_, p', rfl, p'.moves_nil, hlike, .ok b⟩⟩

theorem local_exhausted : (exhausted : Step Unit β).Local := by
  intro p result q hp houtcome
  have hnone : (exhausted : Step Unit β).outcome p = none := rfl
  rw [hnone] at houtcome
  nomatch houtcome

theorem local_token : token.Local := by
  refine local_still fun p hp => ⟨_, p, rfl, p.moves_nil, hp, fun p' hlike => ?_⟩
  refine ⟨.ok p.current.token, p', ?_, p'.moves_nil, hlike, .ok _⟩
  rw [← hlike.token]
  rfl

theorem local_unexpected (expected : List Expectation) :
    (unexpected expected : Step Unit β).Local :=
  local_still fun p hp => ⟨_, p, rfl, p.moves_nil, hp, fun p' hlike =>
    ⟨_, p', rfl, p'.moves_nil, hlike, .unexpected expected⟩⟩

theorem local_putToken (t : Token) : (putToken t).Local :=
  local_still fun _ hp => ⟨_, _, rfl, ⟨rfl, rfl⟩, hp, fun _ hlike =>
    ⟨_, _, rfl, ⟨rfl, rfl⟩, ⟨rfl, hlike.allowance, hlike.allowance'⟩, .ok ()⟩⟩

theorem outcome_spend_of_none {σ : Type} {p : Parser σ} (h : p.allowance = none) :
    spend.outcome p = some (.ok (), p) := by
  rw [outcome_spend, h]

theorem local_spend : spend.Local :=
  local_still fun p hp => ⟨_, p, outcome_spend_of_none hp, p.moves_nil, hp, fun p' hlike =>
    ⟨_, p', outcome_spend_of_none hlike.allowance', p'.moves_nil, hlike, .ok ()⟩⟩

theorem local_make (node : Node Expr) : (make Expr.builder node).Local :=
  local_still fun p hp => ⟨_, p, rfl, p.moves_nil, hp, fun p' hlike =>
    ⟨_, p', rfl, p'.moves_nil, hlike, .ok _⟩⟩

theorem local_advance : advance.Local := by
  intro p result q hp houtcome hlex
  rw [outcome_advance] at houtcome
  split at houtcome
  · next lexeme feed hnext =>
    obtain ⟨rfl, rfl⟩ := Prod.mk.inj (Option.some.inj houtcome)
    refine ⟨[lexeme], ⟨⟨feed, hnext, rfl⟩, rfl⟩, hp, fun p' ls' g hlike hls' htokens => ?_⟩
    obtain ⟨l', rfl, ht⟩ := List.map_eq_singleton_iff.1 htokens
    obtain ⟨feed', hnext', rfl⟩ := hls'
    refine ⟨.ok (), { p' with feed := g, current := l' }, ?_, ⟨⟨_, hnext', rfl⟩, rfl⟩,
      ⟨ht, hlike.allowance, hlike.allowance'⟩, .ok ()⟩
    rw [outcome_advance, hnext']
  · obtain ⟨rfl, rfl⟩ := Prod.mk.inj (Option.some.inj houtcome)
    exact absurd rfl (hlex _)

/-- Steps in a row: the lexemes of the first one and those of the second one. -/
theorem Local.bind {next : β → Step Unit γ} (h : step.Local)
    (hnext : ∀ p b q, step.Gives p b q → (next b).Local) : (step >>= next).Local := by
  intro p result q hp houtcome hlex
  rw [outcome_bind] at houtcome
  cases hstep : step.outcome p with
  | none => simp [hstep] at houtcome
  | some o =>
    obtain ⟨result₁, q₁⟩ := o
    rw [hstep] at houtcome
    cases result₁ with
    | error e =>
      obtain ⟨rfl, rfl⟩ := Prod.mk.inj (Option.some.inj houtcome)
      obtain ⟨ls, hmoves, hq, hother⟩ := h p _ _ hp hstep fun e' he' => hlex e' (by cases he'; rfl)
      refine ⟨ls, hmoves, hq, fun p' ls' g hlike hls' htokens => ?_⟩
      obtain ⟨result', q', houtcome', hmoves', hlike', hreplays⟩ :=
        hother p' ls' g hlike hls' htokens
      cases hreplays with
      | unexpected expected =>
        exact ⟨_, q', by rw [outcome_bind, houtcome'], hmoves', hlike', .unexpected expected⟩
    | ok b =>
      obtain ⟨ls₁, hmoves₁, hq₁, hother₁⟩ := h p _ _ hp hstep nofun
      obtain ⟨ls₂, hmoves₂, hq, hother₂⟩ := hnext p b q₁ hstep q₁ _ _ hq₁ houtcome hlex
      refine ⟨ls₁ ++ ls₂, hmoves₁.trans hmoves₂, hq, fun p' ls' g hlike hls' htokens => ?_⟩
      rw [List.map_append] at htokens
      obtain ⟨ls₁', ls₂', rfl, htokens₁, htokens₂⟩ := List.map_eq_append_iff.1 htokens
      obtain ⟨h₁, htakes₁, htakes₂⟩ := Feed.takes_append.1 hls'
      obtain ⟨_, q₁', houtcome₁, hmoves₁', hlike₁, hreplays⟩ :=
        hother₁ p' ls₁' h₁ hlike htakes₁ htokens₁
      obtain rfl : h₁ = q₁'.feed := (htakes₁.unique hmoves₁'.1 rfl).2
      cases hreplays
      obtain ⟨result', q', houtcome₂, hmoves₂', hlike', hreplays⟩ :=
        hother₂ q₁' ls₂' g hlike₁ htakes₂ htokens₂
      refine ⟨result', q', ?_, hmoves₁'.trans hmoves₂', hlike', hreplays⟩
      rw [outcome_bind, houtcome₁]
      exact houtcome₂

theorem refund_of_none {σ : Type} {p : Parser σ} (h : p.allowance = none) : refund p = p := by
  obtain ⟨feed, current, allowance, built⟩ := p
  obtain rfl : allowance = none := h
  rfl

theorem outcome_nested_of_none {σ : Type} {step : Step σ β} {p : Parser σ}
    (h : p.allowance = none) :
    (nested step).outcome p = (step.outcome p).map fun (result, q) => (result, refund q) := by
  rw [outcome_nested, outcome_spend_of_none h]

theorem Local.nested (h : step.Local) : (nested step).Local := by
  intro p result q hp houtcome hlex
  rw [outcome_nested_of_none hp, Option.map_eq_some_iff] at houtcome
  obtain ⟨⟨result, q⟩, houtcome, heq⟩ := houtcome
  obtain ⟨rfl, rfl⟩ := Prod.mk.inj heq
  obtain ⟨ls, hmoves, hq, hother⟩ := h p _ _ hp houtcome hlex
  rw [refund_of_none hq]
  refine ⟨ls, hmoves, hq, fun p' ls' g hlike hls' htokens => ?_⟩
  obtain ⟨result', q', houtcome', hmoves', hlike', hreplays⟩ := hother p' ls' g hlike hls' htokens
  refine ⟨result', q', ?_, hmoves', hlike', hreplays⟩
  rw [outcome_nested_of_none hlike.allowance', houtcome', Option.map_some]
  dsimp only
  rw [refund_of_none hlike'.allowance']

theorem outcome_restoring_of_none {σ : Type} {step : Step σ β} {p q : Parser σ}
    {result : Except ParseError β} (h : p.allowance = none) (hq : q.allowance = none)
    (houtcome : step.outcome p = some (result, q)) :
    (restoring step).outcome p = some (result, q) := by
  rw [outcome_restoring, houtcome]
  cases result with
  | error e => rfl
  | ok b =>
    dsimp only
    rw [h, ← hq, Parser.within_self]

theorem Local.restoring (h : step.Local) : (restoring step).Local := by
  intro p result q hp houtcome hlex
  obtain ⟨q₀, houtcome₀⟩ : ∃ q₀, step.outcome p = some (result, q₀) := by
    rw [outcome_restoring] at houtcome
    split at houtcome
    · simp at houtcome
    · next hstep =>
      obtain ⟨rfl, rfl⟩ := Prod.mk.inj (Option.some.inj houtcome)
      exact ⟨_, hstep⟩
    · next hstep =>
      obtain ⟨rfl, rfl⟩ := Prod.mk.inj (Option.some.inj houtcome)
      exact ⟨_, hstep⟩
  obtain ⟨ls, hmoves, hq₀, hother⟩ := h p _ _ hp houtcome₀ hlex
  rw [outcome_restoring_of_none hp hq₀ houtcome₀] at houtcome
  obtain ⟨-, rfl⟩ := Prod.mk.inj (Option.some.inj houtcome)
  refine ⟨ls, hmoves, hq₀, fun p' ls' g hlike hls' htokens => ?_⟩
  obtain ⟨result', q', houtcome', hmoves', hlike', hreplays⟩ := hother p' ls' g hlike hls' htokens
  exact ⟨result', q', outcome_restoring_of_none hlike.allowance' hlike'.allowance' houtcome',
    hmoves', hlike', hreplays⟩

end Step

namespace Grammar

open Step

/-- Every phrase is local.  The second parse and the trees play no part in this. -/
def locality : Coupling Expr.builder Expr.builder where
  World := Unit
  Made _ _ _ _ := True
  Runs _ post step _ := step.Local ∧ ∀ p b q, step.Gives p b q → ∃ b', post () b b'
  runs_pure hpost := ⟨local_pure _, fun _ _ _ hgives => ⟨_, (gives_pure.1 hgives).1 ▸ hpost⟩⟩
  runs_bind h hnext := by
    refine ⟨h.1.bind fun p b q hb => ?_, fun p c q hc => ?_⟩
    · obtain ⟨b', hpost⟩ := h.2 p b q hb
      exact (hnext () b b' hpost).1
    · obtain ⟨b, r, hb, hc⟩ := gives_bind.1 hc
      obtain ⟨b', hpost⟩ := h.2 p b r hb
      exact (hnext () b b' hpost).2 r c q hc
  runs_exhausted _ := ⟨local_exhausted, fun _ _ _ hgives => absurd hgives not_gives_exhausted⟩
  runs_token := ⟨local_token, fun _ t _ _ => ⟨t, rfl, rfl⟩⟩
  runs_unexpected expected :=
    ⟨local_unexpected expected, fun _ _ _ hgives => absurd hgives not_gives_unexpected⟩
  runs_advance := ⟨local_advance, fun _ u _ _ => ⟨u, rfl, rfl⟩⟩
  runs_putToken t := ⟨local_putToken t, fun _ u _ _ => ⟨u, rfl, rfl⟩⟩
  runs_spend := ⟨local_spend, fun _ u _ _ => ⟨u, rfl, rfl⟩⟩
  runs_nested h := ⟨h.1.nested, fun p b q hgives => by
    obtain ⟨-, r, hgives, -⟩ := gives_nested.1 hgives
    exact h.2 _ b r hgives⟩
  runs_restoring h := ⟨h.1.restoring, fun p b q hgives => by
    obtain ⟨r, hgives, -⟩ := gives_restoring.1 hgives
    exact h.2 p b r hgives⟩
  runs_make {_ _ node _} _ := ⟨local_make node, fun _ a _ _ => ⟨a, trivial⟩⟩

theorem local_pass (wanted : Expectation) (expected : List Expectation) :
    (pass wanted expected : Step Unit Unit).Local :=
  (Coupling.runs_pass (C := locality) (w := ()) wanted expected).1

theorem local_takeName : (takeName : Step Unit String).Local :=
  (Coupling.runs_takeName (C := locality) (w := ())).1

theorem local_takeKey : (takeKey : Step Unit String).Local :=
  (Coupling.runs_takeKey (C := locality) (w := ())).1

theorem local_separator (close : Symbol) (expected : List Expectation) :
    (separator close expected : Step Unit Unit).Local :=
  (Coupling.runs_separator (C := locality) (w := ()) close expected).1

section Phrases

variable (budget : Nat)

theorem local_ternary : (ternary Expr.builder budget).Local :=
  ((locality.phrases (Nat.le_refl budget)).ternary ()).1

theorem local_binary (least : Nat) : (binary Expr.builder budget least).Local :=
  ((locality.phrases (Nat.le_refl budget)).binary least ()).1

theorem local_unary : (unary Expr.builder budget).Local :=
  ((locality.phrases (Nat.le_refl budget)).unary ()).1

theorem local_arguments : (arguments Expr.builder budget).Local :=
  ((locality.phrases (Nat.le_refl budget)).arguments ()).1

theorem local_argumentList : (argumentList Expr.builder budget).Local :=
  ((locality.phrases (Nat.le_refl budget)).argumentList ()).1

theorem local_operand : (operand Expr.builder budget).Local :=
  ((locality.phrases (Nat.le_refl budget)).operand ()).1

theorem local_listItems : (listItems Expr.builder budget).Local :=
  ((locality.phrases (Nat.le_refl budget)).listItems ()).1

theorem local_mapEntries : (mapEntries Expr.builder budget).Local :=
  ((locality.phrases (Nat.le_refl budget)).mapEntries ()).1

theorem local_mapValue : (mapValue Expr.builder budget).Local :=
  ((locality.phrases (Nat.le_refl budget)).mapValue ()).1

theorem local_whole : (whole Expr.builder budget).Local :=
  (locality.runs_whole (Nat.le_refl budget) ()).1

end Phrases

end Grammar

namespace Step

variable {β : Type} {step : Step Unit β}

/-- **What is parsed is parsed wherever it stands before the same token.** -/
theorem Local.gives (h : step.Local) {p r p' r' : Parser Unit} {b : β} {ts : List Token}
    (hp : p.allowance = none) (hbounded : p.feed.Bounded) (hgives : step.Gives p b r)
    (hreads : p.Reads ts r) (hp' : p'.allowance = none) (hreads' : p'.Reads ts r')
    (htoken : r'.current.token = r.current.token) : step.Gives p' b r' := by
  obtain ⟨ls, hmoves, -, hother⟩ := h p _ r hp hgives nofun
  obtain ⟨ls₁, g, rfl, htakes, htokens, -⟩ := Parser.reads_iff.1 hreads
  obtain ⟨ls', g', rfl, htakes', htokens', -⟩ := Parser.reads_iff.1 hreads'
  -- The feed has an error in it, so the tokens passed are those of the lexemes taken.
  obtain rfl : ls = ls₁ := hmoves.1.eq_of_bounded htakes hbounded
  rw [htoken, ← htokens, List.map_cons, List.map_cons, List.cons.injEq] at htokens'
  obtain ⟨_, q', houtcome, hmoves', hlike, hreplays⟩ :=
    hother p' ls' g' ⟨htokens'.1, hp, hp'⟩ htakes' htokens'.2
  cases hreplays
  suffices q' = p'.past ls' g' from this ▸ houtcome
  obtain ⟨feed, current, allowance, built⟩ := q'
  obtain ⟨-, rfl⟩ := hmoves'.1.unique htakes' rfl
  obtain rfl : allowance = none := hlike.allowance'
  have hcurrent := hmoves'.2
  have htoken' := hlike.token.trans htoken.symm
  dsimp only at hcurrent htoken'
  rw [htoken'] at hcurrent
  rw [hcurrent, Parser.past, hp']

end Step

end Binding
