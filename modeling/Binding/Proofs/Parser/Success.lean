import Binding.Expr.Basic
import Binding.Parser.Progress

/-!
# Successful steps

What a step does when it succeeds, as a relation `Step.Gives` between the state before it, its
result and the state after it.  Every step has one rule, an equivalence, so that a phrase is read
in both directions from one unfolding: from left to right it takes a successful parse apart, from
right to left it puts one together.

## The state between two steps

Three operations describe every state that a successful parse can leave, relative to the state it
started from.

* `Parser.next?` moves to the next lexeme.
* `Parser.spent` takes levels of nesting away, and `Parser.Affords` says that there are enough.
* `Parser.within` replaces the levels of nesting.

`Parser.Reads` is the first of them repeated: the parser passes a list of tokens, none of which is
the end of input, and nothing else about it changes.

## Main results

* `Step.gives_bind` and the rules for single steps.
* `Parser.reads_append` and `Parser.reads_spent`: tokens passed one list after the other, and at a
  different level of nesting.
-/

namespace Binding

namespace Parser

variable {σ : Type}

/-! ### Moving -/

/-- The parser at the next lexeme, if that can be read. -/
def next? (p : Parser σ) : Option (Parser σ) :=
  match p.feed.next with
  | (.ok lexeme, feed) => some { p with feed, current := lexeme }
  | (.error _, _) => none

/-- The parser with other levels of nesting. -/
def within (p : Parser σ) (allowance : Option Allowance) : Parser σ :=
  { p with allowance }

/-- The parser with `levels` fewer levels of nesting. -/
def spent (p : Parser σ) (levels : Nat) : Parser σ :=
  p.within (p.allowance.map fun a => { a with remaining := a.remaining - levels })

/-- The parser has so many levels of nesting left, or any number of them. -/
def Affords (p : Parser σ) (levels : Nat) : Prop :=
  ∀ a, p.allowance = some a → levels ≤ a.remaining

/-- Passing the tokens, none of which is the end of input, leads from the first parser to the
second. -/
def Reads : Parser σ → List Token → Parser σ → Prop
  | p, [], q => q = p
  | p, t :: ts, q =>
    (p.current.token = t ∧ t ≠ .eof) ∧ ∃ r, p.next? = some r ∧ r.Reads ts q

@[simp] theorem current_within (p : Parser σ) (a : Option Allowance) :
    (p.within a).current = p.current := rfl

@[simp] theorem allowance_within (p : Parser σ) (a : Option Allowance) :
    (p.within a).allowance = a := rfl

@[simp] theorem within_within (p : Parser σ) (a b : Option Allowance) :
    (p.within a).within b = p.within b := rfl

@[simp] theorem within_self (p : Parser σ) : p.within p.allowance = p := rfl

@[simp] theorem next?_within (p : Parser σ) (a : Option Allowance) :
    (p.within a).next? = p.next?.map (·.within a) := by
  unfold next? within
  split <;> simp_all

@[simp] theorem current_spent (p : Parser σ) (levels : Nat) :
    (p.spent levels).current = p.current := rfl

@[simp] theorem within_spent (p : Parser σ) (levels : Nat) (a : Option Allowance) :
    (p.spent levels).within a = p.within a := rfl

@[simp] theorem spent_zero (p : Parser σ) : p.spent 0 = p := by
  obtain ⟨feed, current, allowance, built⟩ := p
  cases allowance <;> rfl

theorem spent_spent (p : Parser σ) (m n : Nat) : (p.spent m).spent n = p.spent (m + n) := by
  obtain ⟨feed, current, allowance, built⟩ := p
  cases allowance with
  | none => rfl
  | some a => simp [spent, within, Nat.sub_sub]

theorem Affords.mono {p : Parser σ} {m n : Nat} (h : p.Affords n) (hle : m ≤ n) :
    p.Affords m :=
  fun a ha => Nat.le_trans hle (h a ha)

theorem affords_max {p : Parser σ} {m n : Nat} :
    p.Affords (max m n) ↔ p.Affords m ∧ p.Affords n := by
  simp only [Affords, Nat.max_le]
  exact ⟨fun h => ⟨fun a ha => (h a ha).1, fun a ha => (h a ha).2⟩,
    fun h a ha => ⟨h.1 a ha, h.2 a ha⟩⟩

/-- What is left after spending is what there was beyond it. -/
theorem affords_spent {p : Parser σ} {m n : Nat} (h : p.Affords m) :
    (p.spent m).Affords n ↔ p.Affords (m + n) := by
  obtain ⟨feed, current, allowance, built⟩ := p
  cases allowance with
  | none => simp [Affords, spent]
  | some a =>
    have := h a rfl
    simp only [Affords, spent, allowance_within, Option.map_some, Option.some.injEq, forall_eq']
    omega

/-- Behind `links` links of a chain, one more link and what stands right of it. -/
theorem affords_link {p : Parser σ} {links n : Nat} (h : p.Affords (links + 1 + n)) :
    (p.spent links).Affords 1 ∧ (p.spent (links + 1)).Affords n := by
  have hlink := h.mono (Nat.le_add_right (links + 1) n)
  exact ⟨(affords_spent (hlink.mono (Nat.le_succ links))).2 hlink, (affords_spent hlink).2 h⟩

theorem refund_spent {p : Parser σ} (h : p.Affords 1) : Step.refund (p.spent 1) = p := by
  obtain ⟨feed, current, allowance, built⟩ := p
  cases allowance with
  | none => rfl
  | some a =>
    have := h a rfl
    simp only [Step.refund, spent, within, Option.map_some, Nat.sub_add_cancel this]

/-! ### Passing tokens -/

@[simp] theorem reads_nil {p q : Parser σ} : p.Reads [] q ↔ q = p := Iff.rfl

theorem reads_refl (p : Parser σ) : p.Reads [] p := rfl

theorem reads_cons {p q : Parser σ} {t : Token} {ts : List Token} :
    p.Reads (t :: ts) q ↔
      (p.current.token = t ∧ t ≠ .eof) ∧ ∃ r, p.next? = some r ∧ r.Reads ts q := Iff.rfl

theorem reads_append {p q : Parser σ} {ts us : List Token} :
    p.Reads (ts ++ us) q ↔ ∃ r, p.Reads ts r ∧ r.Reads us q := by
  induction ts generalizing p with
  | nil => simp
  | cons t ts ih =>
    simp only [List.cons_append, reads_cons, ih]
    constructor
    · rintro ⟨ht, s, hs, r, hr, hq⟩
      exact ⟨r, ⟨ht, s, hs, hr⟩, hq⟩
    · rintro ⟨r, ⟨ht, s, hs, hr⟩, hq⟩
      exact ⟨ht, s, hs, r, hr, hq⟩

/-- The first token apart from the others. -/
theorem reads_cons_iff {p q : Parser σ} {t : Token} {ts : List Token} :
    p.Reads (t :: ts) q ↔ ∃ r, p.Reads [t] r ∧ r.Reads ts q := by
  rw [← List.singleton_append, reads_append]

theorem Reads.append {p q r : Parser σ} {ts us : List Token} (hq : p.Reads ts q)
    (hr : q.Reads us r) : p.Reads (ts ++ us) r :=
  reads_append.2 ⟨q, hq, hr⟩

theorem reads_singleton {p q : Parser σ} {t : Token} :
    p.Reads [t] q ↔ (p.current.token = t ∧ t ≠ .eof) ∧ p.next? = some q := by
  simp [reads_cons]

theorem allowance_of_next? {p q : Parser σ} (h : p.next? = some q) : q.allowance = p.allowance := by
  unfold next? at h
  split at h
  · simp [← Option.some.inj h]
  · simp at h

theorem next?_spent (p : Parser σ) (levels : Nat) :
    (p.spent levels).next? = p.next?.map (·.spent levels) := by
  rw [spent, next?_within]
  cases hnext : p.next? with
  | none => rfl
  | some q => rw [Option.map_some, Option.map_some, spent, allowance_of_next? hnext]

/-- Passing tokens opens no level of nesting. -/
theorem Reads.allowance_eq {p q : Parser σ} {ts : List Token} (h : p.Reads ts q) :
    q.allowance = p.allowance := by
  induction ts generalizing p with
  | nil => rw [reads_nil.1 h]
  | cons t ts ih =>
    obtain ⟨-, r, hr, hq⟩ := reads_cons.1 h
    rw [ih hq, allowance_of_next? hr]

theorem Reads.affords {p q : Parser σ} {ts : List Token} (h : p.Reads ts q) {n : Nat} :
    q.Affords n ↔ p.Affords n := by
  simp [Affords, h.allowance_eq]

/-- Tokens are passed alike at every level of nesting. -/
theorem reads_within {p q : Parser σ} {a : Option Allowance} {ts : List Token} :
    (p.within a).Reads ts q ↔ ∃ r, p.Reads ts r ∧ q = r.within a := by
  induction ts generalizing p with
  | nil => simp
  | cons t ts ih =>
    simp only [reads_cons, current_within, next?_within, Option.map_eq_some_iff]
    constructor
    · rintro ⟨ht, _, ⟨s, hs, rfl⟩, hq⟩
      obtain ⟨r, hr, rfl⟩ := ih.1 hq
      exact ⟨r, ⟨ht, s, hs, hr⟩, rfl⟩
    · rintro ⟨r, ⟨ht, s, hs, hr⟩, rfl⟩
      exact ⟨ht, s.within a, ⟨s, hs, rfl⟩, ih.2 ⟨r, hr, rfl⟩⟩

theorem reads_spent {p q : Parser σ} {levels : Nat} {ts : List Token} :
    (p.spent levels).Reads ts q ↔ ∃ r, p.Reads ts r ∧ q = r.spent levels := by
  refine reads_within.trans (exists_congr fun r => and_congr_right fun hr => ?_)
  rw [spent, hr.allowance_eq]

theorem Reads.spent {p q : Parser σ} {ts : List Token} (h : p.Reads ts q) (levels : Nat) :
    (p.spent levels).Reads ts (q.spent levels) :=
  reads_spent.2 ⟨q, h, rfl⟩

end Parser

namespace Step

variable {σ α β γ : Type}

/-- From the first state, the step succeeds with the result and leaves the second state. -/
def Gives (step : Step σ β) (p : Parser σ) (b : β) (q : Parser σ) : Prop :=
  step.outcome p = some (.ok b, q)

/-! ### Steps in a row -/

@[simp] theorem gives_pure {b c : β} {p q : Parser σ} :
    (pure b : Step σ β).Gives p c q ↔ c = b ∧ q = p := by
  change some (Except.ok b, p) = some (Except.ok c, q) ↔ c = b ∧ q = p
  simp [eq_comm]

@[simp] theorem gives_bind {step : Step σ β} {next : β → Step σ γ} {p q : Parser σ} {c : γ} :
    (step >>= next).Gives p c q ↔ ∃ b r, step.Gives p b r ∧ (next b).Gives r c q := by
  simp only [Gives, outcome_bind]
  cases step.outcome p with
  | none => simp
  | some o =>
    obtain ⟨result, r⟩ := o
    cases result with
    | error e => simp
    | ok b =>
      simp only [Option.some.injEq, Prod.mk.injEq, Except.ok.injEq]
      exact ⟨fun h => ⟨b, r, ⟨rfl, rfl⟩, h⟩, fun ⟨_, _, ⟨hb, hr⟩, h⟩ => hb ▸ hr ▸ h⟩

/-! ### Single steps -/

@[simp] theorem not_gives_exhausted {p q : Parser σ} {b : β} :
    ¬(exhausted : Step σ β).Gives p b q := by
  change ¬none = some (Except.ok b, q)
  simp

@[simp] theorem not_gives_unexpected {expected : List Expectation} {p q : Parser σ} {b : β} :
    ¬(unexpected expected : Step σ β).Gives p b q := by
  change ¬some (Except.error _, p) = some (Except.ok b, q)
  simp

theorem gives_token {p q : Parser σ} {t : Token} :
    token.Gives p t q ↔ t = p.current.token ∧ q = p :=
  gives_pure

/-- Looking at the current token changes nothing. -/
theorem gives_token_bind {next : Token → Step σ β} {p q : Parser σ} {b : β} :
    (token >>= next).Gives p b q ↔ (next p.current.token).Gives p b q := by
  rw [gives_bind]
  constructor
  · rintro ⟨t, r, htoken, h⟩
    obtain ⟨rfl, rfl⟩ := gives_token.1 htoken
    exact h
  · intro h
    exact ⟨_, _, gives_token.2 ⟨rfl, rfl⟩, h⟩

theorem outcome_advance (p : Parser σ) :
    advance.outcome p =
      match p.feed.next with
      | (.ok lexeme, feed) => some (.ok (), { p with feed, current := lexeme })
      | (.error e, feed) => some (.error (.lex e), { p with feed }) := by
  obtain ⟨⟨ahead, ending⟩, current, allowance, built⟩ := p
  cases ahead with
  | nil => cases ending <;> rfl
  | cons item rest => cases item <;> rfl

@[simp] theorem gives_advance {p q : Parser σ} {u : Unit} :
    advance.Gives p u q ↔ p.next? = some q := by
  rw [Gives, outcome_advance, Parser.next?]
  split <;> simp

theorem outcome_putToken (t : Token) (p : Parser σ) :
    (putToken t).outcome p = some (.ok (), { p with current := { p.current with token := t } }) :=
  rfl

theorem gives_putToken_bind {t : Token} {next : Unit → Step σ β} {p q : Parser σ} {b : β} :
    (putToken t >>= next).Gives p b q ↔
      (next ()).Gives { p with current := { p.current with token := t } } b q := by
  rw [Gives, outcome_bind, outcome_putToken]
  rfl

theorem outcome_spend (p : Parser σ) :
    spend.outcome p =
      match p.allowance with
      | none => some (.ok (), p)
      | some a =>
        if a.remaining = 0 then some (.error (.nestingLimit a.limit p.current.position), p)
        else some (.ok (), p.spent 1) := by
  obtain ⟨feed, current, allowance, built⟩ := p
  cases allowance with
  | none => rfl
  | some a =>
    by_cases h : a.remaining = 0
    · simp only [h, if_true]
      change (if a.remaining = 0 then _ else _ : Step σ Unit).outcome _ = _
      rw [if_pos h]
      rfl
    · simp only [h, if_false]
      change (if a.remaining = 0 then _ else _ : Step σ Unit).outcome _ = _
      rw [if_neg h]
      rfl

theorem gives_spend {p q : Parser σ} {u : Unit} :
    spend.Gives p u q ↔ p.Affords 1 ∧ q = p.spent 1 := by
  rw [Gives, outcome_spend]
  obtain ⟨feed, current, allowance, built⟩ := p
  cases allowance with
  | none => simp [Parser.Affords, Parser.spent, Parser.within, eq_comm]
  | some a =>
    simp only [Parser.Affords, Option.some.injEq, forall_eq']
    split
    · simp; omega
    · simp [eq_comm]; omega

/-- Running one level deeper: the level is given back on either exit. -/
theorem outcome_nested (step : Step σ β) (p : Parser σ) :
    (nested step).outcome p =
      match spend.outcome p with
      | none => none
      | some (.error e, q) => some (.error e, q)
      | some (.ok _, q) => (step.outcome q).map fun (result, r) => (result, refund r) := by
  rw [nested, outcome_bind]
  cases spend.outcome p with
  | none => rfl
  | some o =>
    obtain ⟨result, q⟩ := o
    cases result with
    | error e => rfl
    | ok _ =>
      simp only [outcome]
      cases hrun : step.run.run q <;> simp [hrun]

theorem gives_nested {step : Step σ β} {p q : Parser σ} {b : β} :
    (nested step).Gives p b q ↔ p.Affords 1 ∧ ∃ r, step.Gives (p.spent 1) b r ∧ q = refund r := by
  by_cases h : p.Affords 1
  · have hspend : spend.outcome p = some (.ok (), p.spent 1) := gives_spend.2 ⟨h, rfl⟩
    simp only [h, Gives, outcome_nested, hspend, Option.map_eq_some_iff, true_and]
    constructor
    · rintro ⟨⟨result, r⟩, hr, heq⟩
      obtain ⟨rfl, rfl⟩ := Prod.mk.inj heq
      exact ⟨r, hr, rfl⟩
    · rintro ⟨r, hr, rfl⟩
      exact ⟨_, hr, rfl⟩
  · simp only [h, false_and, iff_false]
    intro hgives
    rw [nested, gives_bind] at hgives
    obtain ⟨_, _, hspend, -⟩ := hgives
    exact h (gives_spend.1 hspend).1

/-- Tokens passed one level deeper are passed. -/
theorem reads_of_nested {p r : Parser σ} {ts : List Token} (h : p.Affords 1)
    (hr : (p.spent 1).Reads ts r) : p.Reads ts (refund r) := by
  obtain ⟨s, hs, rfl⟩ := Parser.reads_spent.1 hr
  rwa [Parser.refund_spent (hs.affords.2 h)]

theorem outcome_restoring (step : Step σ β) (p : Parser σ) :
    (restoring step).outcome p =
      match step.outcome p with
      | none => none
      | some (.error e, q) => some (.error e, q)
      | some (.ok b, q) => some (.ok b, q.within p.allowance) := by
  change (step >>= fun b => (do
    modify fun q => { q with allowance := p.allowance }
    return b : Step σ β)).outcome p = _
  rw [outcome_bind]
  cases step.outcome p with
  | none => rfl
  | some o =>
    obtain ⟨result, q⟩ := o
    cases result <;> rfl

theorem gives_restoring {step : Step σ β} {p q : Parser σ} {b : β} :
    (restoring step).Gives p b q ↔ ∃ r, step.Gives p b r ∧ q = r.within p.allowance := by
  simp only [Gives, outcome_restoring]
  cases step.outcome p with
  | none => simp
  | some o =>
    obtain ⟨result, r⟩ := o
    cases result <;> simp [eq_comm, and_assoc]

theorem outcome_make (build : Builder σ α) (node : Node α) (p : Parser σ) :
    (make build node).outcome p =
      some (.ok (build node p.built).1, { p with built := (build node p.built).2 }) := rfl

/-- The builder of trees makes the tree and keeps nothing. -/
@[simp] theorem gives_make {node : Node Expr} {p q : Parser Unit} {e : Expr} :
    (make Expr.builder node).Gives p e q ↔ e = .ofNode node ∧ q = p := by
  rw [Gives, outcome_make]
  change some (Except.ok (Expr.ofNode node), p) = some (Except.ok e, q) ↔ _
  simp [eq_comm]

/-! ### Steps made of these -/

@[simp] theorem gives_pass {wanted : Expectation} {expected : List Expectation} {p q : Parser σ}
    {u : Unit} :
    (pass wanted expected).Gives p u q ↔
      wanted.admits p.current.token = true ∧ p.next? = some q := by
  rw [pass, gives_token_bind]
  split
  · next hadmits => simp [hadmits]
  · next hadmits => simp [hadmits]

theorem admits_symbol {s : Symbol} {t : Token} :
    (Expectation.symbol s).admits t = true ↔ t = .symbol s := by
  cases t <;> simp [Expectation.admits, eq_comm]

theorem admits_endOfInput {t : Token} : Expectation.endOfInput.admits t = true ↔ t = .eof := by
  cases t <;> simp [Expectation.admits]

theorem gives_pass_symbol {s : Symbol} {expected : List Expectation} {p q : Parser σ} {u : Unit} :
    (pass (.symbol s) expected).Gives p u q ↔ p.Reads [.symbol s] q := by
  simp [admits_symbol, Parser.reads_singleton]

/-- Taking a token out and moving past it: what is left in its place does not matter. -/
theorem gives_take {standIn : Token} {b c : β} {p q : Parser σ} :
    (do putToken standIn; advance; return b : Step σ β).Gives p c q ↔
      c = b ∧ p.next? = some q := by
  refine gives_putToken_bind.trans ?_
  simp only [gives_bind, gives_advance, gives_pure]
  constructor
  · rintro ⟨_, s, hnext, rfl, rfl⟩
    exact ⟨rfl, hnext⟩
  · rintro ⟨rfl, hnext⟩
    exact ⟨(), q, hnext, rfl, rfl⟩

theorem gives_takeName {p q : Parser σ} {name : String} :
    takeName.Gives p name q ↔ p.Reads [.identifier name] q := by
  rw [takeName, gives_token_bind, Parser.reads_singleton]
  split
  · next htoken => rw [gives_take, htoken]; simp [eq_comm]
  · next hname => simpa using fun htoken => (hname _ htoken).elim

/-- A key is a name or a string. -/
theorem gives_takeKey {p q : Parser σ} {key : String} :
    takeKey.Gives p key q ↔ p.Reads [.identifier key] q ∨ p.Reads [.string key] q := by
  rw [takeKey, gives_token_bind, Parser.reads_singleton, Parser.reads_singleton]
  split
  · next htoken => rw [gives_take, htoken]; simp [eq_comm]
  · next htoken => rw [gives_take, htoken]; simp [eq_comm]
  · next hname hstring =>
    simpa using ⟨fun htoken => (hname _ htoken).elim, fun htoken => (hstring _ htoken).elim⟩

/-- After an element there is the closing symbol, or a comma that is passed. -/
theorem gives_separator {close : Symbol} {expected : List Expectation} {p q : Parser σ}
    {u : Unit} :
    (separator close expected).Gives p u q ↔
      if p.current.token = .symbol close then q = p else p.Reads [.symbol .comma] q := by
  rw [separator, gives_token_bind]
  split
  · simp
  · simp [admits_symbol, Parser.reads_singleton]

/-- An operand of a single token: the token is passed. -/
theorem gives_leaf {node : Node Expr} {p q : Parser Unit} {e : Expr} :
    (Grammar.leaf Expr.builder node).Gives p e q ↔ e = .ofNode node ∧ p.next? = some q :=
  gives_take

/-- An operand in brackets: the opening bracket is passed, and the rest is run one level
deeper. -/
theorem gives_bracketed {step : Step σ β} {p q : Parser σ} {b : β} :
    (do takeOperand; nested (do advance; step) : Step σ β).Gives p b q ↔
      p.Affords 1 ∧ ∃ s r, p.next? = some s ∧ step.Gives (s.spent 1) b r ∧ q = refund r := by
  refine gives_putToken_bind.trans (gives_nested.trans (and_congr_right fun hone => ?_))
  -- The stand-in for the bracket is gone as soon as the parser moves past it.
  have hnext : (({ p with current := { p.current with token := .eof } } : Parser σ).spent 1).next? =
      p.next?.map (·.spent 1) := Parser.next?_spent p 1
  simp only [gives_bind, gives_advance, hnext, Option.map_eq_some_iff]
  constructor
  · rintro ⟨r, ⟨_, _, ⟨s, hs, rfl⟩, h⟩, rfl⟩
    exact ⟨s, r, hs, h, rfl⟩
  · rintro ⟨s, r, hs, h, rfl⟩
    exact ⟨r, ⟨(), _, ⟨s, hs, rfl⟩, h⟩, rfl⟩

end Step

end Binding
