import Binding.Proofs.Grammar.Phrase
import Binding.Proofs.Parser.Locality
import Binding.Proofs.Token.Written

/-!
# Failing steps

Where a step fails, some tokens have been passed, and either the next one is none of those expected
or there is none that can be read.  This module says what can be known of the tokens that have been
passed: that they are the beginning of a phrase, and that they still are with any of the expected
tokens behind them.

`Stuck pre phrase step p` says this of every failure of the step.  It is a judgement about steps in
a row, read from left to right.  A step that fails has begun its own phrase, and the rest of the
whole phrase can be supplied behind it; a step that succeeds has passed some tokens, and whatever
comes next continues the phrase behind these.  So each phrase of the grammar is judged by the steps
that it consists of.

## The alternative that is refused

One place of the grammar lists a token that it does not take: a colon behind a map entry that has a
value already.  There the judgement says the opposite (`Refuses`): the step fails at the colon, with
the same list.  To carry this outwards, the steps that succeeded before have to succeed again before
the colon, which is what makes locality part of the judgement.

Whether an entry has a value can also be told from the tokens: those before the colon end in a colon
and an expression then.  This may take tokens that were passed before the step, which is why the
judgement has them (`pre`).

## Main definitions

* `Parser.Halts`: the tokens passed before an error.
* `Phrase.Opens`: tokens that can be completed to a phrase.
* `Step.Stuck`: every failure comes behind the beginning of a phrase.
-/

namespace Binding

namespace Phrase

/-- The tokens can be completed to a phrase, with tokens that can be read. -/
def Opens (phrase : List Token → Prop) (us : List Token) : Prop :=
  ∃ vs, (∀ t ∈ vs, t.Readable) ∧ phrase (us ++ vs)

variable {phrase phrase' : List Token → Prop} {us vs : List Token}

theorem opens_self (h : phrase us) : Opens phrase us :=
  ⟨[], by simp, by rwa [List.append_nil]⟩

theorem Opens.of_append (h : Opens phrase (us ++ vs)) (hvs : ∀ t ∈ vs, t.Readable) :
    Opens phrase us := by
  obtain ⟨ws, hws, h⟩ := h
  refine ⟨vs ++ ws, ?_, by rwa [← List.append_assoc]⟩
  intro t ht
  exact (List.mem_append.1 ht).elim (hvs t) (hws t)

theorem Opens.nil {s : Symbol} (h : Opens phrase [.symbol s]) : Opens phrase [] := by
  rw [← List.nil_append [Token.symbol s]] at h
  exact h.of_append (by simp)

/-- The tokens end in a colon and a whole expression, as a map entry with a value does. -/
def EndsInValue (us : List Token) : Prop :=
  ∃ pre vs v, us = pre ++ .symbol .colon :: vs ∧ Expression vs v

theorem EndsInValue.append (h : EndsInValue us) (ts : List Token) : EndsInValue (ts ++ us) := by
  obtain ⟨pre, vs, v, rfl, hv⟩ := h
  exact ⟨ts ++ pre, vs, v, (List.append_assoc ..).symm, hv⟩

theorem EndsInValue.exists_cons (h : EndsInValue us) : ∃ t us', us = t :: us' := by
  obtain ⟨pre, vs, v, rfl, -⟩ := h
  cases pre with
  | nil => exact ⟨_, _, rfl⟩
  | cons t pre => exact ⟨_, _, rfl⟩

end Phrase

open Phrase

namespace Parser

/-- The levels of nesting are not limited, and the feed has an error in it. -/
structure Bounded (p : Parser Unit) : Prop where
  allowance : p.allowance = none
  feed : p.feed.Bounded

theorem Bounded.of_reads {p q : Parser Unit} {ts : List Token} (hp : p.Bounded)
    (h : p.Reads ts q) : q.Bounded := by
  obtain ⟨ls, g, rfl, htakes, -, -⟩ := reads_iff.1 h
  exact ⟨hp.allowance, (hp.feed.of_takes htakes).1⟩

/-- The parser passes the tokens before it meets the error: either none of the expected tokens comes
next, or nothing that can be read. -/
inductive Halts (p : Parser Unit) : List Token → List Expectation → ParseError → Parser Unit → Prop
  | unexpected {us : List Token} {q : Parser Unit} (expected : List Expectation) : p.Reads us q →
    Halts p us expected (.unexpected q.current.token q.current.position expected) q
  | lex {us : List Token} {r : Parser Unit} {e : LexError} {f : Feed} (q : Parser Unit) :
    p.Reads us r → r.current.token ≠ .eof → r.feed.next = (.error e, f) →
      Halts p (us ++ [r.current.token]) [] (.lex e) q

variable {p q r : Parser Unit} {ts us : List Token} {expected : List Expectation} {e : ParseError}

theorem Halts.after (hts : p.Reads ts r) (h : r.Halts us expected e q) :
    p.Halts (ts ++ us) expected e q := by
  cases h with
  | unexpected expected hus => exact .unexpected expected (hts.append hus)
  | lex q hus hne hnext =>
    rw [← List.append_assoc]
    exact .lex q (hts.append hus) hne hnext

/-- An error met one level deeper. -/
theorem Halts.refund (h : p.Halts us expected e r) (hp : p.allowance = none) :
    p.Halts us expected e (Step.refund r) := by
  cases h with
  | unexpected expected hus =>
    rw [Step.refund_of_none (hus.allowance_eq.trans hp)]
    exact .unexpected expected hus
  | lex q hus hne hnext => exact .lex _ hus hne hnext

theorem Halts.of_unexpected {found : Token} {position : Position} {expected' : List Expectation}
    (h : p.Halts us expected (.unexpected found position expected') q) :
    p.Reads us q ∧ found = q.current.token ∧ expected = expected' := by
  cases h with
  | unexpected _ hus => exact ⟨hus, rfl, rfl⟩

theorem Halts.reads {x : Expectation} (h : p.Halts us expected e q) (hx : x ∈ expected) :
    p.Reads us q := by
  cases h with
  | unexpected expected hus => exact hus
  | lex => nomatch hx

end Parser

namespace Step

variable {β γ : Type} {step : Step Unit β} {next : β → Step Unit γ} {p q r : Parser Unit}
  {e : ParseError}

/-- From the first state, the step fails with the error and leaves the second state. -/
def Fails (step : Step Unit β) (p : Parser Unit) (e : ParseError) (q : Parser Unit) : Prop :=
  step.outcome p = some (.error e, q)

theorem fails_bind : (step >>= next).Fails p e q ↔
    step.Fails p e q ∨ ∃ b r, step.Gives p b r ∧ (next b).Fails r e q := by
  simp only [Fails, Gives, outcome_bind]
  cases step.outcome p with
  | none => simp
  | some o =>
    obtain ⟨result, r⟩ := o
    cases result with
    | error e => simp
    | ok b =>
      simp only [Option.some.injEq, Prod.mk.injEq, Except.ok.injEq, reduceCtorEq, false_and,
        false_or]
      constructor
      · intro h
        exact ⟨b, r, ⟨rfl, rfl⟩, h⟩
      · rintro ⟨_, _, ⟨rfl, rfl⟩, h⟩
        exact h

theorem not_fails_pure {b : β} : ¬(pure b : Step Unit β).Fails p e q :=
  fun h => nomatch (show some (Except.ok b, p) = some (.error e, q) from h)

theorem not_fails_exhausted : ¬(exhausted : Step Unit β).Fails p e q :=
  fun h => nomatch (show none = some (Except.error e, q) from h)

theorem outcome_token_bind {next : Token → Step Unit β} :
    (token >>= next).outcome p = (next p.current.token).outcome p := by
  rw [outcome_bind]
  rfl

theorem fails_token_bind {next : Token → Step Unit β} :
    (token >>= next).Fails p e q ↔ (next p.current.token).Fails p e q := by
  rw [Fails, outcome_token_bind, Fails]

theorem fails_spend_bind {next : Unit → Step Unit β} (hp : p.allowance = none) :
    (spend >>= next).Fails p e q ↔ (next ()).Fails p e q := by
  rw [Fails, outcome_bind, outcome_spend_of_none hp, Fails]

theorem fails_nested (hp : p.allowance = none) :
    (nested step).Fails p e q ↔ ∃ r, step.Fails p e r ∧ q = refund r := by
  rw [Fails, outcome_nested_of_none hp, Option.map_eq_some_iff]
  constructor
  · rintro ⟨⟨result, r⟩, hr, heq⟩
    obtain ⟨rfl, rfl⟩ := Prod.mk.inj heq
    exact ⟨r, hr, rfl⟩
  · rintro ⟨r, hr, rfl⟩
    exact ⟨_, hr, rfl⟩

theorem fails_restoring : (restoring step).Fails p e q ↔ step.Fails p e q := by
  simp only [Fails, outcome_restoring]
  cases step.outcome p with
  | none => simp
  | some o =>
    obtain ⟨result, r⟩ := o
    cases result <;> simp

theorem fails_putToken_bind {t : Token} {next : Unit → Step Unit β} :
    (putToken t >>= next).Fails p e q ↔
      (next ()).Fails { p with current := { p.current with token := t } } e q := by
  rw [Fails, outcome_bind, outcome_putToken]
  rfl

theorem fails_unexpected {expected : List Expectation} :
    (unexpected expected : Step Unit β).Fails p e q ↔
      e = .unexpected p.current.token p.current.position expected ∧ q = p := by
  change some (Except.error _, p) = some (Except.error e, q) ↔ _
  simp [eq_comm]

theorem fails_advance : advance.Fails p e q ↔
    ∃ error f, p.feed.next = (.error error, f) ∧ e = .lex error ∧ q = { p with feed := f } := by
  rw [Fails, outcome_advance]
  split
  · next h => simp [h]
  · next error f h => simp [h, eq_comm]

/-! ### The judgement -/

variable {pre ts us : List Token} {phrase phrase' : List Token → Prop} {t : Token}
  {expected : List Expectation}

/-- What may follow an entry of a map, as far as the error tells. -/
def afterEntry : List Expectation :=
  [.symbol .colon, .symbol .comma, .symbol .braceClose]

/-- Wherever the token comes behind the tokens, the step fails at it, unless it runs out of its
budget. -/
def FailsBehind (step : Step Unit β) (us : List Token) (t : Token) (expected : List Expectation) :
    Prop :=
  ∀ p r, p.allowance = none → p.Reads us r → r.current.token = t → step.outcome p ≠ none →
    step.Fails p (.unexpected t r.current.position expected) r

/-- The token is a colon behind an entry of a map that has a value.  It is listed, but the step
fails at it. -/
structure Refuses (step : Step Unit β) (us : List Token) (t : Token)
    (expected : List Expectation) : Prop where
  colon : t = .symbol .colon
  expected_eq : expected = afterEntry
  value : EndsInValue us
  fails : step.FailsBehind us t expected

/-- A phrase can go on with the token.  It is no colon behind an entry that has a value. -/
structure Accepts (pre : List Token) (phrase : List Token → Prop) (us : List Token) (t : Token)
    (expected : List Expectation) : Prop where
  opens : Opens phrase (us ++ [t])
  no_value : t = .symbol .colon → expected = afterEntry → ¬EndsInValue (pre ++ us)

/-- The alternative is a token, and a phrase can go on with each such token, or refuses it. -/
def Offers (pre : List Token) (phrase : List Token → Prop) (step : Step Unit β) (us : List Token)
    (expected : List Expectation) (x : Expectation) : Prop :=
  x ≠ .endOfInput ∧
    ∀ t, x.admits t = true → Accepts pre phrase us t expected ∨ step.Refuses us t expected

/-- The error comes behind the beginning of a phrase, which goes on with what is expected. -/
def Blames (pre : List Token) (phrase : List Token → Prop) (step : Step Unit β) (p : Parser Unit)
    (e : ParseError) (q : Parser Unit) : Prop :=
  ∃ us expected, p.Halts us expected e q ∧ Opens phrase us ∧
    ∀ x ∈ expected, Offers pre phrase step us expected x

/-- Every failure of the step comes behind the beginning of a phrase, which goes on with what is
expected.  Before the phrase, the tokens `pre` have been passed. -/
def Stuck (pre : List Token) (phrase : List Token → Prop) (step : Step Unit β) (p : Parser Unit) :
    Prop :=
  ∀ e q, step.Fails p e q → Blames pre phrase step p e q

/-- A failure behind some tokens, of a step that is part of another one. -/
theorem Blames.lift {step' : Step Unit γ} (h : Blames (pre ++ ts) phrase step r e q)
    (hts : p.Reads ts r) (himp : ∀ ws, phrase ws → Opens phrase' (ts ++ ws))
    (hstep : ∀ us t expected q, r.Reads us q → EndsInValue us → step.FailsBehind us t expected →
      step'.FailsBehind (ts ++ us) t expected) :
    Blames pre phrase' step' p e q := by
  obtain ⟨us, expected, hhalts, hopens, hoffers⟩ := h
  have hlift {us : List Token} (h : Opens phrase us) : Opens phrase' (ts ++ us) := by
    obtain ⟨vs, hvs, h⟩ := h
    have hwhole := himp _ h
    rw [← List.append_assoc] at hwhole
    exact hwhole.of_append hvs
  refine ⟨ts ++ us, expected, hhalts.after hts, hlift hopens, fun x hx => ?_⟩
  obtain ⟨hne, hadmits⟩ := hoffers x hx
  refine ⟨hne, fun t ht => ?_⟩
  rcases hadmits t ht with haccepts | hrefuses
  · left
    refine ⟨?_, ?_⟩
    · rw [List.append_assoc]
      exact hlift haccepts.opens
    · rw [← List.append_assoc]
      exact haccepts.no_value
  · right
    exact ⟨hrefuses.colon, hrefuses.expected_eq, hrefuses.value.append ts,
      hstep us t expected q (hhalts.reads hx) hrefuses.value hrefuses.fails⟩

/-- A failure at the same place, of another step. -/
theorem Blames.mono {step' : Step Unit γ} (h : Blames pre phrase step p e q)
    (himp : ∀ ws, phrase ws → Opens phrase' ws)
    (hstep : ∀ us t expected q, p.Reads us q → EndsInValue us → step.FailsBehind us t expected →
      step'.FailsBehind us t expected) :
    Blames pre phrase' step' p e q := by
  rw [← List.append_nil pre] at h
  exact h.lift p.reads_refl himp hstep

theorem Stuck.imp (h : Stuck pre phrase step p) (himp : ∀ ws, phrase ws → Opens phrase' ws) :
    Stuck pre phrase' step p :=
  fun e q he => (h e q he).mono himp fun _ _ _ _ _ _ hfails => hfails

theorem stuck_exhausted : Stuck pre phrase (exhausted : Step Unit β) p :=
  fun _ _ h => absurd h not_fails_exhausted

theorem stuck_pure (b : β) : Stuck pre phrase (pure b) p :=
  fun _ _ h => absurd h not_fails_pure

/-- A failure of what is done after looking at the current token. -/
theorem Blames.token {next : Token → Step Unit β}
    (h : Blames pre phrase (next p.current.token) p e q) :
    Blames pre phrase (token >>= next) p e q := by
  refine h.mono (fun _ => opens_self) ?_
  intro us t expected q hus hvalue hfails p' r' hp' hus' ht hsome
  -- The refused token is not the current one, so that the same is seen.
  obtain ⟨t', us', rfl⟩ := hvalue.exists_cons
  have htoken : p'.current.token = p.current.token :=
    (Parser.reads_cons.1 hus').1.1.trans (Parser.reads_cons.1 hus).1.1.symm
  rw [outcome_token_bind, htoken] at hsome
  rw [fails_token_bind, htoken]
  exact hfails p' r' hp' hus' ht hsome

theorem stuck_token {next : Token → Step Unit β} (h : Stuck pre phrase (next p.current.token) p) :
    Stuck pre phrase (token >>= next) p :=
  fun e q he => (h e q (fails_token_bind.1 he)).token

theorem stuck_spend {next : Unit → Step Unit β} (hp : p.allowance = none)
    (h : Stuck pre phrase (next ()) p) : Stuck pre phrase (spend >>= next) p := by
  intro e q he
  refine (h e q ((fails_spend_bind hp).1 he)).mono (fun _ => opens_self) ?_
  intro us t expected q _ _ hfails p' r' hp' hus' ht hsome
  rw [outcome_bind, outcome_spend_of_none hp'] at hsome
  rw [fails_spend_bind hp']
  exact hfails p' r' hp' hus' ht hsome

theorem Stuck.nested (h : Stuck pre phrase step p) (hp : p.allowance = none) :
    Stuck pre phrase (nested step) p := by
  intro e q he
  obtain ⟨r, hr, rfl⟩ := (fails_nested hp).1 he
  obtain ⟨us, expected, hhalts, hrest⟩ := h e r hr
  have hblames : Blames pre phrase step p e (refund r) := ⟨us, expected, hhalts.refund hp, hrest⟩
  refine hblames.mono (fun _ => opens_self) ?_
  intro us t expected q _ _ hfails p' r' hp' hus' ht hsome
  rw [outcome_nested_of_none hp', ne_eq, Option.map_eq_none_iff] at hsome
  refine (fails_nested hp').2 ⟨r', hfails p' r' hp' hus' ht hsome, ?_⟩
  rw [refund_of_none (hus'.allowance_eq.trans hp')]

theorem Stuck.restoring (h : Stuck pre phrase step p) : Stuck pre phrase (restoring step) p := by
  intro e q he
  refine (h e q (fails_restoring.1 he)).mono (fun _ => opens_self) ?_
  intro us t expected q _ _ hfails p' r' hp' hus' ht hsome
  refine fails_restoring.2 (hfails p' r' hp' hus' ht fun hnone => hsome ?_)
  rw [outcome_restoring, hnone]

/-- A failure of the first of two steps in a row. -/
theorem Blames.bind (h : Blames pre phrase step p e q) (himp : ∀ ws, phrase ws → Opens phrase' ws) :
    Blames pre phrase' (step >>= next) p e q := by
  refine h.mono himp ?_
  intro us t expected q _ _ hfails p' r' hp' hus' ht hsome
  refine fails_bind.2 (.inl (hfails p' r' hp' hus' ht fun hnone => hsome ?_))
  rw [outcome_bind, hnone]

/-- A failure of the second of two steps in a row. -/
theorem Blames.after {b : β} (hp : p.Bounded) (hlocal : step.Local) (hb : step.Gives p b r)
    (hts : p.Reads ts r) (h : Blames (pre ++ ts) (fun ws => phrase (ts ++ ws)) (next b) r e q) :
    Blames pre phrase (step >>= next) p e q := by
  refine h.lift hts (fun _ => opens_self) ?_
  intro us t expected q hus hvalue hfails p' r' hp' htsus ht hsome
  obtain ⟨s', hts', hus'⟩ := Parser.reads_append.1 htsus
  -- The refused token comes later, so that the first step succeeds as before.
  obtain ⟨t', us', rfl⟩ := hvalue.exists_cons
  have htoken : s'.current.token = r.current.token :=
    (Parser.reads_cons.1 hus').1.1.trans (Parser.reads_cons.1 hus).1.1.symm
  have hb' : step.Gives p' b s' := hlocal.gives hp.allowance hp.feed hb hts hp' hts' htoken
  have houtcome : (step >>= next).outcome p' = (next b).outcome s' := by
    rw [outcome_bind, show step.outcome p' = some (.ok b, s') from hb']
  rw [houtcome] at hsome
  refine fails_bind.2 (.inr ⟨b, s', hb', hfails s' r' ?_ hus' ht hsome⟩)
  rw [hts'.allowance_eq, hp']

/-- **Steps in a row.**  If the first one fails, the whole phrase can be completed behind its own;
if it succeeds, the phrase goes on behind the tokens that it has passed. -/
theorem Stuck.bind (hp : p.Bounded) (hlocal : step.Local) (h : Stuck pre phrase step p)
    (himp : ∀ ws, phrase ws → Opens phrase' ws)
    (hnext : ∀ b r, step.Gives p b r →
      ∃ ts, p.Reads ts r ∧ Stuck (pre ++ ts) (fun ws => phrase' (ts ++ ws)) (next b) r) :
    Stuck pre phrase' (step >>= next) p := by
  intro e q he
  rcases fails_bind.1 he with he | ⟨b, r, hb, he⟩
  · exact (h e q he).bind himp
  · obtain ⟨ts, hts, hstuck⟩ := hnext b r hb
    exact Blames.after hp hlocal hb hts (hstuck e q he)

/-- A step whose result is only put into another form. -/
theorem Stuck.map {f : β → γ} (h : Stuck pre phrase step p) :
    Stuck pre phrase (do let b ← step; return f b) p := by
  intro e q he
  rcases fails_bind.1 he with he | ⟨_, _, -, he⟩
  · exact (h e q he).bind fun _ => opens_self
  · exact absurd he not_fails_pure

/-! ### Single steps -/

/-- Passing a token fails only if nothing can be read behind it. -/
theorem stuck_advance (ht : p.current.token = t) (hne : t ≠ .eof) :
    Stuck pre (· = [t]) advance p := by
  intro e q he
  obtain ⟨error, f, hnext, rfl, rfl⟩ := fails_advance.1 he
  subst ht
  exact ⟨_, [], .lex _ p.reads_refl hne hnext, opens_self rfl, nofun⟩

/-- The next token is passed, and the phrase goes on behind it. -/
theorem stuck_advance_bind {next : Unit → Step Unit β} (hp : p.Bounded)
    (ht : p.current.token = t) (hne : t ≠ .eof) (hopens : Opens phrase [t])
    (hnext : ∀ r, p.Reads [t] r → r.Bounded →
      Stuck (pre ++ [t]) (fun ws => phrase (t :: ws)) (next ()) r) :
    Stuck pre phrase (advance >>= next) p := by
  refine Stuck.bind hp local_advance (stuck_advance ht hne) ?_ fun _ r hr => ?_
  · rintro _ rfl
    exact hopens
  · have hreads : p.Reads [t] r := Parser.reads_singleton.2 ⟨⟨ht, hne⟩, gives_advance.1 hr⟩
    exact ⟨[t], hreads, hnext r hreads (hp.of_reads hreads)⟩

/-- Taking a token out and passing it. -/
theorem stuck_take {standIn : Token} {b : β} (ht : p.current.token = t) (hne : t ≠ .eof) :
    Stuck pre (· = [t]) (do putToken standIn; advance; return b) p := by
  intro e q he
  obtain ⟨error, f, hnext, rfl⟩ : ∃ error f, p.feed.next = (.error error, f) ∧ e = .lex error := by
    rcases fails_bind.1 (fails_putToken_bind.1 he) with he | ⟨_, _, -, he⟩
    · obtain ⟨error, f, hnext, rfl, -⟩ := fails_advance.1 he
      exact ⟨error, f, hnext, rfl⟩
    · exact absurd he not_fails_pure
  subst ht
  exact ⟨_, [], .lex _ p.reads_refl hne hnext, opens_self rfl, nofun⟩

theorem admits_identifier :
    Expectation.identifier.admits t = true ↔ ∃ name, t = .identifier name := by
  cases t <;> simp [Expectation.admits]

theorem admits_string : Expectation.string.admits t = true ↔ ∃ value, t = .string value := by
  cases t <;> simp [Expectation.admits]

theorem stuck_unexpected (hopens : Opens phrase [])
    (hoffers : ∀ x ∈ expected,
      Offers pre phrase (unexpected expected : Step Unit β) [] expected x) :
    Stuck pre phrase (unexpected expected : Step Unit β) p := by
  intro e q he
  obtain ⟨rfl, rfl⟩ := fails_unexpected.1 he
  exact ⟨[], expected, .unexpected expected rfl, hopens, hoffers⟩

/-- Passing a certain symbol, where others might come as well. -/
theorem stuck_pass {s : Symbol} (hopens : Opens phrase [.symbol s])
    (hothers : ∀ x ∈ expected, ∃ s, x = .symbol s ∧ Opens phrase [.symbol s])
    (hvalue : expected = afterEntry → ¬EndsInValue pre) :
    Stuck pre phrase (pass (.symbol s) expected) p := by
  refine stuck_token ?_
  split
  · next hadmits =>
    refine (stuck_advance (admits_symbol.1 hadmits) nofun).imp ?_
    rintro _ rfl
    exact hopens
  · refine stuck_unexpected hopens.nil fun x hx => ?_
    obtain ⟨s', rfl, hopens'⟩ := hothers x hx
    refine ⟨nofun, fun t ht => .inl ?_⟩
    rw [admits_symbol.1 ht]
    exact ⟨hopens', fun _ => by rwa [List.append_nil]⟩

/-- Passing a symbol that comes next. -/
theorem stuck_pass_of_token {s : Symbol} (ht : p.current.token = .symbol s)
    (hopens : Opens phrase [.symbol s]) : Stuck pre phrase (pass (.symbol s) expected) p := by
  refine stuck_token ?_
  rw [if_pos (admits_symbol.2 ht)]
  refine (stuck_advance ht nofun).imp ?_
  rintro _ rfl
  exact hopens

/-- Passing the one symbol expected, and what comes behind it. -/
theorem stuck_expect_bind {s : Symbol} {next : Unit → Step Unit β} (hp : p.Bounded)
    (hopens : Opens phrase [.symbol s])
    (hnext : ∀ r, p.Reads [.symbol s] r → r.Bounded →
      Stuck (pre ++ [.symbol s]) (fun ws => phrase (.symbol s :: ws)) (next ()) r) :
    Stuck pre phrase (expect (.symbol s) >>= next) p := by
  have hothers : ∀ x ∈ [Expectation.symbol s], ∃ s, x = .symbol s ∧ Opens phrase [.symbol s] :=
    List.forall_mem_singleton.2 ⟨s, rfl, hopens⟩
  refine Stuck.bind hp (Grammar.local_pass _ _)
    (stuck_pass hopens hothers (by simp [afterEntry])) (fun _ => opens_self) fun _ r hr => ?_
  have hreads := gives_pass_symbol.1 hr
  exact ⟨_, hreads, hnext r hreads (hp.of_reads hreads)⟩

/-- What comes behind an element: the closing symbol, which is left, or a comma. -/
theorem stuck_separator_bind {close : Symbol} {next : Unit → Step Unit β} (hp : p.Bounded)
    (hcomma : Opens phrase [.symbol .comma])
    (hothers : p.current.token ≠ .symbol close → p.current.token ≠ .symbol .comma →
      (∀ x ∈ expected, ∃ s, x = .symbol s ∧ Opens phrase [.symbol s]) ∧
        (expected = afterEntry → ¬EndsInValue pre))
    (hlast : p.current.token = .symbol close → Stuck pre phrase (next ()) p)
    (hnext : ∀ r, p.Reads [.symbol .comma] r → r.Bounded →
      Stuck (pre ++ [.symbol .comma]) (fun ws => phrase (.symbol .comma :: ws)) (next ()) r) :
    Stuck pre phrase (separator close expected >>= next) p := by
  have hseparator : Stuck pre phrase (separator close expected) p := by
    refine stuck_token ?_
    split
    · exact stuck_pure ()
    · next hclose =>
      by_cases htoken : p.current.token = .symbol .comma
      · exact stuck_pass_of_token htoken hcomma
      · exact stuck_pass hcomma (hothers hclose htoken).1 (hothers hclose htoken).2
  refine Stuck.bind hp (Grammar.local_separator close expected) hseparator (fun _ => opens_self)
    fun _ r hr => ?_
  replace hr := gives_separator.1 hr
  split at hr
  · next hclose =>
    subst hr
    refine ⟨[], r.reads_refl, ?_⟩
    rw [List.append_nil]
    exact hlast hclose
  · exact ⟨_, hr, hnext r hr (hp.of_reads hr)⟩

/-- Behind an element, a token that does not belong there. -/
theorem fails_separator_bind {close : Symbol} {next : Unit → Step Unit β}
    (hclose : p.current.token ≠ .symbol close) (hcomma : p.current.token ≠ .symbol .comma) :
    (separator close expected >>= next).Fails p e q ↔
      e = .unexpected p.current.token p.current.position expected ∧ q = p := by
  have hfails : (separator close expected).outcome p =
      some (.error (.unexpected p.current.token p.current.position expected), p) := by
    rw [separator, outcome_token_bind, if_neg hclose, pass, outcome_token_bind,
      if_neg fun hadmits => hcomma (admits_symbol.1 hadmits)]
    rfl
  rw [Fails, outcome_bind, hfails]
  simp [eq_comm]

/-- Taking a name, and what comes behind it. -/
theorem stuck_takeName_bind {next : String → Step Unit β} (hp : p.Bounded)
    (hopens : ∀ name, Opens phrase [.identifier name])
    (hnext : ∀ name r, p.Reads [.identifier name] r → r.Bounded →
      Stuck (pre ++ [.identifier name]) (fun ws => phrase (.identifier name :: ws)) (next name) r) :
    Stuck pre phrase (takeName >>= next) p := by
  have hname : Stuck pre phrase takeName p := by
    refine stuck_token ?_
    split
    · next name hname =>
      refine (stuck_take hname nofun).imp ?_
      rintro _ rfl
      exact hopens name
    · refine stuck_unexpected ?_ fun x hx => ?_
      · exact Opens.of_append (hopens "a") (by simp)
      · obtain rfl := List.mem_singleton.1 hx
        refine ⟨nofun, fun t ht => .inl ?_⟩
        obtain ⟨name, rfl⟩ := admits_identifier.1 ht
        exact ⟨hopens name, nofun⟩
  refine Stuck.bind hp Grammar.local_takeName hname (fun _ => opens_self) fun name r hr => ?_
  have hreads := gives_takeName.1 hr
  exact ⟨_, hreads, hnext name r hreads (hp.of_reads hreads)⟩

/-- Taking a key, and what comes behind it. -/
theorem stuck_takeKey_bind {next : String → Step Unit β} (hp : p.Bounded)
    (hopens : ∀ t key, t = .identifier key ∨ t = .string key → Opens phrase [t])
    (hclose : Opens phrase [.symbol .braceClose])
    (hnext : ∀ t key r, t = .identifier key ∨ t = .string key → p.Reads [t] r → r.Bounded →
      Stuck (pre ++ [t]) (fun ws => phrase (t :: ws)) (next key) r) :
    Stuck pre phrase (takeKey >>= next) p := by
  have hkey : Stuck pre phrase takeKey p := by
    refine stuck_token ?_
    split
    · next key hkey =>
      refine (stuck_take hkey nofun).imp ?_
      rintro _ rfl
      exact hopens _ key (.inl rfl)
    · next key hkey =>
      refine (stuck_take hkey nofun).imp ?_
      rintro _ rfl
      exact hopens _ key (.inr rfl)
    · refine stuck_unexpected hclose.nil fun x hx => ⟨?_, fun t ht => .inl ?_⟩
      · rintro rfl
        simp at hx
      · simp only [List.mem_cons, List.not_mem_nil, or_false] at hx
        rcases hx with rfl | rfl | rfl
        · obtain ⟨key, rfl⟩ := admits_string.1 ht
          exact ⟨hopens _ key (.inr rfl), nofun⟩
        · obtain ⟨key, rfl⟩ := admits_identifier.1 ht
          exact ⟨hopens _ key (.inl rfl), nofun⟩
        · rw [admits_symbol.1 ht]
          exact ⟨hclose, nofun⟩
  refine Stuck.bind hp Grammar.local_takeKey hkey (fun _ => opens_self) fun key r hr => ?_
  obtain ⟨t, ht, hreads⟩ :
      ∃ t, (t = .identifier key ∨ t = .string key) ∧ p.Reads [t] r := by
    rcases gives_takeKey.1 hr with hr | hr
    · exact ⟨_, .inl rfl, hr⟩
    · exact ⟨_, .inr rfl, hr⟩
  exact ⟨[t], hreads, hnext t key r ht hreads (hp.of_reads hreads)⟩

/-- Where a lexeme comes next, the stand-in for a bracket is gone with the bracket. -/
theorem outcome_bracketed {l : Lexeme} {f : Feed} (hp : p.allowance = none)
    (hnext : p.feed.next = (.ok l, f)) :
    (do takeOperand; nested (do advance; step) : Step Unit β).outcome p =
      (nested (do advance; step)).outcome p := by
  rw [outcome_bind, takeOperand, outcome_putToken]
  change (nested (do advance; step)).outcome
    { p with current := { p.current with token := .eof } } = _
  rw [outcome_nested_of_none hp, outcome_nested_of_none, outcome_bind, outcome_bind,
    outcome_advance, outcome_advance]
  · dsimp only
    rw [hnext]
  · exact hp

/-- A bracket that begins an operand, and what comes behind it, one level deeper. -/
theorem stuck_bracketed (hp : p.Bounded) (ht : p.current.token = t) (hne : t ≠ .eof)
    (hopens : Opens phrase [t])
    (hstep : ∀ r, p.Reads [t] r → r.Bounded →
      Stuck (pre ++ [t]) (fun ws => phrase (t :: ws)) step r) :
    Stuck pre phrase (do takeOperand; nested (do advance; step)) p := by
  intro e q he
  cases hnext : p.feed.next with
  | mk item f =>
    cases item with
    | ok l =>
      have hstuck : Stuck pre phrase (nested (do advance; step)) p :=
        (stuck_advance_bind hp ht hne hopens hstep).nested hp.allowance
      rw [Fails, outcome_bracketed hp.allowance hnext] at he
      refine (hstuck e q he).mono (fun _ => opens_self) ?_
      intro us t expected q _ hvalue hfails p' r' hp' hus' ht hsome
      obtain ⟨t', us', rfl⟩ := hvalue.exists_cons
      obtain ⟨-, s', hs', -⟩ := Parser.reads_cons.1 hus'
      obtain ⟨l', f', hnext', -⟩ := Parser.next?_eq_some_iff.1 hs'
      rw [outcome_bracketed hp' hnext'] at hsome
      rw [Fails, outcome_bracketed hp' hnext']
      exact hfails p' r' hp' hus' ht hsome
    | error error =>
      obtain rfl : e = .lex error := by
        obtain ⟨r, he, -⟩ :=
          (fails_nested (by exact hp.allowance)).1 (fails_putToken_bind.1 he)
        rcases fails_bind.1 he with he | ⟨_, _, hr, -⟩
        · obtain ⟨error', f', hnext', rfl, -⟩ := fails_advance.1 he
          rw [hnext] at hnext'
          cases hnext'
          rfl
        · obtain ⟨l', f', hnext', -⟩ := Parser.next?_eq_some_iff.1 (gives_advance.1 hr)
          rw [hnext] at hnext'
          nomatch hnext'
      subst ht
      exact ⟨_, [], .lex _ p.reads_refl hne hnext, hopens, nofun⟩

end Step

end Binding
