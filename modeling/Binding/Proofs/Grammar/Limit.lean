import Binding.Proofs.Grammar.Acceptance

/-!
# The limit on nesting

A limit on nesting takes sources away and changes nothing else.  A parse under a limit runs in
lockstep with the same parse under a larger limit, or under none, until it exceeds the limit: so it
ends in the same way, or with the error that names the limit.  Which of the two it is depends on the
tree alone, if there is one: it is the number `Expr.need` of levels that decides.

## Main results

* `Expr.parseWithin_eq_or_nestingLimit`: one source under two limits.
* `Expr.parseWithin_full_exact`: the limit is exactly the bound on `Expr.need`.
-/

namespace Binding

theorem Parser.affords_refund {σ : Type} {p : Parser σ} {levels : Nat} :
    (Step.refund p).Affords (levels + 1) ↔ p.Affords levels := by
  obtain ⟨feed, current, allowance, built⟩ := p
  cases allowance <;> simp [Step.refund, Parser.Affords]

namespace Pairing

variable {σ α : Type}

/-- The same parse under two allowances.  The first one is part of the limit, and leaves no more
levels than the second one; exceeding the limit excuses the first run. -/
def tighter (σ α : Type) (limit : Nat) : Pairing σ σ α α where
  states p p' := ∃ allowance, p' = p.within allowance ∧
    ∃ levels, p.allowance = some ⟨limit, levels⟩ ∧ p'.Affords levels
  values := Eq
  errors := Eq
  excused e := ∃ position, e = .nestingLimit limit position

theorem steps_spend_tighter (limit : Nat) :
    (tighter σ α limit).Steps Eq Step.spend Step.spend := by
  rintro p _ ⟨allowance, rfl, levels, hlevels, haffords⟩
  rw [Step.outcome_spend, hlevels]
  dsimp only
  split
  · exact .excused _ _ ⟨_, rfl⟩
  · next hpos =>
    have hone : (p.within allowance).Affords 1 := haffords.mono (Nat.pos_of_ne_zero hpos)
    have hspend : Step.spend.outcome (p.within allowance) =
        some (.ok (), (p.within allowance).spent 1) := Step.gives_spend.2 ⟨hone, rfl⟩
    rw [hspend]
    refine .ok rfl ⟨_, rfl, levels - 1, by simp [Parser.spent, hlevels], ?_⟩
    exact (Parser.affords_spent hone).2 (haffords.mono (by omega))

theorem steps_advance_tighter (limit : Nat) :
    (tighter σ α limit).Steps Eq Step.advance Step.advance := by
  rintro p _ ⟨allowance, rfl, hlevels⟩
  rw [Step.outcome_advance, Step.outcome_advance, Parser.within]
  cases p.feed.next with
  | mk item feed =>
    cases item with
    | error e => exact .error rfl ⟨allowance, rfl, hlevels⟩
    | ok lexeme => exact .ok rfl ⟨allowance, rfl, hlevels⟩

/-- Nothing but spending levels can tell the two runs apart. -/
theorem respected_tighter (limit : Nat) (build : Builder σ α) :
    (tighter σ α limit).Respected build build where
  token := by
    rintro p _ ⟨_, rfl, -⟩
    rfl
  unexpected := by
    rintro expected p _ ⟨_, rfl, -⟩
    rfl
  advance := steps_advance_tighter limit
  putToken t := by
    rintro p _ ⟨allowance, rfl, hlevels⟩
    exact .ok rfl ⟨allowance, rfl, hlevels⟩
  spend := steps_spend_tighter limit
  refund := by
    rintro p _ ⟨allowance, rfl, levels, hlevels, haffords⟩
    exact ⟨_, rfl, levels + 1, by simp [Step.refund, hlevels], Parser.affords_refund.2 haffords⟩
  restore := by
    rintro p q _ _ ⟨allowance, rfl, hlevels⟩ ⟨_, rfl, -⟩
    exact ⟨allowance, rfl, hlevels⟩
  make h := by
    rintro p _ ⟨allowance, rfl, hlevels⟩
    obtain rfl := h.eq
    exact .ok rfl ⟨allowance, rfl, hlevels⟩

/-- The first run ends as the second one does, or exceeds the limit. -/
theorem Matched.eq_or_nestingLimit {limit : Nat} {r r' : Except ParseError α × Parser σ}
    (h : (tighter σ α limit).Matched Eq (some r) (some r')) :
    r.1 = r'.1 ∨ ∃ position, r.1 = .error (.nestingLimit limit position) := by
  cases h with
  | excused _ _ he =>
    obtain ⟨position, rfl⟩ := he
    exact .inr ⟨position, rfl⟩
  | error he _ => exact .inl (congrArg Except.error he)
  | ok hb _ => exact .inl (congrArg Except.ok hb)

end Pairing

namespace Expr

/-- **One source under two limits.**  Under the smaller one it ends in the same way as under the
larger one, or none, unless it exceeds the smaller one. -/
theorem parseWithin_eq_or_nestingLimit (limit : Nat) (allowance : Option Allowance)
    (source : String) (hle : ∀ a, allowance = some a → limit ≤ a.remaining) :
    parseWithin (some (.full limit)) source = parseWithin allowance source ∨
      ∃ position, parseWithin (some (.full limit)) source =
        .error (.nestingLimit limit position) := by
  simp only [parseWithin, Parser.run, Parser.ofSource, Parser.ofFeed]
  cases (Feed.ofSource source).next with
  | mk item feed =>
    cases item with
    | error e => exact .inl rfl
    | ok lexeme =>
      have hstates : (Pairing.tighter Unit Expr limit).states
          ⟨feed, lexeme, some (.full limit), ()⟩ ⟨feed, lexeme, allowance, ()⟩ :=
        ⟨allowance, rfl, limit, rfl, hle⟩
      exact (Parser.matched_parse (Pairing.respected_tighter limit builder)
        hstates).eq_or_nestingLimit

/-- Under a limit a source has the tree that it has without one, if the tree fits. -/
theorem parseWithin_full_eq_ok_iff {limit : Nat} {source : String} {e : Expr} :
    parseWithin (some (.full limit)) source = .ok e ↔
      parseWithin none source = .ok e ∧ e.need ≤ limit := by
  rw [parseWithin_eq_ok_iff, parseWithin_eq_ok_iff]
  constructor
  · rintro ⟨ts, hts, he, hneed⟩
    exact ⟨⟨ts, hts, he, nofun⟩, hneed _ rfl⟩
  · rintro ⟨⟨ts, hts, he, -⟩, hneed⟩
    refine ⟨ts, hts, he, fun a ha => ?_⟩
    cases ha
    exact hneed

/-- **The limit is exactly a bound on the levels that the tree needs.**  If a source has a tree
without a limit, it has the same tree under the limit if the tree needs no more levels, and exceeds
the limit otherwise.  If it has none, it fails with the same error, or exceeds the limit.  So what
does not exceed a limit is the same under every larger one. -/
theorem parseWithin_full_exact (limit : Nat) (source : String) :
    (match parseWithin none source with
      | .ok e =>
        if e.need ≤ limit then parseWithin (some (.full limit)) source = .ok e
        else ∃ position, parseWithin (some (.full limit)) source =
          .error (.nestingLimit limit position)
      | .error error =>
        parseWithin (some (.full limit)) source = .error error ∨
          ∃ position, parseWithin (some (.full limit)) source =
            .error (.nestingLimit limit position)) ∧
    ∀ larger, limit ≤ larger →
      (∀ position, parseWithin (some (.full limit)) source ≠
        .error (.nestingLimit limit position)) →
      parseWithin (some (.full larger)) source = parseWithin (some (.full limit)) source := by
  constructor
  · have hor := parseWithin_eq_or_nestingLimit limit none source nofun
    split
    · next e he =>
      split
      · next hneed => exact parseWithin_full_eq_ok_iff.2 ⟨he, hneed⟩
      · next hneed =>
        rw [he] at hor
        exact hor.resolve_left fun h => hneed (parseWithin_full_eq_ok_iff.1 h).2
    · next error herror => rwa [herror] at hor
  · intro larger hle hne
    have hor := parseWithin_eq_or_nestingLimit limit (some (.full larger)) source
      fun a ha => by cases ha; exact hle
    exact (hor.resolve_right fun ⟨position, h⟩ => hne position h).symm

/-- Parentheses in a sum need two levels; a third one for a limit makes no difference. -/
theorem parseWithin_full_two :
    2 ≤ 3 ∧ (∀ position, parseWithin (some (.full 2)) "a+(b)" ≠ .error (.nestingLimit 2 position)) ∧
      parseWithin (some (.full 3)) "a+(b)" = parseWithin (some (.full 2)) "a+(b)" := by
  have hparse : parseWithin (some (.full 2)) "a+(b)" =
      .ok (.binary .add (.identifier "a") (.paren (.identifier "b"))) := by
    decide +kernel
  have hne (position : Position) :
      parseWithin (some (.full 2)) "a+(b)" ≠ .error (.nestingLimit 2 position) := by
    rw [hparse]
    nofun
  exact ⟨by decide, hne, (parseWithin_full_exact 2 "a+(b)").2 3 (by decide) hne⟩

end Expr

end Binding
