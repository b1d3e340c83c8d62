import Binding.Proofs.Parser.PostOrder
import Binding.Proofs.Parser.Reuse

/-!
# The levels of nesting that calls leave

A parser carries the levels of nesting that it may still open from one call to the next.  They are
given back in two ways.  `Step.nested` gives back its level on every exit; `Step.restoring` gives
back the levels of a whole chain, but only where the chain succeeds.  So a call that fails inside
chains leaves fewer levels than it found, how many fewer depends on where it has failed, and no
later call gives them back.

No call wins a level.  That is not obvious of `Step.nested`, which adds a level to what its step
has left: the sum is bounded because this level was taken before the step, and because the step
itself has won none (`Parser.Covers.refund`).  With that, the bound is an invariant of single steps
and comes for every phrase and every call from `Coupling.phrases`, under a coupling that looks at
the first of the two runs only.

That a call which succeeds leaves all the levels it found is not one of these invariants, since a
link of a chain keeps its level until the chain has ended.  It holds because such a call has
passed tokens, one after another, and done nothing else (`Call.finds_of_apply`); soundness of the
grammar also says that the levels it found are enough for its tree.

## Main definitions

* `Parser.Covers`: one parser has no more levels left than another one.

## Main results

* `Call.covers_apply`, `Parser.covers_afterCalls`: no call, and no session, wins a level.
* `Call.exists_tree_of_apply`: a call that succeeds leaves the levels that it found, and they are
  enough for its tree.
* `Call.apply_conserves_allowance`: both together, for every call of a session.
-/

namespace Binding

/-! ### Fewer levels -/

namespace Parser

variable {σ : Type} {p q r : Parser σ}

/-- The second parser has the limit of the first one, if there is a limit, and no more levels
left. -/
def Covers (p q : Parser σ) : Prop :=
  ∀ a, p.allowance = some a → ∃ levels, levels ≤ a.remaining ∧ q.allowance = some ⟨a.limit, levels⟩

theorem covers_of_allowance_eq (h : q.allowance = p.allowance) : p.Covers q :=
  fun a ha => ⟨a.remaining, Nat.le_refl _, h.trans ha⟩

theorem covers_refl (p : Parser σ) : p.Covers p :=
  covers_of_allowance_eq rfl

theorem Covers.trans (hq : p.Covers q) (hr : q.Covers r) : p.Covers r := by
  intro a ha
  obtain ⟨m, hm, hq⟩ := hq a ha
  obtain ⟨n, hn, hr⟩ := hr _ hq
  exact ⟨n, Nat.le_trans hn hm, hr⟩

theorem covers_spent (p : Parser σ) (levels : Nat) : p.Covers (p.spent levels) :=
  fun a ha => ⟨a.remaining - levels, Nat.sub_le _ _, by simp [spent, ha]⟩

/-- **A level that is given back was taken before.** -/
theorem Covers.refund (hone : p.Affords 1) (h : (p.spent 1).Covers q) :
    p.Covers (Step.refund q) := by
  intro a ha
  have hspent : (p.spent 1).allowance = some ⟨a.limit, a.remaining - 1⟩ := by simp [spent, ha]
  obtain ⟨levels, hle, hq⟩ := h _ hspent
  have hpos : 1 ≤ a.remaining := hone a ha
  exact ⟨levels + 1, Nat.add_le_of_le_sub hpos hle, by simp [Step.refund, hq]⟩

end Parser

/-! ### Single steps -/

namespace Step

variable {σ α β γ : Type}

/-- What comes out leaves no more levels than the parser has; a result satisfies the condition. -/
inductive Thrifty (p : Parser σ) (post : β → Prop) :
    Option (Except ParseError β × Parser σ) → Prop
  | exhausted : Thrifty p post none
  | error {q : Parser σ} (e : ParseError) : p.Covers q → Thrifty p post (some (.error e, q))
  | ok {q : Parser σ} {b : β} : p.Covers q → post b → Thrifty p post (some (.ok b, q))

/-- From every state, the step leaves no more levels than it has found. -/
def WinsNone (step : Step σ β) (post : β → Prop) : Prop :=
  ∀ p, Thrifty p post (step.outcome p)

theorem Thrifty.trans {p q : Parser σ} {post : β → Prop}
    {o : Option (Except ParseError β × Parser σ)} (hq : p.Covers q) (h : Thrifty q post o) :
    Thrifty p post o := by
  cases h with
  | exhausted => exact .exhausted
  | error e hr => exact .error e (hq.trans hr)
  | ok hr hb => exact .ok (hq.trans hr) hb

variable {step : Step σ β} {post : β → Prop}

theorem WinsNone.bind {next : β → Step σ γ} {post' : γ → Prop} (h : step.WinsNone post)
    (hnext : ∀ b, post b → (next b).WinsNone post') : (step >>= next).WinsNone post' := by
  intro p
  rw [outcome_bind]
  have hstep := h p
  generalize step.outcome p = o at hstep ⊢
  cases hstep with
  | exhausted => exact .exhausted
  | error e hq => exact .error e hq
  | ok hq hb => exact (hnext _ hb _).trans hq

theorem winsNone_advance {post : Unit → Prop} (h : post ()) :
    (advance : Step σ Unit).WinsNone post := by
  intro p
  rw [outcome_advance]
  split
  · exact .ok (Parser.covers_of_allowance_eq rfl) h
  · exact .error _ (Parser.covers_of_allowance_eq rfl)

/-- Opening a level fails and changes nothing, or it takes a level that is left. -/
theorem outcome_spend_cases (p : Parser σ) :
    (∃ e, spend.outcome p = some (.error e, p)) ∨
      p.Affords 1 ∧ spend.outcome p = some (.ok (), p.spent 1) := by
  by_cases hone : p.Affords 1
  · exact .inr ⟨hone, gives_spend.2 ⟨hone, rfl⟩⟩
  · obtain ⟨a, ha, hnone⟩ : ∃ a, p.allowance = some a ∧ ¬1 ≤ a.remaining := by
      simpa [Parser.Affords] using hone
    have hzero : a.remaining = 0 := Nat.eq_zero_of_not_pos hnone
    exact .inl ⟨_, by rw [outcome_spend, ha]; exact if_pos hzero⟩

theorem winsNone_spend {post : Unit → Prop} (h : post ()) :
    (spend : Step σ Unit).WinsNone post := by
  intro p
  obtain ⟨e, hspend⟩ | ⟨-, hspend⟩ := outcome_spend_cases p
  · exact hspend ▸ .error e p.covers_refl
  · exact hspend ▸ .ok (p.covers_spent 1) h

/-- The level is added to what the step has left. -/
theorem WinsNone.nested (h : step.WinsNone post) : (nested step).WinsNone post := by
  intro p
  rw [outcome_nested]
  obtain ⟨e, hspend⟩ | ⟨hone, hspend⟩ := outcome_spend_cases p
  · rw [hspend]
    exact .error e p.covers_refl
  · rw [hspend]
    have hstep := h (p.spent 1)
    dsimp only
    generalize step.outcome (p.spent 1) = o at hstep ⊢
    cases hstep with
    | exhausted => exact .exhausted
    | error e hq => exact .error e (hq.refund hone)
    | ok hq hb => exact .ok (hq.refund hone) hb

/-- What is given back is what was there before the step. -/
theorem WinsNone.restoring (h : step.WinsNone post) : (restoring step).WinsNone post := by
  intro p
  rw [outcome_restoring]
  have hstep := h p
  generalize step.outcome p = o at hstep ⊢
  cases hstep with
  | exhausted => exact .exhausted
  | error e hq => exact .error e hq
  | ok _ hb => exact .ok (Parser.covers_of_allowance_eq rfl) hb

/-- No phrase wins a level: the coupling looks at the first of two runs only. -/
def thrift (build : Builder σ α) : Coupling build build where
  World := Unit
  Made _ _ _ _ := True
  Runs _ post step _ := step.WinsNone fun b => ∃ b', post () b b'
  runs_pure hpost := fun p => .ok p.covers_refl ⟨_, hpost⟩
  runs_bind h hnext := h.bind fun b ⟨b', hb⟩ => hnext () b b' hb
  runs_exhausted _ := fun _ => .exhausted
  runs_token := fun p => .ok p.covers_refl ⟨_, rfl, rfl⟩
  runs_unexpected _ := fun p => .error _ p.covers_refl
  runs_advance := winsNone_advance ⟨(), rfl, rfl⟩
  runs_putToken _ := fun _ => .ok (Parser.covers_of_allowance_eq rfl) ⟨(), rfl, rfl⟩
  runs_spend := winsNone_spend ⟨(), rfl, rfl⟩
  runs_nested h := h.nested
  runs_restoring h := h.restoring
  runs_make {_ _ node _} _ := fun p =>
    .ok (Parser.covers_of_allowance_eq rfl) ⟨(build node p.built).1, trivial⟩

end Step

/-! ### Calls -/

section Calls

variable {σ α : Type} {build : Builder σ α} {call : Call}

/-- **No call wins a level,** whether it succeeds or fails. -/
theorem Call.covers_apply (build : Builder σ α) (call : Call) (p : Parser σ) :
    p.Covers (call.apply build p).2 := by
  have hthrifty := runs_step (Step.thrift build) call (Nat.le_refl (Grammar.budget p)) () p
  rw [outcome_step build call p (Nat.le_refl _)] at hthrifty
  generalize call.apply build p = r at hthrifty ⊢
  cases hthrifty with
  | error e hq => exact hq
  | ok hq _ => exact hq

/-- **No session wins a level.** -/
theorem Parser.covers_afterCalls (build : Builder σ α) (p : Parser σ) (calls : List Call) :
    p.Covers (p.afterCalls build calls) := by
  induction calls generalizing p with
  | nil => exact covers_of_allowance_eq rfl
  | cons call calls ih => exact (call.covers_apply build p).trans (ih _)

namespace Call

/-- A call that gives a tree leaves the levels that it found, and they are enough for the tree. -/
theorem allowance_of_apply {p : Parser Unit} {t : Expr}
    (h : (call.apply Expr.builder p).1 = .ok t) :
    (call.apply Expr.builder p).2.allowance = p.allowance ∧ p.Affords t.need := by
  obtain ⟨ts, r, hreads, -, haffords, hend⟩ := finds_of_apply h
  refine ⟨?_, haffords⟩
  rw [← hreads.allowance_eq]
  cases call with
  | parse =>
    rcases hend.2 with hsame | hnext
    · rw [hsame]
    · exact Parser.allowance_of_next? hnext
  | parseExpression => rw [hend.2]

/-- **A call that succeeds has a tree.**  What the call gives is what the builder makes of the tree;
the call leaves the levels that it found, and they are enough for the tree. -/
theorem exists_tree_of_apply {p : Parser σ} {a : α} (h : (call.apply build p).1 = .ok a) :
    ∃ t, (call.apply Expr.builder p.plain).1 = .ok t ∧
      t.traverse build p.built = (a, (call.apply build p).2.built) ∧
      (call.apply build p).2.allowance = p.allowance ∧ p.Affords t.need := by
  have hagree := Expr.agree_apply build call p
  have hplain : ∀ t, (call.apply Expr.builder p.plain).1 = .ok t →
      (call.apply Expr.builder p.plain).2.allowance = p.plain.allowance ∧
        p.plain.Affords t.need := fun _ => allowance_of_apply
  generalize call.apply build p = r, call.apply Expr.builder p.plain = r' at h hagree hplain ⊢
  cases hagree with
  | error e _ => nomatch h
  | ok _ ht =>
    obtain rfl := Except.ok.inj h
    obtain ⟨hallowance, haffords⟩ := hplain _ rfl
    exact ⟨_, rfl, ht, hallowance, haffords⟩

/-- **Levels of nesting are conserved.**  Before and after every call of a session, the levels left
are at most the limit.  A call that fails leaves no more levels than it found.  A call that succeeds
leaves as many as it found, and its tree needs no more than these. -/
theorem apply_conserves_allowance {source : String} {limit : Nat} {built : σ} {p₀ p : Parser σ}
    {earlier : List Call}
    (hstart : Parser.ofSource source (some (.full limit)) built = .ok p₀)
    (hp : p₀.afterCalls build earlier = p) (call : Call) :
    ∃ before after, p.allowance = some ⟨limit, before⟩ ∧
      (call.apply build p).2.allowance = some ⟨limit, after⟩ ∧
      before ≤ limit ∧ after ≤ before ∧
      ∀ a, (call.apply build p).1 = .ok a → after = before ∧
        ∃ t, (call.apply Expr.builder p.plain).1 = .ok t ∧
          t.traverse build p.built = (a, (call.apply build p).2.built) ∧ t.need ≤ before := by
  have hfull := Parser.allowance_of_ofFeed hstart
  obtain ⟨before, hbefore, hfound⟩ := hp ▸ p₀.covers_afterCalls build earlier _ hfull
  obtain ⟨after, hafter, hleft⟩ := call.covers_apply build p _ hfound
  refine ⟨before, after, hfound, hleft, hbefore, hafter, fun a ha => ?_⟩
  obtain ⟨t, ht, htraverse, hallowance, haffords⟩ := exists_tree_of_apply ha
  rw [hleft, hfound] at hallowance
  exact ⟨congrArg Allowance.remaining (Option.some.inj hallowance), t, ht, htraverse,
    haffords _ hfound⟩

/-- An index that is not closed keeps its level.  The next call finds one level less, which is
enough for a negation, and leaves it. -/
theorem apply_behind_open_index :
    ∃ p₀, Parser.ofSource "a[b !c" (some (.full 2)) () = .ok p₀ ∧
      p₀.results Expr.builder [.parse, .parse] =
        [.error (.unexpected (.symbol .bang) ⟨4, 1, 5⟩ [.symbol .bracketClose]),
          .ok (.unary .not (.identifier "c"))] ∧
      (p₀.afterCalls Expr.builder [.parse]).allowance = some ⟨2, 1⟩ ∧
      (p₀.afterCalls Expr.builder [.parse, .parse]).allowance = some ⟨2, 1⟩ ∧
      (Expr.unary .not (.identifier "c")).need ≤ 1 := by
  have hmap : (Parser.ofSource "a[b !c" (some (.full 2)) ()).map (fun p₀ =>
      (p₀.results Expr.builder [.parse, .parse],
        (p₀.afterCalls Expr.builder [.parse]).allowance)) =
      .ok ([.error (.unexpected (.symbol .bang) ⟨4, 1, 5⟩ [.symbol .bracketClose]),
        .ok (.unary .not (.identifier "c"))], some ⟨2, 1⟩) := by
    decide +kernel
  cases hstart : Parser.ofSource "a[b !c" (some (.full 2)) () with
  | error e =>
    rw [hstart] at hmap
    nomatch hmap
  | ok p₀ =>
    rw [hstart] at hmap
    obtain ⟨hresults, hone⟩ := Prod.mk.inj (Except.ok.inj hmap)
    obtain ⟨before, after, hbefore, hafter, -, -, hok⟩ :=
      apply_conserves_allowance (p := p₀.afterCalls Expr.builder [.parse]) hstart rfl .parse
    obtain rfl : 1 = before :=
      congrArg Allowance.remaining (Option.some.inj (hone.symm.trans hbefore))
    obtain ⟨-, htail⟩ := List.cons.inj hresults
    have hsecond := (List.cons.inj htail).1
    obtain ⟨rfl, t, ht, -, hneed⟩ := hok _ hsecond
    obtain rfl := Except.ok.inj (ht.symm.trans hsecond)
    exact ⟨p₀, rfl, hresults, hone, hafter, hneed⟩

end Call

end Calls

end Binding
