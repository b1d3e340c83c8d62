import Binding.Parser.Grammar

/-!
# Every phrase moves the parser on

A phrase that has been parsed has used up lexemes, and a loop that goes round once more has used
up lexemes too.  So the budget that the steps of the grammar need is bounded by the number of
lexemes that are left: `Grammar.budget`, which is `7 * size + 5`, is enough for a whole input.

## Main definitions

`Step.Ensures` is the statement that a step does not run out of its budget, and that its result and
the state after it satisfy a condition if the step succeeds.

## Main results

`Grammar.enough` collects, for every phrase, the budget that is enough and how far the phrase
moves on.  `Grammar.isSome_ternary` and `Grammar.isSome_whole` are what the entry points need.

## Implementation notes

The budgets differ by phrase because phrases call tighter phrases without passing a lexeme: an
operand needs `7 * size + 1`, and every looser phrase one more.  A call behind a passed lexeme has
a size that is smaller by one, hence seven to spare, and seven is more than the longest chain of
calls from one lexeme to the same phrase again.
-/

namespace Binding

namespace Step

variable {σ α β γ : Type}

/-- From the state, the step stays within its budget; if it succeeds, its result and the state
after it satisfy the condition. -/
def Ensures (step : Step σ β) (p : Parser σ) (post : β → Parser σ → Prop) : Prop :=
  ∃ result p', step.outcome p = some (result, p') ∧ ∀ b, result = .ok b → post b p'

theorem Ensures.mono {step : Step σ β} {p : Parser σ} {post post' : β → Parser σ → Prop}
    (h : step.Ensures p post) (himp : ∀ b p', post b p' → post' b p') :
    step.Ensures p post' := by
  obtain ⟨result, p', hrun, hpost⟩ := h
  exact ⟨result, p', hrun, fun b hb => himp b p' (hpost b hb)⟩

theorem Ensures.isSome {step : Step σ β} {p : Parser σ} {post : β → Parser σ → Prop}
    (h : step.Ensures p post) : (step.outcome p).isSome = true := by
  obtain ⟨_, _, hrun, -⟩ := h
  simp [hrun]

theorem ensures_pure {b : β} {p : Parser σ} {post : β → Parser σ → Prop} (h : post b p) :
    (pure b : Step σ β).Ensures p post :=
  ⟨.ok b, p, rfl, fun _ hb => Except.ok.inj hb ▸ h⟩

theorem outcome_bind (step : Step σ β) (next : β → Step σ γ) (p : Parser σ) :
    (step >>= next).outcome p =
      match step.outcome p with
      | none => none
      | some (.ok b, p') => (next b).outcome p'
      | some (.error e, p') => some (.error e, p') := by
  simp only [outcome, ExceptT.run_bind, StateT.run_bind]
  cases step.run.run p with
  | none => rfl
  | some r =>
    obtain ⟨result, p'⟩ := r
    cases result <;> rfl

/-- One step after another: the condition on the first is that the second then ensures its own. -/
theorem ensures_bind {step : Step σ β} {next : β → Step σ γ} {p : Parser σ}
    {post : γ → Parser σ → Prop} (h : step.Ensures p fun b p' => (next b).Ensures p' post) :
    (step >>= next).Ensures p post := by
  obtain ⟨result, p', hrun, hmid⟩ := h
  cases result with
  | error e => exact ⟨.error e, p', by rw [outcome_bind, hrun], by simp⟩
  | ok b =>
    obtain ⟨result', p'', hrun', hpost⟩ := hmid b rfl
    exact ⟨result', p'', by rw [outcome_bind, hrun, ← hrun'], hpost⟩

/-! ### The single steps -/

theorem ensures_token {p : Parser σ} {post : Token → Parser σ → Prop}
    (h : post p.current.token p) : token.Ensures p post :=
  ⟨.ok p.current.token, p, rfl, fun _ hb => Except.ok.inj hb ▸ h⟩

theorem ensures_unexpected (expected : List Expectation) (p : Parser σ)
    (post : β → Parser σ → Prop) : (unexpected expected).Ensures p post :=
  ⟨.error (.unexpected p.current.token p.current.position expected), p, rfl, by simp⟩

/-- Moving on leaves no more lexemes than there were behind the current one. -/
theorem ensures_advance {p : Parser σ} {post : Unit → Parser σ → Prop}
    (h : ∀ p' : Parser σ, p'.size ≤ p.feed.ahead.length → post () p') :
    advance.Ensures p post := by
  obtain ⟨⟨ahead, ending⟩, current, allowance, built⟩ := p
  cases ahead with
  | nil =>
    cases ending with
    | finished position =>
      exact ⟨.ok (), ⟨⟨[], .finished position⟩, ⟨.eof, "", position⟩, allowance, built⟩, rfl,
        fun _ _ => h _ (by simp [Parser.size])⟩
    | stuck error =>
      exact ⟨.error (.lex error), ⟨⟨[], .stuck error⟩, current, allowance, built⟩, rfl, by simp⟩
  | cons item rest =>
    cases item with
    | ok lexeme =>
      refine ⟨.ok (), ⟨⟨rest, ending⟩, lexeme, allowance, built⟩, rfl, fun _ _ => h _ ?_⟩
      simp only [Parser.size, List.length_cons]
      split <;> omega
    | error e => exact ⟨.error (.lex e), ⟨⟨rest, ending⟩, current, allowance, built⟩, rfl, by simp⟩

theorem ensures_putToken {t : Token} {p : Parser σ} {post : Unit → Parser σ → Prop}
    (h : ∀ p', p'.feed = p.feed → p'.current.token = t → post () p') :
    (putToken t).Ensures p post :=
  ⟨.ok (), _, rfl, fun _ _ => h _ rfl rfl⟩

theorem ensures_pass {wanted : Expectation} {expected : List Expectation} {p : Parser σ}
    {post : Unit → Parser σ → Prop}
    (h : wanted.admits p.current.token = true →
      ∀ p' : Parser σ, p'.size ≤ p.feed.ahead.length → post () p') :
    (pass wanted expected).Ensures p post := by
  refine ensures_bind (ensures_token ?_)
  split
  · next hadmits => exact ensures_advance (h hadmits)
  · exact ensures_unexpected _ _ _

theorem ensures_make {build : Builder σ α} {node : Node α} {p : Parser σ}
    {post : α → Parser σ → Prop}
    (h : ∀ a p', p'.feed = p.feed → p'.current = p.current → post a p') :
    (make build node).Ensures p post :=
  ⟨.ok (build node p.built).1, { p with built := (build node p.built).2 }, rfl,
    fun _ _ => h _ _ rfl rfl⟩

theorem ensures_spend {p : Parser σ} {post : Unit → Parser σ → Prop}
    (h : ∀ p', p'.feed = p.feed → p'.current = p.current → post () p') :
    spend.Ensures p post := by
  obtain ⟨feed, current, allowance, built⟩ := p
  cases allowance with
  | none => exact ⟨.ok (), _, rfl, fun _ _ => h _ rfl rfl⟩
  | some a =>
    refine ensures_bind ?_
    refine ⟨.ok _, _, rfl, fun _ hb => ?_⟩
    obtain rfl := Except.ok.inj hb
    dsimp only
    split
    · exact ⟨.error _, _, rfl, by simp⟩
    · exact ⟨.ok (), _, rfl, fun _ _ => h _ rfl rfl⟩

/-- A step one level deeper gets as far as the step itself. -/
theorem ensures_nested {step : Step σ β} {p : Parser σ} {bound : Nat}
    (h : ∀ p₁ : Parser σ, p₁.feed = p.feed → p₁.current = p.current →
      step.Ensures p₁ fun _ p' => p'.size < bound) :
    (nested step).Ensures p fun _ p' => p'.size < bound := by
  refine ensures_bind (ensures_spend fun p₁ hfeed hcurrent => ?_)
  obtain ⟨result, p', hrun, hb⟩ := h p₁ hfeed hcurrent
  refine ⟨result, refund p', ?_, fun b hok => hb b hok⟩
  simp only [outcome] at hrun
  simp [outcome, hrun]

/-- Giving levels back does not move the parser. -/
theorem ensures_restoring {step : Step σ β} {p : Parser σ} {bound : Nat}
    (h : step.Ensures p fun _ p' => p'.size ≤ bound) :
    (restoring step).Ensures p fun _ p' => p'.size ≤ bound := by
  refine ensures_bind ?_
  refine ⟨.ok p, p, rfl, fun _ hp => ?_⟩
  obtain rfl := Except.ok.inj hp
  refine ensures_bind (h.mono fun b p' hb => ?_)
  refine ensures_bind ?_
  exact ⟨.ok (), _, rfl, fun _ _ => ensures_pure hb⟩

end Step

namespace Grammar

open Step

variable {σ α : Type} (build : Builder σ α)

/-- A budget is enough for every phrase, and every phrase moves on. -/
structure Enough (budget : Nat) : Prop where
  ternary (p : Parser σ) : 7 * p.size + 5 ≤ budget →
    (ternary build budget).Ensures p fun _ p' => p'.size < p.size
  binary (least : Nat) (p : Parser σ) : 7 * p.size + 4 ≤ budget →
    (binary build budget least).Ensures p fun _ p' => p'.size < p.size
  binaryChain (least : Nat) (left : α) (p : Parser σ) : 7 * p.size + 1 ≤ budget →
    (binaryChain build budget least left).Ensures p fun _ p' => p'.size ≤ p.size
  unary (p : Parser σ) : 7 * p.size + 3 ≤ budget →
    (unary build budget).Ensures p fun _ p' => p'.size < p.size
  access (p : Parser σ) : 7 * p.size + 2 ≤ budget →
    (access build budget).Ensures p fun _ p' => p'.size < p.size
  accessChain (receiver : α) (p : Parser σ) : 7 * p.size + 2 ≤ budget →
    (accessChain build budget receiver).Ensures p fun _ p' => p'.size ≤ p.size
  arguments (p : Parser σ) : 7 * p.size + 1 ≤ budget →
    (arguments build budget).Ensures p fun _ p' => p'.size < p.size
  argumentList (p : Parser σ) : 7 * p.size + 6 ≤ budget →
    (argumentList build budget).Ensures p fun _ p' => p'.size < p.size
  operand (p : Parser σ) : 7 * p.size + 1 ≤ budget →
    (operand build budget).Ensures p fun _ p' => p'.size < p.size
  listItems (p : Parser σ) : 7 * p.size + 6 ≤ budget →
    (listItems build budget).Ensures p fun _ p' => p'.size ≤ p.size
  mapEntries (p : Parser σ) : 7 * p.size + 1 ≤ budget →
    (mapEntries build budget).Ensures p fun _ p' => p'.size ≤ p.size
  mapValue (p : Parser σ) : 7 * p.size + 1 ≤ budget →
    (mapValue build budget).Ensures p fun _ p' => p'.size ≤ p.size

theorem ahead_lt_size {p : Parser σ} (h : p.current.token ≠ .eof) :
    p.feed.ahead.length < p.size := by
  simp [Parser.size, h]

theorem ahead_le_size (p : Parser σ) : p.feed.ahead.length ≤ p.size :=
  Nat.le_add_right _ _

theorem size_congr {p p' : Parser σ} (hfeed : p'.feed = p.feed)
    (hcurrent : p'.current = p.current) : p'.size = p.size := by
  simp [Parser.size, hfeed, hcurrent]

theorem ne_eof_of_admits {s : Symbol} {t : Token}
    (h : (Expectation.symbol s).admits t = true) : t ≠ .eof := by
  rintro rfl
  simp [Expectation.admits] at h

variable {build}

theorem ensures_leaf (node : Node α) {p : Parser σ} (h : p.current.token ≠ .eof) :
    (leaf build node).Ensures p fun _ p' => p'.size < p.size :=
  ensures_bind <| ensures_putToken fun _ hfeed _ => ensures_bind <| ensures_make
    fun _ _ hfeed' _ => ensures_bind <| ensures_advance fun _ hsize =>
      ensures_pure <| Nat.lt_of_le_of_lt (hfeed ▸ hfeed' ▸ hsize) (ahead_lt_size h)

theorem ensures_takeName {p : Parser σ} {post : String → Parser σ → Prop}
    (h : ∀ name p', p'.size < p.size → post name p') : takeName.Ensures p post := by
  refine ensures_bind (ensures_token ?_)
  split
  · next name htoken =>
    have hlt := ahead_lt_size (p := p) (by simp [htoken])
    refine ensures_bind (ensures_putToken fun p₁ hfeed _ => ?_)
    refine ensures_bind (ensures_advance fun p' hp' => ?_)
    exact ensures_pure (h _ _ (Nat.lt_of_le_of_lt (hfeed ▸ hp') hlt))
  · exact ensures_unexpected _ _ _

theorem ensures_takeKey {p : Parser σ} {post : String → Parser σ → Prop}
    (h : ∀ key p', p'.size < p.size → post key p') : takeKey.Ensures p post := by
  refine ensures_bind (ensures_token ?_)
  split
  · next key htoken =>
    have hlt := ahead_lt_size (p := p) (by simp [htoken])
    refine ensures_bind (ensures_putToken fun p₁ hfeed _ => ?_)
    refine ensures_bind (ensures_advance fun p' hp' => ?_)
    exact ensures_pure (h _ _ (Nat.lt_of_le_of_lt (hfeed ▸ hp') hlt))
  · next key htoken =>
    have hlt := ahead_lt_size (p := p) (by simp [htoken])
    refine ensures_bind (ensures_putToken fun p₁ hfeed _ => ?_)
    refine ensures_bind (ensures_advance fun p' hp' => ?_)
    exact ensures_pure (h _ _ (Nat.lt_of_le_of_lt (hfeed ▸ hp') hlt))
  · exact ensures_unexpected _ _ _

theorem ensures_separator {close : Symbol} {expected : List Expectation} {p : Parser σ}
    {post : Unit → Parser σ → Prop} (h : ∀ p', p'.size ≤ p.size → post () p') :
    (separator close expected).Ensures p post := by
  refine ensures_bind (ensures_token ?_)
  split
  · exact ensures_pure (h _ (Nat.le_refl _))
  · exact ensures_pass fun _ p' hp' => h p' (Nat.le_trans hp' (ahead_le_size p))

/-! ### The phrases, one call at a time -/

section Phrases

variable {budget : Nat} (ih : Enough build budget) (p : Parser σ)

include ih

theorem ensures_nested_ternary (h : 7 * p.size + 5 ≤ budget) :
    (nested (ternary build budget)).Ensures p fun _ p' => p'.size < p.size := by
  refine ensures_nested fun q hfeed hcurrent => ?_
  rw [← size_congr hfeed hcurrent] at h ⊢
  exact ih.ternary q h

theorem ensures_nested_unary (h : 7 * p.size + 3 ≤ budget) :
    (nested (unary build budget)).Ensures p fun _ p' => p'.size < p.size := by
  refine ensures_nested fun q hfeed hcurrent => ?_
  rw [← size_congr hfeed hcurrent] at h ⊢
  exact ih.unary q h

theorem ensures_ternary_succ (h : 7 * p.size + 5 ≤ budget + 1) :
    (ternary build (budget + 1)).Ensures p fun _ p' => p'.size < p.size := by
  refine ensures_bind ((ih.binary 1 p (by omega)).mono fun _ p₁ h₁ => ?_)
  refine ensures_bind (ensures_token ?_)
  split
  · refine ensures_bind (ensures_advance fun p₂ h₂ => ?_)
    have := ahead_le_size p₁
    refine ensures_bind ((ensures_nested_ternary ih p₂ (by omega)).mono fun _ p₃ h₃ => ?_)
    refine ensures_bind (ensures_pass fun _ p₄ h₄ => ?_)
    have := ahead_le_size p₃
    refine ensures_bind ((ensures_nested_ternary ih p₄ (by omega)).mono fun _ p₅ h₅ => ?_)
    refine ensures_make fun _ p₆ hfeed hcurrent => ?_
    have := size_congr hfeed hcurrent
    omega
  · exact ensures_pure h₁

theorem ensures_binary_succ (least : Nat) (h : 7 * p.size + 4 ≤ budget + 1) :
    (binary build (budget + 1) least).Ensures p fun _ p' => p'.size < p.size := by
  refine ensures_bind ((ih.unary p (by omega)).mono fun _ p₁ h₁ => ?_)
  refine (ensures_restoring (ih.binaryChain least _ p₁ (by omega))).mono fun _ p₂ h₂ => ?_
  omega

theorem ensures_binaryChain_succ (least : Nat) (left : α) (h : 7 * p.size + 1 ≤ budget + 1) :
    (binaryChain build (budget + 1) least left).Ensures p fun _ p' => p'.size ≤ p.size := by
  refine ensures_bind (ensures_token ?_)
  split
  · exact ensures_pure (Nat.le_refl _)
  · next op hop =>
    split
    · exact ensures_pure (Nat.le_refl _)
    · have hne : p.current.token ≠ .eof := by
        intro heof
        simp [heof, Token.binary?] at hop
      have := ahead_lt_size hne
      refine ensures_bind (ensures_spend fun p₁ hfeed₁ _ => ?_)
      refine ensures_bind (ensures_advance fun p₂ h₂ => ?_)
      rw [hfeed₁] at h₂
      refine ensures_bind ((ih.binary _ p₂ (by omega)).mono fun _ p₃ h₃ => ?_)
      refine ensures_bind (ensures_make fun _ p₄ hfeed₄ hcurrent₄ => ?_)
      have := size_congr hfeed₄ hcurrent₄
      exact (ih.binaryChain _ _ p₄ (by omega)).mono fun _ p₅ h₅ => by omega

theorem ensures_unary_succ (h : 7 * p.size + 3 ≤ budget + 1) :
    (unary build (budget + 1)).Ensures p fun _ p' => p'.size < p.size := by
  refine ensures_bind (ensures_token ?_)
  split
  · next op hop =>
    have hne : p.current.token ≠ .eof := by
      intro heof
      simp [heof, Token.unary?] at hop
    have := ahead_lt_size hne
    refine ensures_bind (ensures_advance fun p₁ h₁ => ?_)
    refine ensures_bind ((ensures_nested_unary ih p₁ (by omega)).mono fun _ p₂ h₂ => ?_)
    refine ensures_make fun _ p₃ hfeed hcurrent => ?_
    have := size_congr hfeed hcurrent
    omega
  · exact ih.access p (by omega)

theorem ensures_access_succ (h : 7 * p.size + 2 ≤ budget + 1) :
    (access build (budget + 1)).Ensures p fun _ p' => p'.size < p.size := by
  refine ensures_bind ((ih.operand p (by omega)).mono fun _ p₁ h₁ => ?_)
  refine (ensures_restoring (ih.accessChain _ p₁ (by omega))).mono fun _ p₂ h₂ => ?_
  omega

theorem ensures_accessChain_succ (receiver : α) (h : 7 * p.size + 2 ≤ budget + 1) :
    (accessChain build (budget + 1) receiver).Ensures p fun _ p' => p'.size ≤ p.size := by
  refine ensures_bind (ensures_token ?_)
  split
  · next htoken =>
    have := ahead_lt_size (p := p) (by simp [htoken])
    refine ensures_bind (ensures_spend fun p₁ hfeed₁ _ => ?_)
    refine ensures_bind (ensures_advance fun p₂ h₂ => ?_)
    rw [hfeed₁] at h₂
    refine ensures_bind (ensures_takeName fun name p₃ h₃ => ?_)
    refine ensures_bind (ensures_token ?_)
    split
    · refine ensures_bind ((ih.arguments p₃ (by omega)).mono fun _ p₄ h₄ => ?_)
      refine ensures_bind (ensures_make fun _ p₅ hfeed₅ hcurrent₅ => ?_)
      have := size_congr hfeed₅ hcurrent₅
      exact (ih.accessChain _ p₅ (by omega)).mono fun _ p₆ h₆ => by omega
    · refine ensures_bind (ensures_make fun _ p₅ hfeed₅ hcurrent₅ => ?_)
      have := size_congr hfeed₅ hcurrent₅
      exact (ih.accessChain _ p₅ (by omega)).mono fun _ p₆ h₆ => by omega
  · next htoken =>
    have := ahead_lt_size (p := p) (by simp [htoken])
    refine ensures_bind (ensures_spend fun p₁ hfeed₁ hcurrent₁ => ?_)
    have := size_congr hfeed₁ hcurrent₁
    refine ensures_bind ((ih.arguments p₁ (by omega)).mono fun _ p₄ h₄ => ?_)
    refine ensures_bind (ensures_make fun _ p₅ hfeed₅ hcurrent₅ => ?_)
    have := size_congr hfeed₅ hcurrent₅
    exact (ih.accessChain _ p₅ (by omega)).mono fun _ p₆ h₆ => by omega
  · next htoken =>
    have := ahead_lt_size (p := p) (by simp [htoken])
    refine ensures_bind (ensures_spend fun p₁ hfeed₁ _ => ?_)
    refine ensures_bind (ensures_advance fun p₂ h₂ => ?_)
    rw [hfeed₁] at h₂
    refine ensures_bind ((ih.ternary p₂ (by omega)).mono fun _ p₃ h₃ => ?_)
    have := ahead_le_size p₃
    refine ensures_bind (ensures_pass fun _ p₄ h₄ => ?_)
    refine ensures_bind (ensures_make fun _ p₅ hfeed₅ hcurrent₅ => ?_)
    have := size_congr hfeed₅ hcurrent₅
    exact (ih.accessChain _ p₅ (by omega)).mono fun _ p₆ h₆ => by omega
  · exact ensures_pure (Nat.le_refl _)

theorem ensures_arguments_succ (h : 7 * p.size + 1 ≤ budget + 1) :
    (arguments build (budget + 1)).Ensures p fun _ p' => p'.size < p.size := by
  refine ensures_bind (ensures_pass fun hopen p₁ h₁ => ?_)
  have := ahead_lt_size (ne_eof_of_admits hopen)
  refine ensures_bind (ensures_token ?_)
  have hclose (args : List α) (p₂ : Parser σ) (h₂ : p₂.size ≤ p₁.size) :
      (pass (.symbol .parenClose) [.symbol .comma, .symbol .parenClose] >>= fun _ =>
        pure args : Step σ (List α)).Ensures p₂ fun _ p' => p'.size < p.size := by
    have := ahead_le_size p₂
    exact ensures_bind (ensures_pass fun _ p₃ h₃ => ensures_pure (by omega))
  split
  · exact ensures_bind (ensures_pure (hclose _ _ (Nat.le_refl _)))
  · exact ensures_bind ((ih.argumentList p₁ (by omega)).mono fun args p₂ h₂ =>
      hclose args p₂ (Nat.le_of_lt h₂))

theorem ensures_argumentList_succ (h : 7 * p.size + 6 ≤ budget + 1) :
    (argumentList build (budget + 1)).Ensures p fun _ p' => p'.size < p.size := by
  refine ensures_bind ((ih.ternary p (by omega)).mono fun _ p₁ h₁ => ?_)
  refine ensures_bind (ensures_token ?_)
  split
  · have := ahead_le_size p₁
    refine ensures_bind (ensures_advance fun p₂ h₂ => ?_)
    refine ensures_bind ((ih.argumentList p₂ (by omega)).mono fun _ p₃ h₃ => ?_)
    exact ensures_pure (by omega)
  · exact ensures_pure h₁

theorem ensures_operand_succ (h : 7 * p.size + 1 ≤ budget + 1) :
    (operand build (budget + 1)).Ensures p fun _ p' => p'.size < p.size := by
  refine ensures_bind (ensures_token ?_)
  split
  · next htoken => exact ensures_leaf _ (by simp [htoken])
  · next htoken => exact ensures_leaf _ (by simp [htoken])
  · next htoken => exact ensures_leaf _ (by simp [htoken])
  · next htoken => exact ensures_leaf _ (by simp [htoken])
  · next htoken => exact ensures_leaf _ (by simp [htoken])
  · next htoken =>
    have := ahead_lt_size (p := p) (by simp [htoken])
    refine ensures_bind (ensures_putToken fun p₀ hfeed₀ _ => ?_)
    refine ensures_nested fun p₁ hfeed₁ _ => ?_
    refine ensures_bind (ensures_advance fun p₂ h₂ => ?_)
    rw [hfeed₁, hfeed₀] at h₂
    refine ensures_bind ((ih.ternary p₂ (by omega)).mono fun _ p₃ h₃ => ?_)
    have := ahead_le_size p₃
    refine ensures_bind (ensures_pass fun _ p₄ h₄ => ?_)
    refine ensures_make fun _ p₅ hfeed₅ hcurrent₅ => ?_
    have := size_congr hfeed₅ hcurrent₅
    omega
  · next htoken =>
    have := ahead_lt_size (p := p) (by simp [htoken])
    refine ensures_bind (ensures_putToken fun p₀ hfeed₀ _ => ?_)
    refine ensures_nested fun p₁ hfeed₁ _ => ?_
    refine ensures_bind (ensures_advance fun p₂ h₂ => ?_)
    rw [hfeed₁, hfeed₀] at h₂
    refine ensures_bind ((ih.listItems p₂ (by omega)).mono fun _ p₃ h₃ => ?_)
    have := ahead_le_size p₃
    refine ensures_bind (ensures_advance fun p₄ h₄ => ?_)
    refine ensures_make fun _ p₅ hfeed₅ hcurrent₅ => ?_
    have := size_congr hfeed₅ hcurrent₅
    omega
  · next htoken =>
    have := ahead_lt_size (p := p) (by simp [htoken])
    refine ensures_bind (ensures_putToken fun p₀ hfeed₀ _ => ?_)
    refine ensures_nested fun p₁ hfeed₁ _ => ?_
    refine ensures_bind (ensures_advance fun p₂ h₂ => ?_)
    rw [hfeed₁, hfeed₀] at h₂
    refine ensures_bind ((ih.mapEntries p₂ (by omega)).mono fun _ p₃ h₃ => ?_)
    have := ahead_le_size p₃
    refine ensures_bind (ensures_advance fun p₄ h₄ => ?_)
    refine ensures_make fun _ p₅ hfeed₅ hcurrent₅ => ?_
    have := size_congr hfeed₅ hcurrent₅
    omega
  · exact ensures_unexpected _ _ _

theorem ensures_listItems_succ (h : 7 * p.size + 6 ≤ budget + 1) :
    (listItems build (budget + 1)).Ensures p fun _ p' => p'.size ≤ p.size := by
  refine ensures_bind (ensures_token ?_)
  split
  · exact ensures_pure (Nat.le_refl _)
  · split
    · next hcomma =>
      have := ahead_lt_size (p := p) (by simp [hcomma])
      refine ensures_bind (ensures_advance fun p₁ h₁ => ?_)
      refine ensures_bind ((ih.listItems p₁ (by omega)).mono fun _ p₂ h₂ => ?_)
      exact ensures_pure (by omega)
    · refine ensures_bind ((ih.ternary p (by omega)).mono fun _ p₁ h₁ => ?_)
      refine ensures_bind (ensures_separator fun p₂ h₂ => ?_)
      refine ensures_bind ((ih.listItems p₂ (by omega)).mono fun _ p₃ h₃ => ?_)
      exact ensures_pure (by omega)

theorem ensures_mapEntries_succ (h : 7 * p.size + 1 ≤ budget + 1) :
    (mapEntries build (budget + 1)).Ensures p fun _ p' => p'.size ≤ p.size := by
  refine ensures_bind (ensures_token ?_)
  split
  · exact ensures_pure (Nat.le_refl _)
  · split
    · next hcomma =>
      have := ahead_lt_size (p := p) (by simp [hcomma])
      refine ensures_bind (ensures_advance fun p₁ h₁ => ?_)
      exact (ih.mapEntries p₁ (by omega)).mono fun _ p₂ h₂ => by omega
    · refine ensures_bind (ensures_takeKey fun key p₁ h₁ => ?_)
      refine ensures_bind ((ih.mapValue p₁ (by omega)).mono fun _ p₂ h₂ => ?_)
      refine ensures_bind (ensures_separator fun p₃ h₃ => ?_)
      refine ensures_bind ((ih.mapEntries p₃ (by omega)).mono fun _ p₄ h₄ => ?_)
      exact ensures_pure (by omega)

theorem ensures_mapValue_succ (h : 7 * p.size + 1 ≤ budget + 1) :
    (mapValue build (budget + 1)).Ensures p fun _ p' => p'.size ≤ p.size := by
  refine ensures_bind (ensures_token ?_)
  split
  · next hcolon =>
    have := ahead_lt_size (p := p) (by simp [hcolon])
    refine ensures_bind (ensures_advance fun p₁ h₁ => ?_)
    refine ensures_bind ((ih.ternary p₁ (by omega)).mono fun _ p₂ h₂ => ?_)
    exact ensures_pure (by omega)
  · exact ensures_pure (Nat.le_refl _)

end Phrases

/-- **Enough is enough for everything.**  Every budget serves every phrase whose state is small
enough for it. -/
theorem enough (build : Builder σ α) (budget : Nat) : Enough build budget := by
  induction budget with
  | zero => constructor <;> intros <;> omega
  | succ budget ih =>
    exact {
      ternary := ensures_ternary_succ ih
      binary := fun least p => ensures_binary_succ ih p least
      binaryChain := fun least left p => ensures_binaryChain_succ ih p least left
      unary := ensures_unary_succ ih
      access := ensures_access_succ ih
      accessChain := fun receiver p => ensures_accessChain_succ ih p receiver
      arguments := ensures_arguments_succ ih
      argumentList := ensures_argumentList_succ ih
      operand := ensures_operand_succ ih
      listItems := ensures_listItems_succ ih
      mapEntries := ensures_mapEntries_succ ih
      mapValue := ensures_mapValue_succ ih }

/-- A budget that is enough for every phrase from the state. -/
def budget (p : Parser σ) : Nat :=
  7 * p.size + 5

theorem isSome_ternary (build : Builder σ α) (p : Parser σ) :
    ((ternary build (budget p)).outcome p).isSome = true :=
  ((enough build (budget p)).ternary p (Nat.le_refl _)).isSome

theorem isSome_whole (build : Builder σ α) (p : Parser σ) :
    ((whole build (budget p)).outcome p).isSome = true := by
  suffices h : (whole build (budget p)).Ensures p fun _ _ => True from h.isSome
  refine ensures_bind (ensures_token ?_)
  split
  · exact ensures_make fun _ _ _ _ => trivial
  · refine ensures_bind (((enough build (budget p)).ternary p (Nat.le_refl _)).mono
      fun _ p₁ _ => ?_)
    exact ensures_bind (ensures_pass fun _ _ _ => ensures_pure trivial)

end Grammar

end Binding
