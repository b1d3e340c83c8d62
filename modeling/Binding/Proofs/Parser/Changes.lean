import Binding.Proofs.Parser.Success
import Binding.Proofs.Token.Places
import Mathlib.Logic.Relation

/-!
# What a step may change

A parser comes from one state to another by single changes (`Parser.Change`): a lexeme is taken, or
an error in its place; a token other than the end of input is replaced; levels of nesting change; a
node is built.  Steps of the grammar do nothing else.  So the states that a parser comes to by
changes (`Parser.Becomes`) are not only those that calls leave, but also those in the midst of a
call, such as the one in which the inside of a list begins: there the opening bracket has been
taken out.

## Reading on behind the current lexeme

No change goes back in the source, but not every lexeme that is taken stands further on: the end of
input can be read over and over.  So it matters that a parser never has another token where the
source has ended.  It has none, because the only token to be replaced is one that has been read
there, or a stand-in for one, and behind it the feed reads on further right (`Parser.InOrder`).
This holds whether or not the parser could move past the token that it had taken out.

## Main definitions

* `Parser.Becomes`: the states that a parser comes to by changes.
* `Parser.InOrder`: the feed reads on behind the current lexeme.
* `Step.Goes`, `Step.MovesOn`: a step does nothing but changes, and where it has got to if it
  succeeds.

## Main results

* `Parser.InOrder.change`, `Parser.InOrder.becomes`: one change keeps the order and does not go
  back, and so do any number of them.
* `Parser.InOrder.size_le`: no more lexemes are left than characters of the source.
-/

namespace Binding

/-! ### Feeds that read on -/

theorem Cursor.length_ahead_feed_le (c : Cursor) : c.feed.ahead.length ≤ c.rest.length := by
  induction hn : c.rest.length using Nat.strongRecOn generalizing c with
  | ind n ih =>
    have hskip := c.length_rest_skipBlanks_le
    cases hscan : scan c.skipBlanks.rest with
    | done =>
      rw [feed_of_done hscan]
      exact Nat.zero_le _
    | found token word rest =>
      have hlt := Scan.length_rest_lt_of_scan hscan
      have hrest := ih rest.length (by omega) ⟨rest, c.skipBlanks.position.after word⟩ rfl
      rw [feed_of_found hscan, Feed.cons, List.length_cons]
      omega
    | unterminated quote =>
      have hne : c.skipBlanks.rest ≠ [] := by
        intro hnil
        rw [hnil] at hscan
        nomatch hscan
      have hpos := List.length_pos_iff.2 hne
      rw [feed_of_unterminated hscan, List.length_singleton]
      omega
    | unexpected ch =>
      rw [feed_of_unexpected hscan]
      exact Nat.zero_le _

namespace Feed

/-- The feed reads the source on from the place, or from one behind it. -/
def Beyond (source : List Char) (place : Nat) (f : Feed) : Prop :=
  ∃ c : Cursor, c.Stands source ∧ place ≤ c.position.offset ∧ f = c.feed

variable {source : List Char} {n : Nat} {f g : Feed}

/-- A lexeme that is taken stands there, and the feed reads on behind it. -/
theorem Beyond.taken (h : f.Beyond source n) {l : Lexeme} (hl : f.next = (.ok l, g)) :
    n ≤ l.position.offset ∧ g.Beyond source l.position.offset ∧
      (l.token ≠ .eof → g.Beyond source (l.position.offset + 1)) := by
  obtain ⟨c, hc, hn, rfl⟩ := h
  rw [Cursor.next_feed] at hl
  obtain ⟨hitem, rfl⟩ := Prod.mk.inj hl
  have hnext : c.next = (.ok l, c.next.2) := Prod.ext hitem rfl
  have hskip : c.position.offset ≤ c.skipBlanks.position.offset := by
    rw [Cursor.skipBlanks, Position.offset_after]
    exact Nat.le_add_right _ _
  obtain ⟨hplace, ⟨heof, -, hleft⟩ | ⟨word, hscan, hafter⟩⟩ := Cursor.next_cases hnext
  · rw [← hplace] at hskip
    refine ⟨Nat.le_trans hn hskip, ⟨c.next.2, hc.next, ?_, rfl⟩, fun hne => absurd heof hne⟩
    rw [hleft, hplace]
  · have hword := List.length_pos_iff.2 (Scan.ne_nil_of_scan hscan)
    have hlt : l.position.offset + 1 ≤ c.next.2.position.offset := by
      rw [hafter, Position.offset_after, hplace]
      omega
    rw [← hplace] at hskip
    exact ⟨Nat.le_trans hn hskip, ⟨c.next.2, hc.next, Nat.le_of_succ_le hlt, rfl⟩,
      fun _ => ⟨c.next.2, hc.next, hlt, rfl⟩⟩

/-- Nor does the feed go back where there is an error. -/
theorem Beyond.missed (h : f.Beyond source n) {e : LexError} (he : f.next = (.error e, g)) :
    g.Beyond source n := by
  obtain ⟨c, hc, hn, rfl⟩ := h
  rw [Cursor.next_feed] at he
  obtain ⟨-, rfl⟩ := Prod.mk.inj he
  obtain ⟨part, -, hposition⟩ := c.exists_part_next
  refine ⟨c.next.2, hc.next, Nat.le_trans hn ?_, rfl⟩
  rw [hposition, Position.offset_after]
  exact Nat.le_add_right _ _

/-- What is ahead takes up characters of the source. -/
theorem Beyond.length_ahead_le (h : f.Beyond source n) :
    n + f.ahead.length ≤ source.length := by
  obtain ⟨c, hc, hn, rfl⟩ := h
  have hahead := c.length_ahead_feed_le
  have hlength := hc.length_eq
  omega

end Feed

/-! ### Changes -/

namespace Parser

variable {σ α : Type} {build : Builder σ α} {source : List Char} {p q : Parser σ}

/-- The offset of the current lexeme. -/
def place (p : Parser σ) : Nat :=
  p.current.position.offset

/-- What a single step may change. -/
inductive Change (build : Builder σ α) : Parser σ → Parser σ → Prop
  /-- The next lexeme is taken. -/
  | taken {p : Parser σ} {l : Lexeme} {f : Feed} : p.feed.next = (.ok l, f) →
    Change build p { p with feed := f, current := l }
  /-- There is an error in the place of the next lexeme. -/
  | missed {p : Parser σ} {e : LexError} {f : Feed} : p.feed.next = (.error e, f) →
    Change build p { p with feed := f }
  /-- A token other than the end of input is replaced. -/
  | replaced {p : Parser σ} (t : Token) : p.current.token ≠ .eof →
    Change build p { p with current := { p.current with token := t } }
  /-- Levels of nesting are taken or given back. -/
  | within {p : Parser σ} (allowance : Option Allowance) : Change build p (p.within allowance)
  /-- A node is built. -/
  | made {p : Parser σ} (node : Node α) :
    Change build p { p with built := (build node p.built).2 }

/-- The parser comes to the other state by changes. -/
def Becomes (build : Builder σ α) : Parser σ → Parser σ → Prop :=
  Relation.ReflTransGen (Change build)

/-- The parser with the current token taken out. -/
def vacated (p : Parser σ) : Parser σ :=
  { p with current := { p.current with token := .eof } }

theorem becomes_vacated (build : Builder σ α) (hne : p.current.token ≠ .eof) :
    p.Becomes build p.vacated :=
  .single (.replaced .eof hne)

/-- The feed reads on where the current lexeme is, and behind it if its token is not the end of
input. -/
structure InOrder (source : List Char) (p : Parser σ) : Prop where
  ahead : p.feed.Beyond source p.place
  behind : p.current.token ≠ .eof → p.feed.Beyond source (p.place + 1)

theorem inOrder_of_ofFeed {c : Cursor} (hc : c.Stands source) {allowance : Option Allowance}
    {built : σ} (h : ofFeed c.feed allowance built = .ok p) : p.InOrder source := by
  obtain ⟨l, hl, rfl⟩ := ofFeed_feed_eq_ok_iff.1 h
  have hnext : c.feed.next = (.ok l, c.next.2.feed) := by rw [Cursor.next_feed, hl]
  have hbeyond : c.feed.Beyond source c.position.offset := ⟨c, hc, Nat.le_refl _, rfl⟩
  obtain ⟨-, hahead, hbehind⟩ := hbeyond.taken hnext
  exact ⟨hahead, hbehind⟩

/-- **One change** keeps the order, and does not go back in the source. -/
theorem InOrder.change (hp : p.InOrder source) (h : Change build p q) :
    q.InOrder source ∧ p.place ≤ q.place := by
  cases h with
  | taken hl =>
    obtain ⟨hle, hahead, hbehind⟩ := hp.ahead.taken hl
    exact ⟨⟨hahead, hbehind⟩, hle⟩
  | missed he =>
    exact ⟨⟨hp.ahead.missed he, fun hne => (hp.behind hne).missed he⟩, Nat.le_refl _⟩
  | replaced t hne => exact ⟨⟨hp.ahead, fun _ => hp.behind hne⟩, Nat.le_refl _⟩
  | within allowance => exact ⟨⟨hp.ahead, hp.behind⟩, Nat.le_refl _⟩
  | made node => exact ⟨⟨hp.ahead, hp.behind⟩, Nat.le_refl _⟩

/-- **Any number of changes** keep the order, and do not go back in the source. -/
theorem InOrder.becomes (hp : p.InOrder source) (h : p.Becomes build q) :
    q.InOrder source ∧ p.place ≤ q.place := by
  induction h with
  | refl => exact ⟨hp, Nat.le_refl _⟩
  | tail _ hchange ih =>
    obtain ⟨hr, hle⟩ := ih
    obtain ⟨hq, hle'⟩ := hr.change hchange
    exact ⟨hq, Nat.le_trans hle hle'⟩

theorem InOrder.place_le (hp : p.InOrder source) : p.place ≤ source.length := by
  have hahead := hp.ahead.length_ahead_le
  omega

/-- Where little of the source is left, few lexemes are. -/
theorem InOrder.size_le (hp : p.InOrder source) : p.size ≤ source.length - p.place := by
  have hahead := hp.ahead.length_ahead_le
  unfold size
  split
  · omega
  · next hne =>
    have hbehind := (hp.behind hne).length_ahead_le
    omega

end Parser

/-! ### Steps -/

namespace Step

variable {σ α β γ : Type} {build : Builder σ α} {source : List Char} {p : Parser σ}

/-- From the state, the step does nothing but changes, whether it fails or not; if it succeeds, its
result and the state after it satisfy the condition. -/
def Goes (build : Builder σ α) (step : Step σ β) (p : Parser σ) (post : β → Parser σ → Prop) :
    Prop :=
  ∀ result q, step.outcome p = some (result, q) →
    p.Becomes build q ∧ ∀ b, result = .ok b → post b q

/-- The step does nothing but changes, and if it succeeds the parser has moved on in the source. -/
def MovesOn (build : Builder σ α) (step : Step σ β) (p : Parser σ) : Prop :=
  step.Goes build p fun _ q => p.place < q.place

variable {step : Step σ β} {post mid : β → Parser σ → Prop}

theorem Goes.of_gives (h : step.Goes build p post) {b : β} {q : Parser σ} (hq : step.Gives p b q) :
    p.Becomes build q ∧ post b q :=
  (h _ _ hq).imp_right fun hpost => hpost b rfl

theorem Goes.mono (h : step.Goes build p mid) (himp : ∀ b q, mid b q → post b q) :
    step.Goes build p post := fun result q houtcome =>
  ⟨(h result q houtcome).1, fun b hb => himp b q ((h result q houtcome).2 b hb)⟩

/-- What has been reached stays reached. -/
theorem Goes.beyond (hp : p.InOrder source) (h : step.Goes build p mid) {n : Nat}
    (hn : n ≤ p.place) : step.Goes build p fun _ q => n ≤ q.place := fun result q houtcome =>
  have hq := (h result q houtcome).1
  ⟨hq, fun _ _ => Nat.le_trans hn (hp.becomes hq).2⟩

/-- One step after another, the second one from a state further on. -/
theorem goes_bind {next : β → Step σ γ} {post : γ → Parser σ → Prop} (hp : p.InOrder source)
    (h : step.Goes build p mid)
    (hnext : ∀ b q, q.InOrder source → p.place ≤ q.place → mid b q → (next b).Goes build q post) :
    (step >>= next).Goes build p post := by
  intro result r houtcome
  rw [outcome_bind] at houtcome
  split at houtcome
  · nomatch houtcome
  · next b q hstep =>
    obtain ⟨hq, hmid⟩ := h _ _ hstep
    obtain ⟨horder, hle⟩ := hp.becomes hq
    obtain ⟨hr, hpost⟩ := hnext b q horder hle (hmid b rfl) result r houtcome
    exact ⟨hq.trans hr, hpost⟩
  · next hstep =>
    obtain ⟨rfl, rfl⟩ := Prod.mk.inj (Option.some.inj houtcome)
    exact ⟨(h _ _ hstep).1, nofun⟩

theorem goes_of_outcome {result : Except ParseError β} {q : Parser σ}
    (h : step.outcome p = some (result, q)) (hq : p.Becomes build q)
    (hpost : ∀ b, result = .ok b → post b q) : step.Goes build p post := by
  intro result' q' houtcome
  obtain ⟨rfl, rfl⟩ := Prod.mk.inj (Option.some.inj (h.symm.trans houtcome))
  exact ⟨hq, hpost⟩

theorem goes_pure {b : β} (h : post b p) : (pure b : Step σ β).Goes build p post :=
  goes_of_outcome rfl .refl fun _ hb => Except.ok.inj hb ▸ h

theorem goes_exhausted : (exhausted : Step σ β).Goes build p post :=
  fun _ _ houtcome => nomatch houtcome

theorem goes_token_bind {next : Token → Step σ β} (h : (next p.current.token).Goes build p post) :
    (token >>= next).Goes build p post := by
  intro result q houtcome
  rw [outcome_bind] at houtcome
  exact h result q houtcome

theorem goes_unexpected (expected : List Expectation) :
    (unexpected expected : Step σ β).Goes build p post :=
  goes_of_outcome rfl .refl nofun

/-- The parser moves to where the feed reads on. -/
theorem goes_advance {n : Nat} (h : p.feed.Beyond source n) :
    advance.Goes build p fun _ q => n ≤ q.place := by
  have houtcome := outcome_advance p
  split at houtcome
  · next hl => exact goes_of_outcome houtcome (.single (.taken hl)) fun _ _ => (h.taken hl).1
  · next he => exact goes_of_outcome houtcome (.single (.missed he)) nofun

theorem goes_putToken (t : Token) (hne : p.current.token ≠ .eof) :
    (putToken t).Goes build p fun _ q => q.feed = p.feed :=
  goes_of_outcome rfl (.single (.replaced t hne)) fun _ _ => rfl

theorem goes_spend : spend.Goes build p fun _ _ => True := by
  have houtcome := outcome_spend p
  split at houtcome
  · exact goes_of_outcome houtcome .refl fun _ _ => trivial
  · split at houtcome
    · exact goes_of_outcome houtcome .refl fun _ _ => trivial
    · exact goes_of_outcome houtcome (.single (.within _)) fun _ _ => trivial

theorem goes_make {node : Node α} : (make build node).Goes build p fun _ q => q.feed = p.feed :=
  goes_of_outcome (outcome_make build node p) (.single (.made node)) fun _ _ => rfl

/-- A step that moves on from every state does so one level deeper. -/
theorem goes_nested (hp : p.InOrder source)
    (h : ∀ p₁ : Parser σ, p₁.InOrder source → step.MovesOn build p₁) :
    (nested step).MovesOn build p := by
  intro result q houtcome
  rw [outcome_nested] at houtcome
  split at houtcome
  · nomatch houtcome
  · next hspend =>
    obtain ⟨rfl, rfl⟩ := Prod.mk.inj (Option.some.inj houtcome)
    exact ⟨(goes_spend _ _ hspend).1, nofun⟩
  · next p₁ hspend =>
    obtain ⟨⟨_, r⟩, hr, heq⟩ := Option.map_eq_some_iff.1 houtcome
    obtain ⟨rfl, rfl⟩ := Prod.mk.inj heq
    have hopened : p.Becomes build p₁ := (goes_spend _ _ hspend).1
    obtain ⟨hp₁, hle⟩ := hp.becomes hopened
    obtain ⟨hbecomes, hlt⟩ := h p₁ hp₁ _ _ hr
    exact ⟨hopened.trans (hbecomes.tail (.within _)), fun b hb => Nat.lt_of_le_of_lt hle (hlt b hb)⟩

theorem goes_restoring (h : step.Goes build p fun _ _ => True) :
    (restoring step).Goes build p fun _ _ => True := by
  intro result q houtcome
  rw [outcome_restoring] at houtcome
  split at houtcome
  · nomatch houtcome
  · next hstep =>
    obtain ⟨rfl, rfl⟩ := Prod.mk.inj (Option.some.inj houtcome)
    exact ⟨(h _ _ hstep).1, nofun⟩
  · next hstep =>
    obtain ⟨rfl, rfl⟩ := Prod.mk.inj (Option.some.inj houtcome)
    exact ⟨(h _ _ hstep).1.tail (.within _), fun _ _ => trivial⟩

/-! ### Steps made of these -/

theorem goes_pass {wanted : Expectation} {expected : List Expectation} {n : Nat}
    (h : wanted.admits p.current.token = true → p.feed.Beyond source n) :
    (pass wanted expected).Goes build p fun _ q => n ≤ q.place := by
  refine goes_token_bind ?_
  split
  · next hadmits => exact goes_advance (h hadmits)
  · exact goes_unexpected expected

/-- A symbol is passed. -/
theorem goes_pass_symbol (hp : p.InOrder source) (s : Symbol) (expected : List Expectation) :
    (pass (.symbol s) expected).MovesOn build p :=
  goes_pass fun hadmits => hp.behind (Grammar.ne_eof_of_admits hadmits)

/-- A token is taken out and passed. -/
theorem goes_take (hp : p.InOrder source) (hne : p.current.token ≠ .eof) (standIn : Token) (b : β) :
    (do putToken standIn; advance; return b : Step σ β).MovesOn build p := by
  refine goes_bind hp (goes_putToken standIn hne) fun _ q₁ hq₁ _ hfeed => ?_
  have hbehind := hp.behind hne
  rw [← hfeed] at hbehind
  exact goes_bind hq₁ (goes_advance hbehind) fun _ _ _ _ hlt => goes_pure hlt

theorem goes_takeName (hp : p.InOrder source) :
    takeName.MovesOn build p := by
  refine goes_token_bind ?_
  split
  · next htoken => exact goes_take hp (by simp [htoken]) _ _
  · exact goes_unexpected _

theorem goes_takeKey (hp : p.InOrder source) :
    takeKey.MovesOn build p := by
  refine goes_token_bind ?_
  split
  · next htoken => exact goes_take hp (by simp [htoken]) _ _
  · next htoken => exact goes_take hp (by simp [htoken]) _ _
  · exact goes_unexpected _

theorem goes_separator (hp : p.InOrder source) (close : Symbol) (expected : List Expectation) :
    (separator close expected).Goes build p fun _ _ => True := by
  refine goes_token_bind ?_
  split
  · exact goes_pure trivial
  · exact (goes_pass_symbol hp .comma expected).mono fun _ _ _ => trivial

theorem goes_leaf (hp : p.InOrder source) (hne : p.current.token ≠ .eof) (node : Node α) :
    (Grammar.leaf build node).MovesOn build p := by
  refine goes_bind hp (goes_putToken .eof hne) fun _ q₁ hq₁ _ hfeed₁ => ?_
  refine goes_bind hq₁ goes_make fun _ q₂ hq₂ _ hfeed₂ => ?_
  have hbehind := hp.behind hne
  rw [← hfeed₁, ← hfeed₂] at hbehind
  exact goes_bind hq₂ (goes_advance hbehind) fun _ _ _ _ hlt => goes_pure hlt

/-- The opening bracket is taken out, and the inside is read one level deeper. -/
theorem goes_bracketed (hp : p.InOrder source) (hne : p.current.token ≠ .eof)
    (h : ∀ p₁ : Parser σ, p₁.InOrder source → step.MovesOn build p₁) :
    (do takeOperand; nested step).MovesOn build p := by
  refine goes_bind hp (goes_putToken .eof hne) fun _ p₁ hp₁ hle _ => ?_
  exact (goes_nested hp₁ h).mono fun _ _ => Nat.lt_of_le_of_lt hle

/-- Parts up to a closing symbol, and the symbol, after an opening one. -/
theorem goes_enclosed (hp : p.InOrder source) {close : Symbol}
    (h : ∀ p₁ : Parser σ, p₁.InOrder source →
      step.Goes build p₁ fun _ q => q.current.token = .symbol close)
    (node : β → Node α) :
    (do advance; let parts ← step; advance; make build (node parts)).MovesOn build p := by
  refine goes_bind hp (goes_advance hp.ahead) fun _ q₁ hq₁ hle₁ _ => ?_
  refine goes_bind hq₁ (h q₁ hq₁) fun _ q₂ hq₂ hle₂ hclose => ?_
  have hne : q₂.current.token ≠ .eof := by simp [hclose]
  refine goes_bind hq₂ (goes_advance (hq₂.behind hne)) fun _ q₃ hq₃ _ hlt₃ => ?_
  exact goes_make.beyond hq₃ (by omega)

end Step

end Binding
