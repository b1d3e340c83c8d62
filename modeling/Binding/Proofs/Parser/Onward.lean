import Binding.Proofs.Parser.Changes
import Binding.Proofs.Parser.Positions
import Binding.Proofs.Parser.Rounds

/-!
# Every phrase moves on in the source

A phrase that succeeds has moved the parser to a lexeme further on in the source, and so has every
round of a loop that goes round again.  The source is finite, so loops end and calls end.

`Binding.Parser.Progress` counts lexemes, and finds that a phrase uses some up in every state
whatsoever.  Offsets are another matter, because the end of input can be read without moving; what
is shown here holds of the states of a session, in which the feed reads on behind the current
lexeme (`Parser.InOrder`).

A phrase moves on because of one of its parts, and the other parts do not go back.  Most have a
tighter phrase among their parts; operands of one token and the brackets around arguments pass a
token themselves.  The inside of a list is the case to look at, since its opening bracket may have
been passed already or be a stand-in: here it is the closing bracket that counts, and the items end
before it.

## Main results

* `Grammar.onward`: every phrase moves on.
* `Call.becomes_apply`: calls do nothing but changes, whether they fail or not.
* `Call.moves_on_and_ends`: in every state that a session comes to, also in the midst of a call,
  phrases and rounds move on, and calls end.
-/

namespace Binding

/-! ### Phrases -/

namespace Grammar

open Step

variable {σ α : Type} {build : Builder σ α} {source : List Char}

/-- With the budget, every phrase does nothing but changes, and it moves on if it succeeds.  The
chains may be empty; the items of a list and the entries of a map end before the closing symbol. -/
structure Onward (build : Builder σ α) (source : List Char) (budget : Nat) : Prop where
  ternary {p : Parser σ} : p.InOrder source →
    (ternary build budget).MovesOn build p
  binary (least : Nat) {p : Parser σ} : p.InOrder source →
    (binary build budget least).MovesOn build p
  binaryChain (least : Nat) (left : α) {p : Parser σ} : p.InOrder source →
    (binaryChain build budget least left).Goes build p fun _ _ => True
  unary {p : Parser σ} : p.InOrder source →
    (unary build budget).MovesOn build p
  access {p : Parser σ} : p.InOrder source →
    (access build budget).MovesOn build p
  accessChain (receiver : α) {p : Parser σ} : p.InOrder source →
    (accessChain build budget receiver).Goes build p fun _ _ => True
  arguments {p : Parser σ} : p.InOrder source →
    (arguments build budget).MovesOn build p
  argumentList {p : Parser σ} : p.InOrder source →
    (argumentList build budget).Goes build p fun _ _ => True
  operand {p : Parser σ} : p.InOrder source →
    (operand build budget).MovesOn build p
  listItems {p : Parser σ} : p.InOrder source →
    (listItems build budget).Goes build p fun _ q => q.current.token = .symbol .bracketClose
  mapEntries {p : Parser σ} : p.InOrder source →
    (mapEntries build budget).Goes build p fun _ q => q.current.token = .symbol .braceClose
  mapValue {p : Parser σ} : p.InOrder source →
    (mapValue build budget).Goes build p fun _ _ => True

section Phrases

variable {budget : Nat} (ih : Onward build source budget) {p : Parser σ} (hp : p.InOrder source)

include ih hp

/-! #### Rounds -/

theorem goes_binaryRound (least : Nat) (left : α) :
    (binaryRound build budget least left).Goes build p
      fun joined q => joined.isSome = true → p.place < q.place := by
  refine goes_token_bind ?_
  split
  · exact goes_pure nofun
  · split
    · exact goes_pure nofun
    · refine goes_bind hp goes_spend fun _ q₁ hq₁ hle₁ _ => ?_
      refine goes_bind hq₁ (goes_advance hq₁.ahead) fun _ q₂ hq₂ hle₂ _ => ?_
      refine goes_bind hq₂ (ih.binary _ hq₂) fun _ q₃ hq₃ _ hlt₃ => ?_
      refine goes_bind hq₃ goes_make fun _ q₄ _ hle₄ _ => goes_pure fun _ => ?_
      omega

theorem goes_accessRound (receiver : α) :
    (accessRound build budget receiver).Goes build p
      fun access q => access.isSome = true → p.place < q.place := by
  refine goes_token_bind ?_
  split
  · refine goes_bind hp goes_spend fun _ q₁ hq₁ hle₁ _ => ?_
    refine goes_bind hq₁ (goes_advance hq₁.ahead) fun _ q₂ hq₂ hle₂ _ => ?_
    refine goes_bind hq₂ (goes_takeName hq₂) fun _ q₃ hq₃ _ hlt₃ => goes_token_bind ?_
    split
    · refine goes_bind hq₃ (ih.arguments hq₃) fun _ q₄ hq₄ hle₄ _ => ?_
      refine goes_bind hq₄ goes_make fun _ q₅ _ hle₅ _ => goes_pure fun _ => ?_
      omega
    · refine goes_bind hq₃ goes_make fun _ q₄ _ hle₄ _ => goes_pure fun _ => ?_
      omega
  · refine goes_bind hp goes_spend fun _ q₁ hq₁ hle₁ _ => ?_
    refine goes_bind hq₁ (ih.arguments hq₁) fun _ q₂ hq₂ _ hlt₂ => ?_
    refine goes_bind hq₂ goes_make fun _ q₃ _ hle₃ _ => goes_pure fun _ => ?_
    omega
  · refine goes_bind hp goes_spend fun _ q₁ hq₁ hle₁ _ => ?_
    refine goes_bind hq₁ (goes_advance hq₁.ahead) fun _ q₂ hq₂ hle₂ _ => ?_
    refine goes_bind hq₂ (ih.ternary hq₂) fun _ q₃ hq₃ _ hlt₃ => ?_
    refine goes_bind hq₃ (goes_pass_symbol hq₃ _ _) fun _ q₄ hq₄ hle₄ _ => ?_
    refine goes_bind hq₄ goes_make fun _ q₅ _ hle₅ _ => goes_pure fun _ => ?_
    omega
  · exact goes_pure nofun

theorem goes_argumentRound :
    (argumentRound build budget).MovesOn build p := by
  refine goes_bind hp (ih.ternary hp) fun _ q₁ hq₁ _ hlt₁ => goes_token_bind ?_
  split
  · refine goes_bind hq₁ (goes_advance hq₁.ahead) fun _ q₂ _ hle₂ _ => goes_pure ?_
    omega
  · exact goes_pure hlt₁

/-- Where no further round follows, the closing bracket does. -/
theorem goes_listRound :
    (listRound build budget).Goes build p fun
      | none, q => q.current.token = .symbol .bracketClose
      | some _, q => p.place < q.place := by
  refine goes_token_bind ?_
  split
  · next hclose => exact goes_pure hclose
  · split
    · next hcomma =>
      have hne : p.current.token ≠ .eof := by simp [hcomma]
      exact goes_bind hp (goes_advance (hp.behind hne)) fun _ _ _ _ hlt => goes_pure hlt
    · refine goes_bind hp (ih.ternary hp) fun _ q₁ hq₁ _ hlt₁ => ?_
      refine goes_bind hq₁ (goes_separator hq₁ _ _) fun _ q₂ _ hle₂ _ => goes_pure ?_
      exact Nat.lt_of_lt_of_le hlt₁ hle₂

/-- Where no further round follows, the closing brace does. -/
theorem goes_mapRound :
    (mapRound build budget).Goes build p fun
      | none, q => q.current.token = .symbol .braceClose
      | some _, q => p.place < q.place := by
  refine goes_token_bind ?_
  split
  · next hclose => exact goes_pure hclose
  · split
    · next hcomma =>
      have hne : p.current.token ≠ .eof := by simp [hcomma]
      exact goes_bind hp (goes_advance (hp.behind hne)) fun _ _ _ _ hlt => goes_pure hlt
    · refine goes_bind hp (goes_takeKey hp) fun _ q₁ hq₁ _ hlt₁ => ?_
      refine goes_bind hq₁ (ih.mapValue hq₁) fun _ q₂ hq₂ hle₂ _ => ?_
      refine goes_bind hq₂ (goes_separator hq₂ _ _) fun _ q₃ _ hle₃ _ => goes_pure ?_
      exact Nat.lt_of_lt_of_le hlt₁ (Nat.le_trans hle₂ hle₃)

/-! #### The insides of brackets -/

theorem goes_parenthesized :
    (parenthesized build budget).MovesOn build p := by
  refine goes_bind hp (goes_advance hp.ahead) fun _ q₁ hq₁ hle₁ _ => ?_
  refine goes_bind hq₁ (ih.ternary hq₁) fun _ q₂ hq₂ _ hlt₂ => ?_
  refine goes_bind hq₂ (goes_pass_symbol hq₂ _ _) fun _ q₃ hq₃ hle₃ _ => ?_
  exact goes_make.beyond hq₃ (by omega)

theorem goes_listLiteral :
    (listLiteral build budget).MovesOn build p :=
  goes_enclosed hp (fun _ => ih.listItems) .list

theorem goes_mapLiteral :
    (mapLiteral build budget).MovesOn build p :=
  goes_enclosed hp (fun _ => ih.mapEntries) .map

/-! #### One call at a time -/

theorem goes_ternary :
    (ternary build (budget + 1)).MovesOn build p := by
  refine goes_bind hp (ih.binary 1 hp) fun _ q₁ hq₁ _ hlt₁ => goes_token_bind ?_
  split
  · refine goes_bind hq₁ (goes_advance hq₁.ahead) fun _ q₂ hq₂ hle₂ _ => ?_
    refine goes_bind hq₂ (goes_nested hq₂ fun _ => ih.ternary) fun _ q₃ hq₃ hle₃ _ => ?_
    refine goes_bind hq₃ (goes_pass_symbol hq₃ _ _) fun _ q₄ hq₄ hle₄ _ => ?_
    refine goes_bind hq₄ (goes_nested hq₄ fun _ => ih.ternary) fun _ q₅ hq₅ hle₅ _ => ?_
    exact goes_make.beyond hq₅ (by omega)
  · exact goes_pure hlt₁

theorem goes_binary (least : Nat) :
    (binary build (budget + 1) least).MovesOn build p := by
  refine goes_bind hp (ih.unary hp) fun _ q₁ hq₁ _ hlt₁ => ?_
  exact (goes_restoring (ih.binaryChain least _ hq₁)).beyond hq₁ hlt₁

theorem goes_binaryChain (least : Nat) (left : α) :
    (binaryChain build (budget + 1) least left).Goes build p fun _ _ => True := by
  rw [binaryChain_succ]
  refine goes_bind hp (goes_binaryRound ih hp least left) fun joined q hq _ _ => ?_
  cases joined with
  | none => exact goes_pure trivial
  | some joined => exact ih.binaryChain least joined hq

theorem goes_unary :
    (unary build (budget + 1)).MovesOn build p := by
  refine goes_token_bind ?_
  split
  · refine goes_bind hp (goes_advance hp.ahead) fun _ q₁ hq₁ hle₁ _ => ?_
    refine goes_bind hq₁ (goes_nested hq₁ fun _ => ih.unary) fun _ q₂ hq₂ _ hlt₂ => ?_
    exact goes_make.beyond hq₂ (by omega)
  · exact ih.access hp

theorem goes_access :
    (access build (budget + 1)).MovesOn build p := by
  refine goes_bind hp (ih.operand hp) fun _ q₁ hq₁ _ hlt₁ => ?_
  exact (goes_restoring (ih.accessChain _ hq₁)).beyond hq₁ hlt₁

theorem goes_accessChain (receiver : α) :
    (accessChain build (budget + 1) receiver).Goes build p fun _ _ => True := by
  rw [accessChain_succ]
  refine goes_bind hp (goes_accessRound ih hp receiver) fun access q hq _ _ => ?_
  cases access with
  | none => exact goes_pure trivial
  | some access => exact ih.accessChain access hq

theorem goes_arguments :
    (arguments build (budget + 1)).MovesOn build p := by
  refine goes_bind hp (goes_pass_symbol hp _ _) fun _ q₁ hq₁ _ hlt₁ => goes_token_bind ?_
  have hclose (args : List α) {q : Parser σ} (hq : q.InOrder source) (hle : q₁.place ≤ q.place) :
      (do pass (.symbol .parenClose) [.symbol .comma, .symbol .parenClose]
          return args : Step σ (List α)).Goes build q fun _ r => p.place < r.place := by
    refine goes_bind hq (goes_pass_symbol hq _ _) fun _ r _ hle' _ => goes_pure ?_
    omega
  split
  · have hnil : (pure [] : Step σ (List α)).Goes build q₁ fun _ _ => True := goes_pure trivial
    exact goes_bind hq₁ hnil fun args q hq hle _ => hclose args hq hle
  · exact goes_bind hq₁ (ih.argumentList hq₁) fun args q hq hle _ => hclose args hq hle

theorem goes_argumentList :
    (argumentList build (budget + 1)).Goes build p fun _ _ => True := by
  rw [argumentList_succ]
  refine goes_bind hp (goes_argumentRound ih hp) fun r q hq _ _ => ?_
  obtain ⟨argument, again⟩ := r
  cases again with
  | false => exact goes_pure trivial
  | true => exact goes_bind hq (ih.argumentList hq) fun _ _ _ _ _ => goes_pure trivial

theorem goes_operand :
    (operand build (budget + 1)).MovesOn build p := by
  rw [operand_succ]
  refine goes_token_bind ?_
  split
  · next htoken => exact goes_leaf hp (by simp [htoken]) _
  · next htoken => exact goes_leaf hp (by simp [htoken]) _
  · next htoken => exact goes_leaf hp (by simp [htoken]) _
  · next htoken => exact goes_leaf hp (by simp [htoken]) _
  · next htoken => exact goes_leaf hp (by simp [htoken]) _
  · next htoken => exact goes_bracketed hp (by simp [htoken]) fun _ => goes_parenthesized ih
  · next htoken => exact goes_bracketed hp (by simp [htoken]) fun _ => goes_listLiteral ih
  · next htoken => exact goes_bracketed hp (by simp [htoken]) fun _ => goes_mapLiteral ih
  · exact goes_unexpected _

theorem goes_listItems :
    (listItems build (budget + 1)).Goes build p
      fun _ q => q.current.token = .symbol .bracketClose := by
  rw [listItems_succ]
  refine goes_bind hp (goes_listRound ih hp) fun item q hq _ hround => ?_
  cases item with
  | none => exact goes_pure hround
  | some item => exact goes_bind hq (ih.listItems hq) fun _ _ _ _ hclose => goes_pure hclose

theorem goes_mapEntries :
    (mapEntries build (budget + 1)).Goes build p
      fun _ q => q.current.token = .symbol .braceClose := by
  rw [mapEntries_succ]
  refine goes_bind hp (goes_mapRound ih hp) fun entry q hq _ hround => ?_
  cases entry with
  | none => exact goes_pure hround
  | some entry => exact goes_bind hq (ih.mapEntries hq) fun _ _ _ _ hclose => goes_pure hclose

theorem goes_mapValue :
    (mapValue build (budget + 1)).Goes build p fun _ _ => True := by
  refine goes_token_bind ?_
  split
  · refine goes_bind hp (goes_advance hp.ahead) fun _ q₁ hq₁ _ _ => ?_
    exact goes_bind hq₁ (ih.ternary hq₁) fun _ _ _ _ _ => goes_pure trivial
  · exact goes_pure trivial

end Phrases

/-- **Every phrase does nothing but changes, and moves on if it succeeds,** with every budget. -/
theorem onward (build : Builder σ α) (source : List Char) (budget : Nat) :
    Onward build source budget := by
  induction budget with
  | zero => constructor <;> intros <;> exact goes_exhausted
  | succ budget ih =>
    exact {
      ternary := goes_ternary ih
      binary := fun least _ hp => goes_binary ih hp least
      binaryChain := fun least left _ hp => goes_binaryChain ih hp least left
      unary := goes_unary ih
      access := goes_access ih
      accessChain := fun receiver _ hp => goes_accessChain ih hp receiver
      arguments := goes_arguments ih
      argumentList := goes_argumentList ih
      operand := goes_operand ih
      listItems := goes_listItems ih
      mapEntries := goes_mapEntries ih
      mapValue := goes_mapValue ih }

theorem goes_whole {p : Parser σ} (hp : p.InOrder source) (budget : Nat) :
    (whole build budget).Goes build p fun _ _ => True := by
  refine goes_token_bind ?_
  split
  · exact goes_make.mono fun _ _ _ => trivial
  · refine goes_bind hp ((onward build source budget).ternary hp) fun _ q hq _ _ => ?_
    refine goes_bind hq (goes_pass fun _ => hq.ahead) fun _ _ _ _ _ => goes_pure trivial

/-! ### Phrases and rounds -/

/-- From the state, every phrase moves on, and so does every round of a loop that goes round
again. -/
structure Progress (build : Builder σ α) (budget : Nat) (p : Parser σ) : Prop where
  ternary : (ternary build budget).MovesOn build p
  binary (least : Nat) : (binary build budget least).MovesOn build p
  unary : (unary build budget).MovesOn build p
  access : (access build budget).MovesOn build p
  operand : (operand build budget).MovesOn build p
  parenthesized : (parenthesized build budget).MovesOn build p
  listLiteral : (listLiteral build budget).MovesOn build p
  mapLiteral : (mapLiteral build budget).MovesOn build p
  arguments : (arguments build budget).MovesOn build p
  binaryRound (least : Nat) (left : α) : (binaryRound build budget least left).Goes build p
    fun joined q => joined.isSome = true → p.place < q.place
  accessRound (receiver : α) : (accessRound build budget receiver).Goes build p
    fun access q => access.isSome = true → p.place < q.place
  argumentRound : (argumentRound build budget).Goes build p
    fun r q => r.2 = true → p.place < q.place
  listRound : (listRound build budget).Goes build p
    fun item q => item.isSome = true → p.place < q.place
  mapRound : (mapRound build budget).Goes build p
    fun entry q => entry.isSome = true → p.place < q.place

theorem progress {p : Parser σ} (hp : p.InOrder source) (build : Builder σ α) (budget : Nat) :
    Progress build budget p :=
  have h := onward build source budget
  { ternary := h.ternary hp
    binary := fun least => h.binary least hp
    unary := h.unary hp
    access := h.access hp
    operand := h.operand hp
    parenthesized := goes_parenthesized h hp
    listLiteral := goes_listLiteral h hp
    mapLiteral := goes_mapLiteral h hp
    arguments := h.arguments hp
    binaryRound := goes_binaryRound h hp
    accessRound := goes_accessRound h hp
    argumentRound := (goes_argumentRound h hp).mono fun _ _ hlt _ => hlt
    listRound := (goes_listRound h hp).mono fun item _ hround hsome => by
      cases item with
      | none => nomatch hsome
      | some item => exact hround
    mapRound := (goes_mapRound h hp).mono fun entry _ hround hsome => by
      cases entry with
      | none => nomatch hsome
      | some entry => exact hround }

/-- A round after which its loop goes round again. -/
inductive GoesRound (build : Builder σ α) : Parser σ → Parser σ → Prop
  | binary {budget least : Nat} {left joined : α} {p q : Parser σ} :
    (binaryRound build budget least left).Gives p (some joined) q → GoesRound build p q
  | access {budget : Nat} {receiver access : α} {p q : Parser σ} :
    (accessRound build budget receiver).Gives p (some access) q → GoesRound build p q
  | argument {budget : Nat} {argument : α} {p q : Parser σ} :
    (argumentRound build budget).Gives p (argument, true) q → GoesRound build p q
  | list {budget : Nat} {item : Option α} {p q : Parser σ} :
    (listRound build budget).Gives p (some item) q → GoesRound build p q
  | map {budget : Nat} {entry : Option (String × Option α)} {p q : Parser σ} :
    (mapRound build budget).Gives p (some entry) q → GoesRound build p q

theorem GoesRound.movesOn {p q : Parser σ} (hp : p.InOrder source) (h : GoesRound build p q) :
    p.Becomes build q ∧ p.place < q.place := by
  have hprogress := progress hp build
  cases h with
  | binary h => exact (((hprogress _).binaryRound _ _).of_gives h).imp_right fun hlt => hlt rfl
  | access h => exact (((hprogress _).accessRound _).of_gives h).imp_right fun hlt => hlt rfl
  | argument h => exact ((hprogress _).argumentRound.of_gives h).imp_right fun hlt => hlt rfl
  | list h => exact ((hprogress _).listRound.of_gives h).imp_right fun hlt => hlt rfl
  | map h => exact ((hprogress _).mapRound.of_gives h).imp_right fun hlt => hlt rfl

/-- **Loops end.**  They go round at most once for every character that is left. -/
theorem length_le_of_goesRound {p : Parser σ} (hp : p.InOrder source) {rounds : List (Parser σ)}
    (h : List.IsChain (GoesRound build) (p :: rounds)) :
    rounds.length ≤ source.length - p.place := by
  induction rounds generalizing p with
  | nil => exact Nat.zero_le _
  | cons q rounds ih =>
    obtain ⟨hround, hrest⟩ := List.isChain_cons_cons.1 h
    obtain ⟨hbecomes, hlt⟩ := hround.movesOn hp
    have hq := (hp.becomes hbecomes).1
    have hle := hq.place_le
    have hlength := ih hq hrest
    rw [List.length_cons]
    omega

end Grammar

/-! ### Calls -/

namespace Call

variable {σ α : Type}

/-- **Calls do nothing but changes,** whether they fail or not. -/
theorem becomes_apply {source : List Char} {p : Parser σ} (hp : p.InOrder source)
    (build : Builder σ α) (call : Call) : p.Becomes build (call.apply build p).2 := by
  have hstep : (call.step build (Grammar.budget p)).Goes build p fun _ _ => True := by
    cases call with
    | parse => exact Grammar.goes_whole hp _
    | parseExpression =>
      exact ((Grammar.onward build source _).ternary hp).mono fun _ _ _ => trivial
  exact (hstep _ _ (outcome_step build call p (Nat.le_refl _))).1

end Call

theorem Parser.becomes_afterCalls {σ α : Type} {source : List Char} {p : Parser σ}
    (hp : p.InOrder source) (build : Builder σ α) (calls : List Call) :
    p.Becomes build (p.afterCalls build calls) := by
  induction calls generalizing p with
  | nil => exact .refl
  | cons call calls ih =>
    have hcall := call.becomes_apply hp build
    exact hcall.trans (ih (hp.becomes hcall).1)

namespace Call

variable {σ α : Type}

/-- **Everything moves on, and everything ends.**  A parser takes over a lexer, whatever that has
been asked before, and has answered any calls, with or without success.  In every state that it
comes to then, between two calls or in the midst of one, the following holds.  The current lexeme
stands in the source.  A phrase that succeeds moves to a lexeme further on, and so does a round of a
loop that goes round again.  No loop goes round more often than there are characters left.  Either
call does nothing but changes, and ends: it does so within every budget of at least five more than
seven times the number of characters left. -/
theorem moves_on_and_ends {source : String} {queries : List Lexer.Query}
    {allowance : Option Allowance} {built : σ} {build : Builder σ α} {p₀ p q : Parser σ}
    {earlier : List Call}
    (hstart : Parser.ofFeed ((Lexer.ofSource source).afterQueries queries).cursor.feed allowance
      built = .ok p₀)
    (hp : p₀.afterCalls build earlier = p) (hq : p.Becomes build q) :
    q.place ≤ source.toList.length ∧
      (∀ budget, Grammar.Progress build budget q) ∧
      (∀ rounds, List.IsChain (Grammar.GoesRound build) (q :: rounds) →
        rounds.length ≤ source.toList.length - q.place) ∧
      ∀ call : Call, q.Becomes build (call.apply build q).2 ∧
        ∀ budget, 7 * (source.toList.length - q.place) + 5 ≤ budget →
          (call.step build budget).outcome q = some (call.apply build q) := by
  have hfirst : p₀.InOrder source.toList :=
    Parser.inOrder_of_ofFeed (Lexer.stands_afterQueries source queries) hstart
  have hcalls : p₀.Becomes build p := hp ▸ Parser.becomes_afterCalls hfirst build earlier
  have horder := (hfirst.becomes (hcalls.trans hq)).1
  refine ⟨horder.place_le, Grammar.progress horder build,
    fun _ => Grammar.length_le_of_goesRound horder, fun call => ?_⟩
  refine ⟨call.becomes_apply horder build, fun budget hbudget => outcome_step build call q ?_⟩
  -- Few characters are left, so few lexemes are, and the budget for these is enough.
  have hsize := horder.size_le
  rw [Grammar.budget]
  omega

/-- The first call fails at the brace.  In the next one the brace is taken out, and the inside of
the map begins, at offset 3; it ends behind the closing brace. -/
theorem moves_on_inside_map :
    ∃ p₀ p r : Parser Unit,
      Parser.ofFeed ((Lexer.ofSource "(b {a}").afterQueries []).cursor.feed none () = .ok p₀ ∧
      p₀.afterCalls Expr.builder [.parse] = p ∧ p.Becomes Expr.builder p.vacated ∧
      p.vacated.place = 3 ∧
      (Grammar.mapLiteral Expr.builder 26).Gives p.vacated (.map [("a", none)]) r ∧
      p.vacated.place < r.place := by
  have hmap : (Parser.ofFeed ((Lexer.ofSource "(b {a}").afterQueries []).cursor.feed none ()).map
      (fun p₀ =>
        let p := p₀.afterCalls Expr.builder [.parse]
        (p.current.token, p.place,
          ((Grammar.mapLiteral Expr.builder 26).outcome p.vacated).map Prod.fst)) =
      .ok (.symbol .braceOpen, 3, some (.ok (.map [("a", none)]))) := by
    decide +kernel
  cases hstart : Parser.ofFeed ((Lexer.ofSource "(b {a}").afterQueries []).cursor.feed none () with
  | error e =>
    rw [hstart] at hmap
    nomatch hmap
  | ok p₀ =>
    rw [hstart] at hmap
    obtain ⟨htoken, hrest⟩ := Prod.mk.inj (Except.ok.inj hmap)
    obtain ⟨hplace, hresult⟩ := Prod.mk.inj hrest
    obtain ⟨⟨_, r⟩, hgives, rfl⟩ := Option.map_eq_some_iff.1 hresult
    have hvacated := Parser.becomes_vacated Expr.builder (by rw [htoken]; decide)
    obtain ⟨-, hprogress, -⟩ := moves_on_and_ends hstart rfl hvacated
    exact ⟨p₀, _, r, rfl, rfl, hvacated, hplace, hgives,
      ((hprogress 26).mapLiteral.of_gives hgives).2⟩

end Call

end Binding
