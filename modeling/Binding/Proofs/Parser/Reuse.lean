import Binding.Proofs.Grammar.Diagnosis
import Binding.Proofs.Grammar.Limit
import Binding.Proofs.Grammar.WellFormed
import Binding.Proofs.Parser.Calls
import Binding.Proofs.Token.Places

/-!
# A parser that is used again

A call that succeeds gives a tree, and the tree should be one of the source: of the text that the
call has passed, from the place of the lexeme it found to the place of the lexeme it left, or to the
end of the source if it asked for everything.  So it is, if the call found the parser *intact*: at
a lexeme of the source, with the rest of the source to come.

Not every call leaves the parser intact.  A token is taken out before the parser has moved past it,
and where moving fails, or the level of nesting that a bracket needs is not left, a stand-in remains
in its place.  Also a string without a closing quote is met only once, and then the source seems to
end.  A later call takes both for what stands in the source.

## Both directions

That an intact parser gives trees of its source is soundness of the grammar, read off the lexemes
and then off the characters.  For the other direction, note that a tree tells the token that its
text begins with (`Expr.opening`).  If a call gives a tree which is also that of the text, then the
token it found there is the one that stands in the source; and the text can be read to its end, so
that no string in it lacks its closing quote.

After a call that succeeds, or fails because of a lexeme that is out of place, the parser is intact
if it was before.  For failures this rests on `Grammar.viable`: up to there, tokens have been passed
and nothing else has happened.

## Main definitions

* `Parser.Intact`: the current lexeme and the feed are those of the source.
* `Parser.Placed`: what is left of this after any calls.
* `Call.passed`: the text that a call has passed.

## Main results

* `Parser.Placed.invariant`: after any calls, the parser is somewhere in the source.
* `Parser.Intact.apply`: which calls leave the parser intact.
* `Call.apply_eq_ok_iff_intact`: a tree is one of the source if and only if the parser was intact.
-/

namespace Binding

open Phrase

/-! ### The first token of a tree -/

/-- The token that a text of the tree begins with.  For the empty tree, it is the end of input. -/
def Expr.opening : Expr → Token
  | .empty => .eof
  | .literal (.number value) => .number value
  | .literal (.string value) => .string value
  | .literal (.boolean value) => .boolean value
  | .literal .null => .null
  | .identifier name => .identifier name
  | .unary op _ => .symbol op.symbol
  | .binary _ left _ => left.opening
  | .getter receiver _ => receiver.opening
  | .invoke receiver _ _ => receiver.opening
  | .paren _ => .symbol .parenOpen
  | .index receiver _ => receiver.opening
  | .ternary condition _ _ => condition.opening
  | .map _ => .symbol .braceOpen
  | .list _ => .symbol .bracketOpen

namespace Phrase

variable {ts : List Token} {e : Expr}

theorem Operand.head?_eq (h : Operand ts e) : ts.head? = some e.opening := by
  cases h <;> rfl

theorem Access.head?_eq {ts : List Token} {e : Expr} :
    Access ts e → ts.head? = some e.opening
  | .operand h => h.head?_eq
  | .getter h | .method h _ | .call h _ _ | .index h _ => by
    rw [List.head?_append, h.head?_eq]
    rfl

theorem Unary.head?_eq (h : Unary ts e) : ts.head? = some e.opening := by
  cases h with
  | apply _ => rfl
  | access h => exact h.head?_eq

theorem Binary.head?_eq {least : Nat} {ts : List Token} {e : Expr} :
    Binary least ts e → ts.head? = some e.opening
  | .unary h => h.head?_eq
  | .join _ h _ => by
    rw [List.head?_append, h.head?_eq]
    rfl

theorem Expression.head?_eq (h : Expression ts e) : ts.head? = some e.opening := by
  cases h with
  | plain h => exact h.head?_eq
  | ternary h _ _ =>
    rw [List.head?_append, h.head?_eq]
    rfl

/-- **A tree tells the token that its text begins with.** -/
theorem Whole.head?_eq (h : Whole ts e) : (ts ++ [Token.eof]).head? = some e.opening := by
  obtain ⟨rfl, rfl⟩ | h := h
  · rfl
  · rw [List.head?_append, h.head?_eq]
    rfl

end Phrase

/-! ### Parsers in a source -/

namespace Parser

variable {σ : Type} {source : String} {p q : Parser σ}

/-- Reading the source at the place of the current lexeme gives this lexeme, and then what the feed
gives. -/
def Intact (source : String) (p : Parser σ) : Prop :=
  ∃ c, (Cursor.into source.toList p.current.position.offset).next = (.ok p.current, c) ∧
    p.feed = c.feed

/-- The parser is at a lexeme of the source, the token of which may have been taken out.  What
follows in the source is to come; or it cannot be read, and the source seems to end. -/
def Placed (source : String) (p : Parser σ) : Prop :=
  ∃ l c, (Cursor.into source.toList p.current.position.offset).next = (.ok l, c) ∧
    p.current = { l with token := p.current.token } ∧
    (p.feed = c.feed ∨ ∃ (e : LexError) (d : Cursor), c.next.1 = .error e ∧
      d.Stands source.toList ∧ d.rest = [] ∧ p.feed = d.feed)

theorem Intact.placed (h : p.Intact source) : p.Placed source := by
  obtain ⟨c, hnext, hfeed⟩ := h
  exact ⟨p.current, c, hnext, rfl, .inl hfeed⟩

theorem stands_of_into {n : Nat} {l : Lexeme} {c : Cursor}
    (h : (Cursor.into source.toList n).next = (.ok l, c)) : c.Stands source.toList := by
  have hstands := (Cursor.stands_into source.toList n).next
  rwa [h] at hstands

/-- What the feed of a parser in a source reads, it reads at a place of the source. -/
theorem Placed.exists_stands (h : p.Placed source) :
    ∃ d : Cursor, d.Stands source.toList ∧ p.feed = d.feed := by
  obtain ⟨l, c, hl, -, hfeed | ⟨-, d, -, hd, -, hfeed⟩⟩ := h
  · exact ⟨c, stands_of_into hl, hfeed⟩
  · exact ⟨d, hd, hfeed⟩

/-- A parser is intact when it has moved. -/
theorem intact_of_next {d : Cursor} (hd : d.Stands source.toList) {l : Lexeme} {f : Feed}
    (hl : d.feed.next = (.ok l, f)) (hcurrent : p.current = l) (hfeed : p.feed = f) :
    p.Intact source := by
  rw [Cursor.next_feed] at hl
  obtain ⟨hitem, rfl⟩ := Prod.mk.inj hl
  refine ⟨d.next.2, ?_, hfeed⟩
  rw [hcurrent, hd.into_next (Prod.ext hitem rfl), ← hitem]

theorem intact_of_ofSource {allowance : Option Allowance} {built : σ}
    (h : ofSource source allowance built = .ok p) : p.Intact source := by
  rw [ofSource, ofFeed] at h
  split at h
  · next l f hl =>
    obtain rfl := Except.ok.inj h
    exact intact_of_next (Cursor.stands_start source.toList) hl rfl rfl
  · cases h

theorem Intact.takes {ls : List Lexeme} {g : Feed} (h : p.Intact source)
    (hls : p.feed.Takes ls g) : (p.past ls g).Intact source := by
  induction ls generalizing p with
  | nil =>
    obtain rfl := hls
    exact h
  | cons l ls ih =>
    obtain ⟨f, hl, hls⟩ := hls
    obtain ⟨d, hd, hfeed⟩ := h.placed.exists_stands
    rw [p.past_cons l ls f g]
    exact ih (intact_of_next hd (hfeed ▸ hl) rfl rfl) hls

theorem Intact.reads {ts : List Token} (h : p.Intact source) (hq : p.Reads ts q) :
    q.Intact source := by
  obtain ⟨ls, g, rfl, htakes, -⟩ := reads_iff.1 hq
  exact h.takes htakes

/-- **After any calls, the parser is somewhere in the source.** -/
theorem Placed.invariant {α : Type} (build : Builder σ α) (source : String) :
    Invariant build (Placed source) where
  taken hp hnext := by
    obtain ⟨d, hd, hfeed⟩ := hp.exists_stands
    exact (intact_of_next hd (hfeed ▸ hnext) rfl rfl).placed
  missed := by
    rintro p e f ⟨l, c, hl, hcurrent, hfeed | ⟨_, d, -, -, hnil, hfeed⟩⟩ hnext
    · rw [hfeed, Cursor.next_feed] at hnext
      obtain ⟨herror, rfl⟩ := Prod.mk.inj hnext
      rcases Cursor.next_of_error herror with hnil | hsame
      · exact ⟨l, c, hl, hcurrent, .inr ⟨e, _, herror, (stands_of_into hl).next, hnil, rfl⟩⟩
      · exact ⟨l, c, hl, hcurrent, .inl hsame⟩
    · -- At the end of the source there is always one more lexeme.
      rw [hfeed, Cursor.next_feed, Cursor.next_of_rest_eq_nil hnil] at hnext
      nomatch (Prod.mk.inj hnext).1
  putToken := by
    rintro p t ⟨l, c, hl, hcurrent, hfeed⟩
    refine ⟨l, c, hl, ?_, hfeed⟩
    rw [hcurrent]
  within _ hp := hp
  made _ hp := hp

end Parser

/-! ### Calls that leave the parser intact -/

namespace Call

variable {call : Call} {p q : Parser Unit} {source : String} {t : Expr}

theorem local_step (call : Call) (budget : Nat) : (call.step Expr.builder budget).Local := by
  cases call with
  | parse => exact Grammar.local_whole budget
  | parseExpression => exact Grammar.local_ternary budget

/-- Up to a lexeme that is out of place, tokens have been passed and nothing else has happened. -/
theorem reads_of_fails {budget : Nat} {found : Token} {position : Position}
    {expected : List Expectation} (hp : p.Bounded)
    (h : (call.step Expr.builder budget).Fails p (.unexpected found position expected) q) :
    ∃ us, p.Reads us q := by
  cases call with
  | parse =>
    rcases Grammar.whole_viable hp h with ⟨_, _, _, -, -, heq⟩ | ⟨us, _, hhalts, -⟩
    · nomatch heq
    · exact ⟨us, hhalts.of_unexpected.1⟩
  | parseExpression =>
    have hstuck : Step.Stuck [] (fun ts => ∃ e, Expression ts e) _ p :=
      (Grammar.viable budget).ternary hp
    obtain ⟨us, _, hhalts, -⟩ := hstuck _ _ h
    exact ⟨us, hhalts.of_unexpected.1⟩

/-- What a call does before it fails at a lexeme, it does also without a limit on nesting. -/
theorem apply_within_none {found : Token} {position : Position} {expected : List Expectation}
    (h : (call.apply Expr.builder p).1 = .error (.unexpected found position expected)) :
    ∃ allowance, call.apply Expr.builder (p.within none) =
      (.error (.unexpected found position expected),
        (call.apply Expr.builder p).2.within allowance) := by
  cases hp : p.allowance with
  | none =>
    refine ⟨(call.apply Expr.builder p).2.allowance, ?_⟩
    rw [← hp, Parser.within_self, Parser.within_self, ← h]
  | some a =>
    have hstates : (Pairing.tighter Unit Expr a.limit).states p (p.within none) :=
      ⟨none, rfl, a.remaining, hp, nofun⟩
    have hmatched := matched_apply (Pairing.respected_tighter a.limit Expr.builder) call hstates
    generalize call.apply Expr.builder p = r, call.apply Expr.builder (p.within none) = r'
      at h hmatched ⊢
    cases hmatched with
    | excused _ _ he =>
      obtain ⟨_, rfl⟩ := he
      nomatch h
    | error he hstates =>
      obtain ⟨allowance, rfl, -⟩ := hstates
      obtain rfl := Except.error.inj h
      exact ⟨allowance, by rw [← show _ = _ from he]⟩
    | ok _ _ => nomatch h

/-- A call that fails at a lexeme has taken some lexemes, and stands at the last of them. -/
theorem takes_of_fails {budget : Nat} {found : Token} {position : Position}
    {expected : List Expectation} (hp : p.allowance = none)
    (h : (call.step Expr.builder budget).Fails p (.unexpected found position expected) q) :
    ∃ ls, p.feed.Takes ls q.feed ∧ q.current = ls.getLastD p.current := by
  obtain ⟨ls, hmoves, -, hother⟩ := call.local_step budget p _ q hp h (by simp)
  -- On a feed that ends in an error, the lexemes taken are those of the tokens passed.
  let p' : Parser Unit := ⟨.ofList ls (.unexpectedChar ' ' position), p.current, none, ()⟩
  have hp' : p'.Bounded := ⟨rfl, Feed.bounded_ofList _ _⟩
  obtain ⟨_, q', hfails, hmoves', hlike, hreplays⟩ :=
    hother p' ls _ ⟨rfl, hp, rfl⟩ (Feed.takes_ofList _ _) rfl
  obtain ⟨-, rfl⟩ := hreplays.of_unexpected
  obtain ⟨us, hus⟩ := reads_of_fails hp' hfails
  obtain ⟨ls', g, hpast, htakes, -⟩ := Parser.reads_iff.1 hus
  have htakes' : p'.feed.Takes ls g := by
    have hfeed : q'.feed = g := congrArg Parser.feed hpast
    exact hfeed ▸ hmoves'.1
  obtain rfl : ls' = ls := htakes.eq_of_bounded htakes' hp'.feed
  refine ⟨ls', hmoves.1, ?_⟩
  rw [hmoves.2, ← hlike.token, hpast]
  rfl

theorem takes_of_apply {found : Token} {position : Position} {expected : List Expectation}
    (h : (call.apply Expr.builder p).1 = .error (.unexpected found position expected)) :
    ∃ ls, p.feed.Takes ls (call.apply Expr.builder p).2.feed ∧
      (call.apply Expr.builder p).2.current = ls.getLastD p.current := by
  obtain ⟨allowance, hwithin⟩ := apply_within_none h
  have houtcome := outcome_step Expr.builder call (p.within none) (Nat.le_refl _)
  rw [hwithin] at houtcome
  obtain ⟨ls, htakes, hcurrent⟩ := takes_of_fails (Parser.allowance_within p none) houtcome
  exact ⟨ls, htakes, hcurrent⟩

/-- The call has succeeded, or it has failed because of a lexeme that is out of place. -/
def Orderly : Except ParseError Expr → Prop
  | .ok _ => True
  | .error (.unexpected _ _ _) => True
  | .error _ => False

theorem gives_step {budget : Nat} (hbudget : Grammar.budget p ≤ budget)
    (h : (call.apply Expr.builder p).1 = .ok t) :
    (call.step Expr.builder budget).Gives p t (call.apply Expr.builder p).2 := by
  rw [Step.Gives, outcome_step Expr.builder call p hbudget, ← h]

/-- A call that succeeds has passed the tokens of its tree, and found the levels of nesting that the
tree needs. -/
theorem finds_of_apply (h : (call.apply Expr.builder p).1 = .ok t) :
    ∃ ts r, p.Reads ts r ∧ Whole ts t ∧ p.Affords t.need ∧
      match call with
      | .parse => r.current.token = .eof ∧
        ((call.apply Expr.builder p).2 = r ∨ r.next? = some (call.apply Expr.builder p).2)
      | .parseExpression => ts ≠ [] ∧ (call.apply Expr.builder p).2 = r := by
  have hgives := gives_step (Nat.le_refl _) h
  cases call with
  | parse =>
    by_cases heof : p.current.token = .eof
    · have hempty := Grammar.gives_whole.1 hgives
      rw [if_pos heof] at hempty
      obtain ⟨rfl, hleft⟩ := hempty
      exact ⟨[], p, p.reads_refl, .inl ⟨rfl, rfl⟩, fun _ _ => Nat.zero_le _, heof, .inl hleft⟩
    · have hroot := Grammar.gives_whole.1 hgives
      rw [if_neg heof] at hroot
      obtain ⟨r, hroot, hend, hnext⟩ := hroot
      obtain ⟨ts, hts, he, haffords⟩ := (Grammar.sound _).ternary hroot
      exact ⟨ts, r, hts, .inr he, haffords, hend, .inr hnext⟩
  | parseExpression =>
    obtain ⟨ts, hts, he, haffords⟩ := (Grammar.sound _).ternary hgives
    exact ⟨ts, _, hts, .inr he, haffords, he.ne_nil, rfl⟩

end Call

namespace Parser

variable {source : String} {p : Parser Unit}

/-- **Calls that leave the parser intact:** those that succeed, and those that fail because of a
lexeme that is out of place. -/
theorem Intact.apply (hp : p.Intact source) {call : Call}
    (h : Call.Orderly (call.apply Expr.builder p).1) :
    (call.apply Expr.builder p).2.Intact source := by
  cases hresult : (call.apply Expr.builder p).1 with
  | ok t =>
    obtain ⟨ts, r, hreads, -, -, hend⟩ := Call.finds_of_apply hresult
    have hr := hp.reads hreads
    cases call with
    | parse =>
      rcases hend.2 with hsame | hnext
      · exact hsame ▸ hr
      · obtain ⟨l, f, hl, hleft⟩ := next?_eq_some_iff.1 hnext
        have htakes : r.feed.Takes [l] f := ⟨f, hl, rfl⟩
        rw [hleft]
        exact hr.takes htakes
    | parseExpression => exact hend.2 ▸ hr
  | error e =>
    rw [hresult] at h
    match e, h with
    | .unexpected found position expected, _ =>
      obtain ⟨ls, htakes, hcurrent⟩ := Call.takes_of_apply hresult
      rw [Intact, hcurrent]
      exact hp.takes htakes

/-- **Sessions that leave the parser intact.** -/
theorem Intact.afterCalls {calls : List Call} (hp : p.Intact source)
    (h : ∀ r ∈ p.results Expr.builder calls, Call.Orderly r) :
    (p.afterCalls Expr.builder calls).Intact source := by
  induction calls generalizing p with
  | nil => exact hp
  | cons call calls ih =>
    obtain ⟨hcall, hcalls⟩ := List.forall_mem_cons.1 h
    exact ih (hp.apply hcall) hcalls

end Parser

/-! ### Trees of the source -/

namespace Call

variable {call : Call} {p : Parser Unit} {source : String} {t : Expr}

/-- The place up to which the call takes the source: its end, or the place of the lexeme that the
call leaves. -/
def reach (source : String) (p : Parser Unit) : Call → Nat
  | .parse => source.toList.length
  | .parseExpression => (p.parseExpression Expr.builder).2.current.position.offset

/-- The text that the call has passed. -/
def passed (source : String) (p : Parser Unit) (call : Call) : String :=
  .ofList ((source.toList.take (call.reach source p)).drop p.current.position.offset)

/-- A call that succeeds found the token that its tree begins with. -/
theorem token_eq_opening (h : (call.apply Expr.builder p).1 = .ok t) :
    p.current.token = t.opening := by
  obtain ⟨ts, r, hreads, hwhole, -, hend⟩ := finds_of_apply h
  have hopening := hwhole.head?_eq
  cases ts with
  | nil =>
    obtain rfl := Parser.reads_nil.1 hreads
    cases call with
    | parse => exact hend.1.trans (Option.some.inj hopening)
    | parseExpression => exact absurd rfl hend.1
  | cons u ts => exact (Parser.reads_cons.1 hreads).1.1.trans (Option.some.inj hopening)

/-- The text passed, cut out of what follows the place of the current lexeme. -/
theorem passed_eq {text rest : List Char}
    (hrest : source.toList.drop p.current.position.offset = text ++ rest)
    (hreach : p.current.position.offset + text.length = call.reach source p) :
    call.passed source p = .ofList text := by
  rw [passed, ← hreach, List.drop_take, Nat.add_sub_cancel_left, hrest, List.take_left]

/-- A call that reaches to the end of the source has passed all that was left of it. -/
theorem passed_eq_drop (hreach : call.reach source p = source.toList.length) :
    call.passed source p = .ofList (source.toList.drop p.current.position.offset) := by
  rw [passed, hreach, List.take_length]

/-- A call that succeeds has passed the text of its tree, if the parser was intact. -/
theorem spells_passed_of_intact (hp : p.Intact source)
    (h : (call.apply Expr.builder p).1 = .ok t) :
    ∃ ts, Spells (call.passed source p).toList ts [] ∧ Whole ts t := by
  obtain ⟨ts, r, hreads, hwhole, -, hend⟩ := finds_of_apply h
  refine ⟨ts, ?_, hwhole⟩
  obtain ⟨c, hnext, hfeed⟩ := hp
  have hstart : Parser.ofFeed (Cursor.into source.toList p.current.position.offset).feed
      p.allowance p.built = .ok p := by
    refine Parser.ofFeed_feed_eq_ok_iff.2 ⟨p.current, by rw [hnext], ?_⟩
    rw [hnext, ← hfeed]
  cases call with
  | parse =>
    have hpassed : parse.passed source p = _ := passed_eq_drop rfl
    rw [hpassed, String.toList_ofList]
    exact Parser.spells_of_reads hstart hreads hend.1
  | parseExpression =>
    obtain ⟨text, rest, hrest, hposition, hts⟩ := Parser.exists_text_of_reads hstart hreads
    have hreach := congrArg Position.offset hposition
    rw [Position.offset_after, Cursor.offset_into hnext rfl, ← hend.2] at hreach
    have hpassed : parseExpression.passed source p = .ofList text := passed_eq hrest hreach.symm
    rw [hpassed, String.toList_ofList]
    exact hts

/-- A call that succeeds ends at a place of the source behind the one that the feed reads from. -/
theorem exists_part_of_apply {d : Cursor} (hd : d.Stands source.toList) (hfeed : p.feed = d.feed)
    (h : (call.apply Expr.builder p).1 = .ok t) :
    ∃ part rest, d.rest = part ++ rest ∧
      d.position.offset + part.length = call.reach source p := by
  obtain ⟨ts, r, hreads, -, -, hend⟩ := finds_of_apply h
  cases call with
  | parse => exact ⟨d.rest, [], (List.append_nil _).symm, hd.length_eq.symm⟩
  | parseExpression =>
    obtain ⟨u, ts, rfl⟩ := List.exists_cons_of_ne_nil hend.1
    obtain ⟨-, q, hq, hreads⟩ := Parser.reads_cons.1 hreads
    have hstart : Parser.ofFeed d.feed p.allowance p.built = .ok q :=
      hfeed ▸ Parser.next?_eq_some_iff_ofFeed.1 hq
    obtain ⟨part, rest, hrest, hposition, -⟩ := Parser.exists_text_of_reads hstart hreads
    refine ⟨part, rest, hrest, ?_⟩
    rw [← Position.offset_after, ← hposition, ← hend.2]
    rfl

/-- Where the source only seems to end, the text that a call has passed cannot be read. -/
theorem not_spells_passed {l : Lexeme} {c d : Cursor} {e : LexError}
    (hl : (Cursor.into source.toList p.current.position.offset).next = (.ok l, c))
    (herror : c.next.1 = .error e) (hd : d.Stands source.toList) (hnil : d.rest = [])
    (hfeed : p.feed = d.feed) (h : (call.apply Expr.builder p).1 = .ok t) (us : List Token) :
    ¬Spells (call.passed source p).toList us [] := by
  intro hus
  obtain ⟨part, rest, hrest, hreach⟩ := exists_part_of_apply hd hfeed h
  have hlength := hd.length_eq
  rw [hnil] at hrest hlength
  obtain ⟨rfl, rfl⟩ := List.append_eq_nil_iff.1 hrest.symm
  -- The call has passed all that was left, and there is an error in it.
  rw [passed_eq_drop (hreach.symm.trans hlength.symm), String.toList_ofList] at hus
  obtain ⟨-, htail⟩ :=
    Cursor.spells_of_next hl (List.append_nil _).symm (List.append_nil _).symm hus
  exact Parser.not_spells_of_error herror _ htail

/-- If a call gives the tree of the text that it has passed, the parser was intact. -/
theorem intact_of_spells_passed (hp : p.Placed source)
    (h : (call.apply Expr.builder p).1 = .ok t) {us : List Token}
    (hus : Spells (call.passed source p).toList us []) (hwhole : Whole us t) :
    p.Intact source := by
  obtain ⟨l, c, hl, hcurrent, hfeed | ⟨e, d, herror, hd, hnil, hfeed⟩⟩ := hp
  · obtain ⟨part, rest, hrest, hreach⟩ := exists_part_of_apply (Parser.stands_of_into hl) hfeed h
    -- Before what the feed reads, there is the word of the current lexeme.
    obtain ⟨word, hword, hposition⟩ :=
      (Cursor.into source.toList p.current.position.offset).exists_part_next
    rw [hl] at hword hposition
    have hall : source.toList.drop p.current.position.offset = (word ++ part) ++ rest := by
      rw [List.append_assoc, ← hrest]
      exact hword
    have hoffset := Cursor.offset_into hl (by rw [hcurrent])
    rw [hposition, Position.offset_after, hoffset, Nat.add_assoc, ← List.length_append] at hreach
    rw [passed_eq hall hreach, String.toList_ofList] at hus
    obtain ⟨hhead, -⟩ := Cursor.spells_of_next hl hall hrest hus
    -- The token that the call found is the one that stands in the source.
    have htoken : l.token = p.current.token := by
      rw [token_eq_opening h]
      exact Option.some.inj (hhead.symm.trans hwhole.head?_eq)
    refine ⟨c, ?_, hfeed⟩
    rw [hl, hcurrent, ← htoken]
  · exact absurd hus (not_spells_passed hl herror hd hnil hfeed h us)

end Call

/-- A source has the empty tree if and only if it is blank. -/
theorem Expr.parseWithin_eq_empty_iff {allowance : Option Allowance} {source : String} :
    parseWithin allowance source = .ok .empty ↔
      ∀ c ∈ source.toList, Unicode.isWhiteSpace c = true := by
  rw [parseWithin_eq_ok_iff, ← List.dropWhile_eq_nil_iff]
  constructor
  · rintro ⟨ts, hts, hwhole, -⟩
    rw [tokens_eq_ok_iff] at hts
    cases hts with
    | nil hblank => exact hblank
    | cons hscan _ =>
      -- No word is the end of input.
      exact absurd (Option.some.inj hwhole.head?_eq) (Scan.token_ne_eof_of_scan hscan)
  · intro hblank
    exact ⟨[], tokens_eq_ok_iff.2 (.nil hblank), .inl ⟨rfl, rfl⟩, fun _ _ => Nat.zero_le _⟩

/-- Every name in a tree of a source has a character. -/
theorem Expr.not_occurs_identifier_empty {allowance : Option Allowance} {source : String}
    {t : Expr} (h : parseWithin allowance source = .ok t) : ¬(identifier "").Occurs t := by
  intro hoccurs
  rcases wellFormed_of_parseWithin h with rfl | hwellFormed
  · cases hoccurs with
    | operand _ hb => nomatch hb
  · have hword : Scan.IsWord "" := hwellFormed _ hoccurs
    obtain ⟨c, tail, hnil, -⟩ := hword.1
    nomatch hnil

namespace Call

/-- **A tree is one of the source if and only if the parser was intact.**  A call on a parser that
has been used before gives the tree of the text that it passes in exactly those states.  In
particular it then gives the empty tree only where nothing but white space is left, and no name
without characters.  The parser is intact as long as no call has failed for another reason than a
lexeme that is out of place. -/
theorem apply_eq_ok_iff_intact {source : String} {allowance : Option Allowance}
    {p₀ p : Parser Unit} {earlier : List Call}
    (hstart : Parser.ofSource source allowance () = .ok p₀)
    (hp : p₀.afterCalls Expr.builder earlier = p) (call : Call) :
    ((∀ r ∈ p₀.results Expr.builder earlier, Orderly r) → p.Intact source) ∧
      ∀ t, (call.apply Expr.builder p).1 = .ok t →
        (p.Intact source ↔ Expr.parseWithin none (call.passed source p) = .ok t) ∧
        (t = .empty → (p.Intact source ↔
          ∀ c ∈ (call.passed source p).toList, Unicode.isWhiteSpace c = true)) ∧
        (p.Intact source → ¬(Expr.identifier "").Occurs t) := by
  have hfirst := Parser.intact_of_ofSource hstart
  have hplaced : p.Placed source :=
    hp ▸ (Parser.Placed.invariant Expr.builder source).afterCalls hfirst.placed earlier
  refine ⟨fun horderly => hp ▸ hfirst.afterCalls horderly, fun t ht => ?_⟩
  have hiff : p.Intact source ↔ Expr.parseWithin none (call.passed source p) = .ok t := by
    rw [Expr.parseWithin_eq_ok_iff]
    constructor
    · intro hintact
      obtain ⟨ts, hts, hwhole⟩ := spells_passed_of_intact hintact ht
      exact ⟨ts, tokens_eq_ok_iff.2 hts, hwhole, nofun⟩
    · rintro ⟨ts, hts, hwhole, -⟩
      exact intact_of_spells_passed hplaced ht (tokens_eq_ok_iff.1 hts) hwhole
  refine ⟨hiff, ?_, fun hintact => Expr.not_occurs_identifier_empty (hiff.1 hintact)⟩
  rintro rfl
  rw [hiff, Expr.parseWithin_eq_empty_iff]

/-- Behind a parenthesis that is not closed, parsing goes on at the lexeme that is out of place. -/
theorem apply_eq_ok_behind_unclosed :
    ∃ p₀, Parser.ofSource "(a b" none () = .ok p₀ ∧
      p₀.results Expr.builder [.parse, .parse] =
        [.error (.unexpected (.identifier "b") ⟨3, 1, 4⟩ [.symbol .parenClose]),
          .ok (.identifier "b")] ∧
      Expr.parseWithin none (parse.passed "(a b" (p₀.afterCalls Expr.builder [.parse])) =
        .ok (.identifier "b") := by
  have hmap : (Parser.ofSource "(a b" none ()).map (·.results Expr.builder [.parse, .parse]) =
      .ok [.error (.unexpected (.identifier "b") ⟨3, 1, 4⟩ [.symbol .parenClose]),
        .ok (.identifier "b")] := by
    decide +kernel
  cases hstart : Parser.ofSource "(a b" none () with
  | error e =>
    rw [hstart] at hmap
    nomatch hmap
  | ok p₀ =>
    rw [hstart] at hmap
    have hresults := Except.ok.inj hmap
    obtain ⟨hfirst, hsecond⟩ := List.cons.inj hresults
    obtain ⟨hintact, htree⟩ :=
      apply_eq_ok_iff_intact (p := p₀.afterCalls Expr.builder [.parse]) hstart rfl .parse
    refine ⟨p₀, rfl, hresults, (htree _ (List.cons.inj hsecond).1).1.1 (hintact ?_)⟩
    intro r hr
    obtain rfl := List.mem_singleton.1 hr
    rw [hfirst]
    trivial

/-- What two calls in a row give, and what the text that the second one passes gives by itself. -/
def twice (source : String) (p₀ : Parser Unit) :
    List (Except ParseError Expr) × Except ParseError Expr :=
  (p₀.results Expr.builder [.parse, .parse],
    Expr.parseWithin none (parse.passed source (p₀.afterCalls Expr.builder [.parse])))

/-- After a word that cannot be read, the second call finds the end of input or a name without
characters, where the source has a name.  It gives a tree of what it finds, while the text from
there on has none. -/
theorem apply_eq_ok_not_intact :
    (Parser.ofSource "a #" none ()).map (twice "a #") =
      .ok ([.error (.lex (.unexpectedChar '#' ⟨2, 1, 3⟩)), .ok .empty],
        .error (.lex (.unexpectedChar '#' ⟨2, 1, 3⟩))) ∧
    (Parser.ofSource "a.b \"c" none ()).map (twice "a.b \"c") =
      .ok ([.error (.lex (.unterminatedString '"' ⟨4, 1, 5⟩)), .ok (.identifier "")],
        .error (.lex (.unterminatedString '"' ⟨2, 1, 3⟩))) := by
  constructor <;> decide +kernel

end Call

end Binding
