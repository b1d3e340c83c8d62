import Binding.Proofs.Parser.Lockstep
import Binding.Proofs.Token.Spacing

/-!
# Parsing in other white space

A parser decides by the tokens of its lexemes alone.  It never looks at their texts, and a place is
only copied into an error.  So two sources with the same tokens have the same tree under every limit
on nesting, or fail with errors that differ in the place alone, and the two places are those of the
same lexeme.

What the two runs have in common does not depend on how places are compared.  The relation `R`
between them stays arbitrary, and in the end it is that of two lexemes with the same index.

## Main definitions

* `Lexeme.Abreast`, `Feed.Abreast`, `Parser.Abreast`, `ParseError.Abreast`: the same, up to places.
* `Lexeme.SameIndex`: places of two lexemes that have the same index.

## Main results

* `Expr.parseWithin_abreast`: two sources with the same tokens are parsed alike.
* `Expr.parseWithin_respaced`: white space between words makes no difference.
-/

namespace Binding

/-- The two lexemes have the same token, and places that belong together. -/
structure Lexeme.Abreast (R : Position → Position → Prop) (x x' : Lexeme) : Prop where
  token : x.token = x'.token
  position : R x.position x'.position

/-- The two errors differ in their places alone, which belong together. -/
inductive ParseError.Abreast (R : Position → Position → Prop) : ParseError → ParseError → Prop
  | unexpected (found : Token) (expected : List Expectation) {q q' : Position} :
    R q q' → Abreast R (.unexpected found q expected) (.unexpected found q' expected)
  | nestingLimit (limit : Nat) {q q' : Position} :
    R q q' → Abreast R (.nestingLimit limit q) (.nestingLimit limit q')

variable {R : Position → Position → Prop}

namespace Feed

/-- Both items are lexemes, with the same token. -/
inductive Paired (R : Position → Position → Prop) :
    Except LexError Lexeme → Except LexError Lexeme → Prop
  | ok {x x' : Lexeme} : x.Abreast R x' → Paired R (.ok x) (.ok x')

/-- The two feeds give the same tokens, and no error. -/
structure Abreast (R : Position → Position → Prop) (f f' : Feed) : Prop where
  ahead : List.Forall₂ (Paired R) f.ahead f'.ahead
  ending : Paired R f.ending.item f'.ending.item

theorem Abreast.next {f f' : Feed} (h : f.Abreast R f') :
    ∃ x x' g g', f.next = (.ok x, g) ∧ f'.next = (.ok x', g') ∧ x.Abreast R x' ∧
      g.Abreast R g' := by
  obtain ⟨items, ending⟩ := f
  obtain ⟨items', ending'⟩ := f'
  obtain ⟨hahead, hending⟩ := h
  cases hahead with
  | nil =>
    have hsame : (⟨[], ending⟩ : Feed).Abreast R ⟨[], ending'⟩ := ⟨.nil, hending⟩
    dsimp only at hending
    generalize hitem : ending.item = item, hitem' : ending'.item = item' at hending
    cases hending with
    | ok hx => exact ⟨_, _, _, _, by rw [Feed.next, hitem], by rw [Feed.next, hitem'], hx, hsame⟩
  | cons hitem hahead =>
    cases hitem with
    | ok hx => exact ⟨_, _, _, _, rfl, rfl, hx, hahead, hending⟩

end Feed

/-- The two parsers differ in texts and places alone, and no error is ahead of them. -/
structure Parser.Abreast {σ : Type} (R : Position → Position → Prop) (p p' : Parser σ) :
    Prop where
  feed : p.feed.Abreast R p'.feed
  current : p.current.Abreast R p'.current
  allowance : p.allowance = p'.allowance
  built : p.built = p'.built

/-! ### Two runs on the same tokens -/

namespace Pairing

variable {σ α : Type}

/-- Two parses of the same tokens. -/
def abreast (σ α : Type) (R : Position → Position → Prop) : Pairing σ σ α α where
  states := Parser.Abreast R
  values := Eq
  errors := ParseError.Abreast R
  excused _ := False

theorem steps_advance_abreast : (abreast σ α R).Steps Eq Step.advance Step.advance := by
  intro p p' hp
  obtain ⟨x, x', g, g', hx, hx', hcurrent, hfeed⟩ := hp.feed.next
  rw [Step.outcome_advance, Step.outcome_advance, hx, hx']
  exact .ok rfl ⟨hfeed, hcurrent, hp.allowance, hp.built⟩

theorem steps_spend_abreast : (abreast σ α R).Steps Eq Step.spend Step.spend := by
  intro p p' hp
  rw [Step.outcome_spend, Step.outcome_spend, ← hp.allowance]
  split
  · exact .ok rfl hp
  · next a ha =>
    split
    · exact .error (.nestingLimit a.limit hp.current.position) hp
    · exact .ok rfl ⟨hp.feed, hp.current, by simp [Parser.spent, hp.allowance], hp.built⟩

/-- No step looks at a text or a place. -/
theorem respected_abreast (build : Builder σ α) : (abreast σ α R).Respected build build where
  token hp := hp.current.token
  unexpected expected p p' hp := by
    rw [hp.current.token]
    exact .unexpected _ expected hp.current.position
  advance := steps_advance_abreast
  putToken t := by
    intro p p' hp
    exact .ok rfl ⟨hp.feed, ⟨rfl, hp.current.position⟩, hp.allowance, hp.built⟩
  spend := steps_spend_abreast
  refund hp := ⟨hp.feed, hp.current, by simp [Step.refund, hp.allowance], hp.built⟩
  restore hp hq := ⟨hq.feed, hq.current, hp.allowance, hq.built⟩
  make h := by
    intro p p' hp
    obtain rfl := h.eq
    rw [Step.outcome_make, Step.outcome_make, ← hp.built]
    exact .ok rfl ⟨hp.feed, hp.current, hp.allowance, rfl⟩

end Pairing

namespace Expr

/-- **Two sources with the same tokens are parsed alike**, under every limit on nesting. -/
theorem parseWithin_abreast {source source' : String}
    (h : (Feed.ofSource source).Abreast R (Feed.ofSource source')) (allowance : Option Allowance) :
    (∃ e, parseWithin allowance source = .ok e ∧ parseWithin allowance source' = .ok e) ∨
      ∃ error error', parseWithin allowance source = .error error ∧
        parseWithin allowance source' = .error error' ∧ error.Abreast R error' := by
  obtain ⟨x, x', g, g', hx, hx', hcurrent, hfeed⟩ := h.next
  have hstates : (Pairing.abreast Unit Expr R).states ⟨g, x, allowance, ()⟩
      ⟨g', x', allowance, ()⟩ := ⟨hfeed, hcurrent, rfl, rfl⟩
  have hmatched := Parser.matched_parse (Pairing.respected_abreast builder) hstates
  simp only [parseWithin, Parser.run, Parser.ofSource, Parser.ofFeed, hx, hx']
  generalize Parser.parse builder ⟨g, x, allowance, ()⟩ = r,
    Parser.parse builder ⟨g', x', allowance, ()⟩ = r' at hmatched ⊢
  cases hmatched with
  | excused _ _ he => exact he.elim
  | error he _ => exact .inr ⟨_, _, rfl, rfl, he⟩
  | ok hb _ => exact .inl ⟨_, rfl, congrArg _ (Eq.symm hb)⟩

end Expr

/-! ### Lexemes with the same index -/

namespace Lexeme

variable {xs xs' : List Lexeme}

/-- The two places are those of lexemes with the same index.  No two lexemes of a source begin at
the same place, so there is only one such index (`position_lexemes_inj`). -/
def SameIndex (xs xs' : List Lexeme) (q q' : Position) : Prop :=
  ∃ (i : Nat) (x x' : Lexeme), xs[i]? = some x ∧ xs'[i]? = some x' ∧
    q = x.position ∧ q' = x'.position

theorem forall₂_abreast (h : xs.map token = xs'.map token) :
    List.Forall₂ (Abreast (SameIndex xs xs')) xs xs' := by
  have hlength : xs.length = xs'.length := by simpa using congrArg List.length h
  refine List.forall₂_iff_get.2 ⟨hlength, fun i hi hi' => ⟨?_, i, _, _, ?_, ?_, rfl, rfl⟩⟩
  · have htoken := congrArg (·[i]?) h
    simpa [hi, hi'] using htoken
  · simp [hi]
  · simp [hi']

end Lexeme

/-- Sources that are read to their ends as the same tokens have feeds of the same tokens. -/
theorem Feed.abreast_ofSource {source source' : String} {items items' : List Lexeme}
    (h : (Lexer.ofSource source).toList = items.map .ok)
    (h' : (Lexer.ofSource source').toList = items'.map .ok)
    (htokens : items.map Lexeme.token = items'.map Lexeme.token) :
    (ofSource source).Abreast (Lexeme.SameIndex items items') (ofSource source') := by
  have hall := Lexeme.forall₂_abreast htokens
  obtain ⟨words, position, rfl, -, hfeed⟩ := Lexer.exists_words _ rfl items h
  obtain ⟨words', position', rfl, -, hfeed'⟩ := Lexer.exists_words _ rfl items' h'
  generalize Lexeme.SameIndex _ _ = R at hall ⊢
  -- The last of the items is the end of input, where the feed stays.
  rw [← List.forall₂_reverse_iff] at hall
  simp only [List.reverse_append, List.reverse_singleton, List.singleton_append,
    List.forall₂_cons, List.forall₂_reverse_iff] at hall
  obtain ⟨hlast, hwords⟩ := hall
  have hahead : List.Forall₂ (Paired R) (words.map .ok) (words'.map .ok) := by
    rw [List.forall₂_map_left_iff, List.forall₂_map_right_iff]
    exact hwords.imp fun _ _ hx => .ok hx
  change (Lexer.ofSource source).cursor.feed.Abreast R (Lexer.ofSource source').cursor.feed
  rw [hfeed, hfeed']
  exact ⟨hahead, .ok hlast⟩

namespace Expr

/-- **White space between words makes no difference.**  Let a source be read without an error, and
let its words be set again with other white space before, between and behind them.  Then the same
tokens with the same texts are read; and under every limit on nesting both sources have the same
tree, or both fail, for the same reason and at lexemes with the same index. -/
theorem parseWithin_respaced {source source' : String} {words : List Lexeme} {last : Lexeme}
    (h : (Lexer.ofSource source).toList = (words ++ [last]).map .ok) {first : List Char}
    (hfirst : ∀ c ∈ first, Unicode.isWhiteSpace c = true) {gaps : List (List Char)}
    (hgaps : Separates gaps words) (h' : source'.toList = first ++ respaced words gaps) :
    last.token = .eof ∧
    ∃ items : List Lexeme, (Lexer.ofSource source').toList = items.map .ok ∧
      items.map Lexeme.token = (words ++ [last]).map Lexeme.token ∧
      items.map Lexeme.text = (words ++ [last]).map Lexeme.text ∧
      ∀ allowance,
        (∃ e, parseWithin allowance source = .ok e ∧ parseWithin allowance source' = .ok e) ∨
        ∃ error error', parseWithin allowance source = .error error ∧
          parseWithin allowance source' = .error error' ∧
          error.Abreast (Lexeme.SameIndex (words ++ [last]) items) error' := by
  obtain ⟨words₀, position, hitems, hwords, -⟩ := Lexer.exists_words _ rfl _ h
  obtain ⟨rfl, hlast⟩ := List.append_inj' hitems rfl
  obtain rfl := List.singleton_inj.1 hlast
  obtain ⟨items, htoList, htokens, htexts⟩ :=
    Lexer.toList_respaced (l := .ofSource source') hwords hgaps hfirst rfl h'
  refine ⟨rfl, items, htoList, by simp [htokens], by simp [htexts], fun allowance => ?_⟩
  exact parseWithin_abreast (Feed.abreast_ofSource h htoList (by simp [htokens])) allowance

/-- In the first source a point follows the number directly, and yet does not belong to it. -/
theorem parseWithin_respaced_number : ∃ position,
    parseWithin none "\n1 .\ta b" =
      .error (.unexpected (.identifier "b") position [.endOfInput]) := by
  have hparse : parseWithin none "1.a b" =
      .error (.unexpected (.identifier "b") ⟨4, 1, 5⟩ [.endOfInput]) := by
    decide +kernel
  have hblank : [[' '], ['\t'], [' '], []].all (·.all Unicode.isWhiteSpace) = true := by
    decide +kernel
  obtain ⟨-, items, -, -, -, hresult⟩ := @parseWithin_respaced "1.a b" "\n1 .\ta b"
    [⟨.number (.ofChars ['1']), "1", ⟨0, 1, 1⟩⟩, ⟨.symbol .dot, ".", ⟨1, 1, 2⟩⟩,
      ⟨.identifier "a", "a", ⟨2, 1, 3⟩⟩, ⟨.identifier "b", "b", ⟨4, 1, 5⟩⟩]
    ⟨.eof, "", ⟨5, 1, 6⟩⟩ (by decide +kernel) ['\n'] (List.all_eq_true.1 (by decide +kernel))
    [[' '], ['\t'], [' '], []] ⟨rfl, by simpa using hblank, by decide⟩ rfl
  obtain ⟨e, he, -⟩ | ⟨error, error', herror, herror', hsame⟩ := hresult none
  · nomatch he.symm.trans hparse
  · obtain rfl := Except.error.inj (herror.symm.trans hparse)
    cases hsame with
    | unexpected _ _ _ => exact ⟨_, herror'⟩

end Expr

end Binding
