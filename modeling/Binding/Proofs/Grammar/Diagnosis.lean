import Binding.Proofs.Grammar.Viability

/-!
# Errors at the first impossible lexeme

A parse that fails at a lexeme fails at the first one that cannot be right: with the lexemes before
it the source could still have been accepted, and with this one it cannot, whatever comes after it.
A word that cannot be read counts as one more lexeme, which is always wrong.  So lexical errors and
syntax errors come out in the order of the source.

## How a failure is carried over to another source

A failing parse is replayed on a feed that has an error behind the lexemes it has taken.  There the
state tells how many these were, so that they are known to be the tokens passed
(`Grammar.exists_diagnosis`).  The feed of a source gives the end of input over and over, and there
the state does not tell.  From the first feed the failure goes to every source that begins with the
same tokens.

## What the error lists

Every alternative could have come in place of the token, with one exception: behind a map entry that
has a value, the error lists a colon, and the colon would have been refused in the same way.  The
tokens before it tell which entries these are.

## Main definitions

* `Expr.FailsAt`: the parse fails at a lexeme of the source.
* `Expr.BeginsAccepted`: the tokens can be completed to an accepted source.

## Main results

* `Expr.parseWithin_none_fails_first`: errors are reported at the first impossible lexeme.
* `Expr.parseWithin_none_of_expected`: the alternatives that an error lists.
-/

namespace Binding

open Phrase

/-! ### Sources that can be read -/

namespace Pairing

variable {σ α : Type}

/-- The pairing of a run with itself, where no error is in the feed. -/
def readable (σ α : Type) : Pairing σ σ α α where
  states p p' := p' = p ∧ ¬p.feed.Bounded
  values := Eq
  errors e _ := ∀ error, e ≠ .lex error
  excused _ := False

theorem respected_readable (build : Builder σ α) : (readable σ α).Respected build build where
  token := by
    rintro p _ ⟨rfl, -⟩
    rfl
  unexpected _ _ _ _ := nofun
  advance := by
    rintro p _ ⟨rfl, hp⟩
    obtain ⟨l, g, hl, hg⟩ := Feed.next_of_not_bounded hp
    rw [Step.outcome_advance, hl]
    exact .ok rfl ⟨rfl, hg⟩
  putToken t := by
    rintro p _ ⟨rfl, hp⟩
    exact .ok rfl ⟨rfl, hp⟩
  spend := by
    rintro p _ ⟨rfl, hp⟩
    rw [Step.outcome_spend]
    split
    · exact .ok rfl ⟨rfl, hp⟩
    · split
      · exact .error nofun ⟨rfl, hp⟩
      · exact .ok rfl ⟨rfl, hp⟩
  refund := by
    rintro p _ ⟨rfl, hp⟩
    exact ⟨rfl, hp⟩
  restore := by
    rintro p q _ _ ⟨rfl, -⟩ ⟨rfl, hq⟩
    exact ⟨rfl, hq⟩
  make h := by
    rintro p _ ⟨rfl, hp⟩
    obtain rfl := h.eq
    exact .ok rfl ⟨rfl, hp⟩

end Pairing

/-- Where no error is in the feed, the parser meets none. -/
theorem Parser.parse_ne_lex {σ α : Type} (build : Builder σ α) {p : Parser σ}
    (hp : ¬p.feed.Bounded) (error : LexError) : (p.parse build).1 ≠ .error (.lex error) := by
  have hmatched := Parser.matched_parse (Pairing.respected_readable build) ⟨rfl, hp⟩
  generalize p.parse build = r at hmatched ⊢
  cases hmatched with
  | excused _ _ he => exact he.elim
  | error he _ => exact fun h => he error (Except.error.inj h)
  | ok => nofun

/-! ### A failure and the tokens before it -/

/-- **A failure at a lexeme is replayed** wherever the same tokens come. -/
theorem Step.Local.fails {β : Type} {step : Step Unit β} (hlocal : step.Local) {p q : Parser Unit}
    {found : Token} {position : Position} {expected : List Expectation} (hp : p.allowance = none)
    (h : step.Fails p (.unexpected found position expected) q) :
    ∃ ls, p.feed.Takes ls q.feed ∧ position = (ls.getLastD p.current).position ∧
      ∀ p' ls' g, p.Like p' → p'.feed.Takes ls' g → ls'.map Lexeme.token = ls.map Lexeme.token →
        ∃ q', step.Fails p' (.unexpected found (ls'.getLastD p'.current).position expected) q' ∧
          p'.feed.Takes ls' q'.feed := by
  obtain ⟨ls, hmoves, -, hother⟩ := hlocal p _ q hp h (by simp)
  refine ⟨ls, hmoves.1, ?_, fun p' ls' g hlike htakes htokens => ?_⟩
  · obtain ⟨_, _, -, -, -, hreplays⟩ := hother p ls q.feed (Parser.like_refl hp) hmoves.1 rfl
    rw [hreplays.of_unexpected.1.2, hmoves.position_eq]
  · obtain ⟨_, q', houtcome, hmoves', hlike', hreplays⟩ := hother p' ls' g hlike htakes htokens
    obtain ⟨⟨rfl, -⟩, rfl⟩ := hreplays.of_unexpected
    refine ⟨q', ?_, hmoves'.1⟩
    rw [← hlike'.token, ← hmoves'.position_eq]
    exact houtcome

namespace Grammar

open Step

/-- What a parse has passed when it fails at a token, and what it lists. -/
structure Diagnosis (budget : Nat) (us : List Token) (found : Token)
    (expected : List Expectation) : Prop where
  ne_eof : ∀ t ∈ us, t ≠ .eof
  opens : Opens (fun ts => ∃ e, Whole ts e) us
  offers : ∀ x ∈ expected, (x = .endOfInput ∧ ∃ e, Whole us e) ∨
    Offers [] (fun ts => ∃ e, Whole ts e) (whole Expr.builder budget) us expected x
  replays : ∀ p ls g, p.allowance = none → p.feed.Takes ls g →
    (p.current :: ls).map Lexeme.token = us ++ [found] →
      ∃ q, (whole Expr.builder budget).Fails p
        (.unexpected found (ls.getLastD p.current).position expected) q

/-- **Every failure at a token has a diagnosis.** -/
theorem exists_diagnosis {budget : Nat} {p q : Parser Unit} {found : Token} {position : Position}
    {expected : List Expectation} (hp : p.allowance = none)
    (h : (whole Expr.builder budget).Fails p (.unexpected found position expected) q) :
    ∃ ls us, p.feed.Takes ls q.feed ∧ (p.current :: ls).map Lexeme.token = us ++ [found] ∧
      position = (ls.getLastD p.current).position ∧ Diagnosis budget us found expected := by
  obtain ⟨ls, hls, hposition, hreplay⟩ := (local_whole budget).fails hp h
  -- On a feed that ends in an error, the lexemes taken are those of the tokens passed.
  let p' : Parser Unit := ⟨.ofList ls (.unexpectedChar ' ' position), p.current, none, ()⟩
  have hp' : p'.Bounded := ⟨rfl, Feed.bounded_ofList _ _⟩
  obtain ⟨q', hfails, hls'⟩ := hreplay p' ls _ ⟨rfl, hp, rfl⟩ (Feed.takes_ofList _ _) rfl
  rcases whole_viable hp' hfails with ⟨_, _, _, -, -, heq⟩ | ⟨us, _, hhalts, hopens, hoffers⟩
  · nomatch heq
  obtain ⟨hus, hfound, rfl⟩ := hhalts.of_unexpected
  obtain ⟨ls', g, rfl, htakes, htokens, hne⟩ := Parser.reads_iff.1 hus
  obtain rfl : ls' = ls := htakes.eq_of_bounded hls' hp'.feed
  rw [← hfound] at htokens
  refine ⟨ls', us, hls, htokens, hposition, hne, hopens, hoffers, ?_⟩
  intro p'' ls'' g'' hp'' htakes'' htokens''
  rw [← htokens, List.map_cons, List.map_cons, List.cons.injEq] at htokens''
  obtain ⟨q'', hfails'', -⟩ := hreplay p'' ls'' g'' ⟨htokens''.1, hp, hp''⟩ htakes'' htokens''.2
  exact ⟨q'', hfails''⟩

end Grammar

/-! ### Sources -/

theorem getElem?_cons_length (l : Lexeme) (ls : List Lexeme) :
    (l :: ls)[ls.length]? = some (ls.getLastD l) := by
  induction ls generalizing l with
  | nil => rfl
  | cons x ls ih =>
    rw [List.getLastD_cons]
    exact ih x

/-- The last lexeme has the last token. -/
theorem token_getLastD {l : Lexeme} {ls : List Lexeme} {us : List Token} {t : Token}
    (h : (l :: ls).map Lexeme.token = us ++ [t]) : (ls.getLastD l).token = t := by
  have hlength : us.length = ls.length := by simpa using (congrArg List.length h).symm
  have ht := congrArg (·[ls.length]?) h
  rw [List.getElem?_map, getElem?_cons_length, ← hlength] at ht
  simpa using ht

namespace Parser

variable {source : String} {p : Parser Unit} {us : List Token} {t : Token} {ls : List Lexeme}
  {g : Feed}

/-- A parser of the source before its first lexemes. -/
theorem ofSource_of_isPrefix (h : us ++ [t] <+: (lexemes source).map Lexeme.token) :
    ∃ p ls g, ofSource source none () = .ok p ∧ p.allowance = none ∧ p.feed.Takes ls g ∧
      p.current :: ls <+: lexemes source ∧ (p.current :: ls).map Lexeme.token = us ++ [t] := by
  obtain ⟨rest, hrest⟩ := h
  obtain ⟨ks, ks', hlexemes, hks, -⟩ := List.map_eq_append_iff.1 hrest.symm
  obtain ⟨l, ls, rfl⟩ : ∃ l ls, ks = l :: ls := by
    cases ks with
    | nil => simp at hks
    | cons l ls => exact ⟨l, ls, rfl⟩
  obtain ⟨g, hg⟩ := takes_lexemes source
  rw [hlexemes] at hg
  obtain ⟨g', ⟨f, hl, hls⟩, -⟩ := Feed.takes_append.1 hg
  refine ⟨⟨f, l, none, ()⟩, ls, g', ?_, rfl, hls, ⟨ks', hlexemes.symm⟩, hks⟩
  rw [ofSource, ofFeed, hl]

/-- The lexeme that the parser is at, and those that it takes, come from the feed of the source. -/
theorem takes_of_ofSource (hp : ofSource source none () = .ok p) (htakes : p.feed.Takes ls g) :
    (Feed.ofSource source).Takes (p.current :: ls) g := by
  rw [ofSource, ofFeed] at hp
  split at hp
  · next l f hl =>
    obtain rfl := Except.ok.inj hp
    exact ⟨f, hl, htakes⟩
  · cases hp

/-- Before the end of input, the lexemes that the parser takes are those of its source. -/
theorem prefix_of_ofSource (hp : ofSource source none () = .ok p) (htakes : p.feed.Takes ls g)
    (htokens : (p.current :: ls).map Lexeme.token = us ++ [t]) (hne : ∀ t ∈ us, t ≠ .eof) :
    p.current :: ls <+: lexemes source := by
  refine prefix_lexemes (takes_of_ofSource hp htakes) fun x hx => hne _ ?_
  have hus : (p.current :: ls).dropLast.map Lexeme.token = us := by
    rw [List.map_dropLast, htokens, List.dropLast_concat]
  rw [← hus]
  exact List.mem_map_of_mem hx

/-- Whether an error comes some time does not depend on the first lexeme. -/
theorem bounded_of_ofSource (hp : ofSource source none () = .ok p) :
    p.feed.Bounded ↔ (Feed.ofSource source).Bounded := by
  have hnone : p.feed.Takes [] p.feed := rfl
  obtain ⟨f, hl, rfl⟩ := takes_of_ofSource hp hnone
  constructor
  · intro h
    by_contra hnot
    obtain ⟨l, g, hl', hg⟩ := Feed.next_of_not_bounded hnot
    rw [hl] at hl'
    exact hg ((Prod.mk.inj hl').2 ▸ h)
  · intro h
    exact (h.of_next hl).1

end Parser

namespace Expr

/-- Without a limit on nesting, the parse fails at the lexeme `k` of the source, which is none of
those expected there. -/
def FailsAt (source : String) (k : Nat) (found : Token) (expected : List Expectation) : Prop :=
  ∃ lexeme, (lexemes source)[k]? = some lexeme ∧ lexeme.token = found ∧
    parseWithin none source = .error (.unexpected found lexeme.position expected)

instance (source : String) (k : Nat) (found : Token) (expected : List Expectation) :
    Decidable (FailsAt source k found expected) :=
  decidable_of_iff (∃ lexeme ∈ (lexemes source)[k]?, lexeme.token = found ∧
    parseWithin none source = .error (.unexpected found lexeme.position expected)) Iff.rfl

/-- The tokens come first in a source that is accepted. -/
def BeginsAccepted (us : List Token) : Prop :=
  ∃ source ts e, tokens source = .ok ts ∧ us <+: ts ∧ parseWithin none source = .ok e

variable {source source' : String} {k k' : Nat} {found found' : Token}
  {expected expected' : List Expectation} {us : List Token} {t : Token} {p : Parser Unit}

theorem FailsAt.unique (h : FailsAt source k found expected)
    (h' : FailsAt source k' found' expected') : k = k' := by
  obtain ⟨l, hl, -, hparse⟩ := h
  obtain ⟨l', hl', -, hparse'⟩ := h'
  rw [hparse] at hparse'
  exact position_lexemes_inj hl hl' (ParseError.unexpected.inj (Except.error.inj hparse')).2.1

theorem FailsAt.not_accepted {e : Expr} (h : FailsAt source k found expected) :
    parseWithin none source ≠ .ok e := by
  obtain ⟨_, -, -, herror⟩ := h
  rw [herror]
  nofun

theorem FailsAt.take_succ (h : FailsAt source k found expected) :
    ((lexemes source).take (k + 1)).map Lexeme.token =
      ((lexemes source).take k).map Lexeme.token ++ [found] := by
  obtain ⟨l, hl, rfl, -⟩ := h
  rw [List.take_add_one, hl]
  simp

theorem FailsAt.length_take (h : FailsAt source k found expected) :
    (((lexemes source).take k).map Lexeme.token).length = k := by
  obtain ⟨l, hl, -, -⟩ := h
  have hlt : k < (lexemes source).length := (List.getElem?_eq_some_iff.1 hl).1
  rw [List.length_map, List.length_take_of_le (Nat.le_of_lt hlt)]

theorem failsAt_of_fails {budget : Nat} {ls : List Lexeme} {q : Parser Unit}
    (hp : Parser.ofSource source none () = .ok p) (hls : p.current :: ls <+: lexemes source)
    (htokens : (p.current :: ls).map Lexeme.token = us ++ [t])
    (h : (Grammar.whole builder budget).Fails p
      (.unexpected t (ls.getLastD p.current).position expected) q) :
    FailsAt source us.length t expected := by
  have hlength : us.length = ls.length := by simpa using (congrArg List.length htokens).symm
  refine ⟨ls.getLastD p.current, ?_, token_getLastD htokens, ?_⟩
  · obtain ⟨rest, hrest⟩ := hls
    rw [← hrest, hlength, List.getElem?_append_left (by simp), getElem?_cons_length]
  · rw [parseWithin_eq_fst hp, Parser.parse_eq_of_outcome h]

theorem exists_ofSource {e : ParseError} (h : parseWithin none source = .error e)
    (hne : ∀ error, e ≠ .lex error) : ∃ p, Parser.ofSource source none () = .ok p := by
  cases hp : Parser.ofSource source none () with
  | ok p => exact ⟨p, rfl⟩
  | error error =>
    rw [parseWithin, Parser.run, hp] at h
    exact absurd (Except.error.inj h).symm (hne error)

theorem fails_whole {e : ParseError} {budget : Nat} (hp : Parser.ofSource source none () = .ok p)
    (hbudget : Grammar.budget p ≤ budget) (h : parseWithin none source = .error e) :
    (Grammar.whole builder budget).Fails p e (p.parse builder).2 := by
  rw [parseWithin_eq_fst hp] at h
  rw [Step.Fails, Parser.outcome_whole builder p hbudget, ← h]

/-- The diagnosis of a source that fails at a token. -/
theorem exists_failsAt {position : Position} {budget : Nat}
    (hp : Parser.ofSource source none () = .ok p) (hbudget : Grammar.budget p ≤ budget)
    (h : parseWithin none source = .error (.unexpected found position expected)) :
    ∃ us, us ++ [found] <+: (lexemes source).map Lexeme.token ∧
      FailsAt source us.length found expected ∧ Grammar.Diagnosis budget us found expected := by
  have hfails := fails_whole hp hbudget h
  have hnone : p.allowance = none := Parser.allowance_of_ofFeed hp
  obtain ⟨ls, us, htakes, htokens, rfl, hdiagnosis⟩ := Grammar.exists_diagnosis hnone hfails
  have hls := Parser.prefix_of_ofSource hp htakes htokens hdiagnosis.ne_eof
  exact ⟨us, htokens ▸ hls.map _, failsAt_of_fails hp hls htokens hfails, hdiagnosis⟩

theorem FailsAt.diagnosis {budget : Nat} (h : FailsAt source k found expected)
    (hp : Parser.ofSource source none () = .ok p) (hbudget : Grammar.budget p ≤ budget) :
    Grammar.Diagnosis budget (((lexemes source).take k).map Lexeme.token) found expected := by
  obtain ⟨us, hus, hfails, hdiagnosis⟩ := exists_failsAt hp hbudget h.choose_spec.2.2
  obtain rfl := h.unique hfails
  have heq := List.prefix_iff_eq_take.1 ((List.prefix_append us [found]).trans hus)
  rwa [List.map_take, ← heq]

/-- The parser that fails. -/
theorem FailsAt.exists_ofSource (h : FailsAt source k found expected) :
    ∃ p, Parser.ofSource source none () = .ok p :=
  Expr.exists_ofSource h.choose_spec.2.2 (by simp)

/-! ### Beginnings of accepted sources -/

theorem BeginsAccepted.of_isPrefix {vs : List Token} (h : BeginsAccepted vs) (hus : us <+: vs) :
    BeginsAccepted us := by
  obtain ⟨source, ts, e, htokens, hvs, he⟩ := h
  exact ⟨source, ts, e, htokens, hus.trans hvs, he⟩

/-- Tokens that can be completed are completed in some source. -/
theorem beginsAccepted_of_opens (h : Opens (fun ts => ∃ e, Whole ts e) us)
    (hus : ∀ t ∈ us, t.Readable) : BeginsAccepted us := by
  obtain ⟨vs, hvs, e, he⟩ := h
  have hreadable : ∀ t ∈ us ++ vs, t.Readable := fun t ht =>
    (List.mem_append.1 ht).elim (hus t) (hvs t)
  obtain ⟨source, htokens⟩ := exists_tokens_eq hreadable
  exact ⟨source, _, e, htokens, List.prefix_append us vs,
    parseWithin_eq_ok_iff.2 ⟨_, htokens, he, nofun⟩⟩

/-- **The first `k` tokens are the beginning of an accepted source.** -/
theorem FailsAt.beginsAccepted (h : FailsAt source k found expected) :
    BeginsAccepted (((lexemes source).take k).map Lexeme.token) := by
  obtain ⟨p, hp⟩ := h.exists_ofSource
  have hdiagnosis := h.diagnosis hp (Nat.le_refl _)
  refine beginsAccepted_of_opens hdiagnosis.opens fun t ht => ?_
  obtain ⟨x, hx, rfl⟩ := List.mem_map.1 ht
  exact readable_lexemes (List.mem_of_mem_take hx) (hdiagnosis.ne_eof _ ht)

/-- **The token `k` is what is wrong,** whatever comes after it. -/
theorem FailsAt.of_isPrefix (h : FailsAt source k found expected)
    (hstarts : ((lexemes source).take (k + 1)).map Lexeme.token <+:
      (lexemes source').map Lexeme.token) : FailsAt source' k found expected := by
  obtain ⟨p, hp⟩ := h.exists_ofSource
  rw [h.take_succ] at hstarts
  obtain ⟨p', ls, g, hp', hnone, htakes, hls, htokens⟩ := Parser.ofSource_of_isPrefix hstarts
  obtain ⟨q, hfails⟩ := (h.diagnosis hp (Nat.le_refl _)).replays p' ls g hnone htakes htokens
  have hfails' := failsAt_of_fails hp' hls htokens hfails
  rwa [h.length_take] at hfails'

theorem FailsAt.not_beginsAccepted (h : FailsAt source k found expected) :
    ¬BeginsAccepted (((lexemes source).take (k + 1)).map Lexeme.token) := by
  rintro ⟨source', ts, e, htokens, hstarts, he⟩
  have hts := (lexemes_of_ok htokens).1
  exact (h.of_isPrefix (hstarts.trans (hts ▸ List.prefix_append ts [.eof]))).not_accepted he

/-! ### Lexical errors -/

/-- **Lexical errors come in their turn.**  If a source cannot be read to its end, then either its
lexemes are the beginning of an accepted source and the parse gets to the error, or it fails at one
of them. -/
theorem lex_or_failsAt {error : LexError} (h : tokens source = .error error) :
    (parseWithin none source = .error (.lex error) ∧
        BeginsAccepted ((lexemes source).map Lexeme.token)) ∨
      ∃ k found expected, FailsAt source k found expected := by
  obtain ⟨hne, hbounded, g, g', hg, herror⟩ := lexemes_of_error h
  have hreadable : ∀ t ∈ (lexemes source).map Lexeme.token, t.Readable := by
    intro t ht
    obtain ⟨x, hx, rfl⟩ := List.mem_map.1 ht
    exact readable_lexemes hx (hne x hx)
  cases hp : Parser.ofSource source none () with
  | error error' =>
    rw [Parser.ofSource, Parser.ofFeed] at hp
    split at hp
    · cases hp
    · next error' f hnext =>
      have hnone : (Feed.ofSource source).Takes [] (Feed.ofSource source) := rfl
      obtain ⟨hnil, rfl⟩ := hg.eq_of_error hnone herror hnext
      refine .inl ⟨?_, ?_⟩
      · rw [parseWithin, Parser.run, Parser.ofSource, Parser.ofFeed, hnext]
      · rw [hnil]
        exact beginsAccepted_of_opens (opens_self ⟨.empty, .inl ⟨rfl, rfl⟩⟩) (by simp)
  | ok p =>
    cases hparse : parseWithin none source with
    | ok e =>
      obtain ⟨ts, hts, -⟩ := parseWithin_eq_ok_iff.1 hparse
      cases h.symm.trans hts
    | error e =>
      have hp' : p.Bounded :=
        ⟨Parser.allowance_of_ofFeed hp, (Parser.bounded_of_ofSource hp).2 hbounded⟩
      have hfails := fails_whole hp (Nat.le_refl _) hparse
      rcases Grammar.whole_viable hp' hfails with ⟨ts, r, _, hts, heof, -⟩ |
        ⟨us, expected, hhalts, hopens, -⟩
      · cases h.symm.trans (Parser.tokens_of_reads hp hts heof)
      cases hhalts with
      | unexpected expected hus =>
        obtain ⟨us, -, hfailsAt, -⟩ := exists_failsAt hp (Nat.le_refl _) hparse
        exact .inr ⟨_, _, _, hfailsAt⟩
      | lex q hus _ hnext =>
        obtain ⟨ls, f, rfl, htakes, htokens, -⟩ := Parser.reads_iff.1 hus
        obtain ⟨hlexemes, rfl⟩ := hg.eq_of_error (Parser.takes_of_ofSource hp htakes) herror hnext
        refine .inl ⟨rfl, beginsAccepted_of_opens ?_ hreadable⟩
        rwa [hlexemes, htokens]

/-- A source that can be read to its end is accepted, or fails at one of its lexemes. -/
theorem accepted_or_failsAt {ts : List Token} (h : tokens source = .ok ts) :
    (∃ e, parseWithin none source = .ok e) ∨
      ∃ k found expected, FailsAt source k found expected := by
  obtain ⟨p, -, hp, -⟩ := Parser.reads_of_tokens h none ()
  have hnone : p.allowance = none := Parser.allowance_of_ofFeed hp
  cases hparse : parseWithin none source with
  | ok e => exact .inl ⟨e, rfl⟩
  | error e =>
    have hfails := fails_whole hp (Nat.le_refl _) hparse
    cases e with
    | lex error =>
      rw [parseWithin_eq_fst hp] at hparse
      refine absurd hparse (Parser.parse_ne_lex builder ?_ error)
      rw [Parser.bounded_of_ofSource hp]
      exact (lexemes_of_ok h).2.1
    | unexpected found position expected =>
      obtain ⟨us, -, hfailsAt, -⟩ := exists_failsAt hp (Nat.le_refl _) hparse
      exact .inr ⟨_, _, _, hfailsAt⟩
    | nestingLimit limit position =>
      obtain ⟨ls, hmoves, -, hother⟩ := Grammar.local_whole _ p _ _ hnone hfails (by simp)
      obtain ⟨_, _, -, -, -, hreplays⟩ := hother p ls _ (Parser.like_refl hnone) hmoves.1 rfl
      nomatch hreplays

/-! ### One more token -/

/-- Where all the tokens of a source can be completed, the parse fails behind them if at all. -/
theorem accepted_or_later (htokens : tokens source = .ok (us ++ [t]))
    (hopens : Opens (fun ts => ∃ e, Whole ts e) (us ++ [t])) :
    (∃ e, parseWithin none source = .ok e) ∨
      ∃ k found expected, us.length < k ∧ FailsAt source k found expected := by
  refine (accepted_or_failsAt htokens).imp_right ?_
  rintro ⟨k, found, expected, hfails⟩
  refine ⟨k, found, expected, Nat.lt_of_not_le fun hle => hfails.not_beginsAccepted ?_, hfails⟩
  refine (beginsAccepted_of_opens hopens (readable_of_tokens htokens)).of_isPrefix ?_
  rw [List.map_take, (lexemes_of_ok htokens).1, List.take_append_of_le_length]
  · exact List.take_prefix _ _
  · simpa using hle

/-- Where a token is refused, the parse fails at it. -/
theorem failsAt_of_refuses {budget : Nat} (hp : Parser.ofSource source none () = .ok p)
    (hbudget : Grammar.budget p ≤ budget) (htokens : tokens source = .ok (us ++ [t]))
    (hne : ∀ t ∈ us, t ≠ .eof)
    (h : Step.Refuses (Grammar.whole builder budget) us t expected) :
    FailsAt source us.length t expected := by
  obtain ⟨p', ls, g, hp', hnone, htakes, hls, hlsTokens⟩ := Parser.ofSource_of_isPrefix
    ((lexemes_of_ok htokens).1 ▸ List.prefix_append (us ++ [t]) [.eof])
  obtain rfl := Except.ok.inj (hp.symm.trans hp')
  have hlast : (p.past ls g).current.token = t := token_getLastD hlsTokens
  have hreads : p.Reads us (p.past ls g) :=
    Parser.reads_iff.2 ⟨ls, g, rfl, htakes, by rw [hlast, hlsTokens], hne⟩
  have hsome : (Grammar.whole builder budget).outcome p ≠ none := by
    rw [Parser.outcome_whole builder p hbudget]
    exact Option.some_ne_none _
  exact failsAt_of_fails hp hls hlsTokens (h.fails p _ hnone hreads hlast hsome)

/-! ### Main results -/

/-- **Errors are reported at the first impossible lexeme.**  A parse that fails at a token fails at
one of the lexemes of the source.  It fails there, and with the same alternatives, whatever comes
after this lexeme, while the lexemes before it are the beginning of a source that is accepted.  If a
source cannot be read to its end, the parse gives the lexical error if it could still be accepted
there, and fails at an earlier lexeme otherwise. -/
theorem parseWithin_none_fails_first (source : String) :
    (∀ found position expected,
      parseWithin none source = .error (.unexpected found position expected) →
        ∃! k, FailsAt source k found expected) ∧
    (∀ k found expected, FailsAt source k found expected →
      (∀ source', ((lexemes source).take (k + 1)).map Lexeme.token <+:
          (lexemes source').map Lexeme.token → FailsAt source' k found expected) ∧
        BeginsAccepted (((lexemes source).take k).map Lexeme.token)) ∧
    ∀ error, tokens source = .error error →
      (BeginsAccepted ((lexemes source).map Lexeme.token) →
        parseWithin none source = .error (.lex error)) ∧
      (¬BeginsAccepted ((lexemes source).map Lexeme.token) →
        ∃ k found expected, FailsAt source k found expected) := by
  refine ⟨fun found position expected h => ?_, fun k found expected h => ?_, fun error h => ?_⟩
  · obtain ⟨p, hp⟩ := exists_ofSource h (by simp)
    obtain ⟨us, -, hfails, -⟩ := exists_failsAt hp (Nat.le_refl _) h
    exact ⟨us.length, hfails, fun k' hk' => hk'.unique hfails⟩
  · exact ⟨fun source' hstarts => h.of_isPrefix hstarts, h.beginsAccepted⟩
  · rcases lex_or_failsAt h with ⟨hlex, hbegins⟩ | ⟨k, found, expected, hfails⟩
    · exact ⟨fun _ => hlex, fun hnot => absurd hbegins hnot⟩
    · refine ⟨fun hbegins => absurd ?_ hfails.not_beginsAccepted, fun _ => ⟨_, _, _, hfails⟩⟩
      have htake := List.take_prefix (k + 1) (lexemes source)
      exact hbegins.of_isPrefix (htake.map _)

/-- Two names in a row fail at the second one, whatever is behind them; behind an operator, what
cannot be read is the error. -/
theorem parseWithin_none_two_names :
    (∃! k, FailsAt "a b" k (.identifier "b") [.endOfInput]) ∧
    FailsAt "a b )" 1 (.identifier "b") [.endOfInput] ∧ BeginsAccepted [.identifier "a"] ∧
    parseWithin none "a + #" = .error (.lex (.unexpectedChar '#' ⟨4, 1, 5⟩)) ∧
    ∃ k found expected, FailsAt "a b #" k found expected := by
  have hparse : parseWithin none "a b" =
      .error (.unexpected (.identifier "b") ⟨2, 1, 3⟩ [.endOfInput]) := by decide +kernel
  have hfails : FailsAt "a b" 1 (.identifier "b") [.endOfInput] := by decide +kernel
  have hsame : ((lexemes "a b").take 2).map Lexeme.token <+:
      (lexemes "a b )").map Lexeme.token := by decide +kernel
  have hfirst : ((lexemes "a b").take 1).map Lexeme.token = [.identifier "a"] := by decide +kernel
  have htokens : tokens "a + #" = .error (.unexpectedChar '#' ⟨4, 1, 5⟩) := by decide +kernel
  have hsum : BeginsAccepted ((lexemes "a + #").map Lexeme.token) :=
    ⟨"a + a", [.identifier "a", .symbol .plus, .identifier "a"],
      .binary .add (.identifier "a") (.identifier "a"), by decide +kernel, by decide +kernel,
      by decide +kernel⟩
  have htokens' : tokens "a b #" = .error (.unexpectedChar '#' ⟨4, 1, 5⟩) := by decide +kernel
  have hnot : ¬BeginsAccepted ((lexemes "a b #").map Lexeme.token) := by
    have hlater : FailsAt "a b #" 1 (.identifier "b") [.endOfInput] := by decide +kernel
    have hall : lexemes "a b #" = (lexemes "a b #").take 2 := by decide +kernel
    rw [hall]
    exact hlater.not_beginsAccepted
  exact ⟨(parseWithin_none_fails_first "a b").1 _ _ _ hparse,
    ((parseWithin_none_fails_first "a b").2.1 1 _ _ hfails).1 _ hsame,
    hfirst ▸ ((parseWithin_none_fails_first "a b").2.1 1 _ _ hfails).2,
    ((parseWithin_none_fails_first "a + #").2.2 _ htokens).1 hsum,
    ((parseWithin_none_fails_first "a b #").2.2 _ htokens').2 hnot⟩

/-- **Every alternative would have been accepted, except for a second colon.**  Replace the token
that a source fails at by one of those expected, and cut off what comes after it.  The result is
accepted or fails at a later lexeme, unless the token is a colon behind a map entry that has a value
already.  This colon is refused: the result fails at it, and lists it again. -/
theorem parseWithin_none_of_expected {x : Expectation} (h : FailsAt source k found expected)
    (hx : x ∈ expected) (ht : x.admits t = true)
    (htokens : tokens source' =
      .ok (((lexemes source).take k).map Lexeme.token ++ if t = .eof then [] else [t])) :
    ((∃ e, parseWithin none source' = .ok e) ∨
        (∃ k' found' expected', k < k' ∧ FailsAt source' k' found' expected') ↔
      ¬(t = .symbol .colon ∧ expected = Step.afterEntry ∧
        EndsInValue (((lexemes source).take k).map Lexeme.token))) ∧
    (t = .symbol .colon → expected = Step.afterEntry →
      EndsInValue (((lexemes source).take k).map Lexeme.token) → FailsAt source' k t expected) := by
  obtain ⟨p, hp⟩ := h.exists_ofSource
  obtain ⟨p', -, hp', -⟩ := Parser.reads_of_tokens htokens none ()
  -- One budget for both sources, so that a token refused in the one is refused in the other.
  have hdiagnosis := h.diagnosis hp (Nat.le_max_left (Grammar.budget p) (Grammar.budget p'))
  have hlength := h.length_take
  generalize ((lexemes source).take k).map Lexeme.token = us at *
  subst hlength
  rcases hdiagnosis.offers x hx with ⟨rfl, e, he⟩ | ⟨hend, hoffers⟩
  · obtain rfl := Step.admits_endOfInput.1 ht
    rw [if_pos rfl, List.append_nil] at htokens
    refine ⟨iff_of_true (.inl ⟨e, parseWithin_eq_ok_iff.2 ⟨us, htokens, he, nofun⟩⟩) ?_, nofun⟩
    rintro ⟨hcolon, -⟩
    nomatch hcolon
  have hne : t ≠ .eof := by
    rintro rfl
    cases x <;> simp_all [Expectation.admits]
  rw [if_neg hne] at htokens
  rcases hoffers t ht with haccepts | hrefuses
  · refine ⟨iff_of_true (accepted_or_later htokens haccepts.opens) ?_, ?_⟩
    · rintro ⟨hcolon, hlist, hvalue⟩
      exact haccepts.no_value hcolon hlist hvalue
    · intro hcolon hlist hvalue
      exact absurd hvalue (haccepts.no_value hcolon hlist)
  · have hfails : FailsAt source' us.length t expected :=
      failsAt_of_refuses hp' (Nat.le_max_right _ _) htokens hdiagnosis.ne_eof hrefuses
    refine ⟨iff_of_false ?_ ?_, fun _ _ _ => hfails⟩
    · rintro (⟨e, he⟩ | ⟨k', _, _, hlt, hlater⟩)
      · exact hfails.not_accepted he
      · exact Nat.ne_of_lt hlt (hfails.unique hlater)
    · exact fun hnot => hnot ⟨hrefuses.colon, hrefuses.expected_eq, hrefuses.value⟩

/-- An argument that is missing its comma: with the comma, the parse gets to the end of input. -/
theorem parseWithin_none_second_argument :
    FailsAt "f(a b" 3 (.identifier "b") [.symbol .comma, .symbol .parenClose] ∧
    tokens "f(a," = .ok [.identifier "f", .symbol .parenOpen, .identifier "a", .symbol .comma] ∧
    ∃ k' found' expected', 3 < k' ∧ FailsAt "f(a," k' found' expected' := by
  have hfails : FailsAt "f(a b" 3 (.identifier "b") [.symbol .comma, .symbol .parenClose] := by
    decide +kernel
  have hcomma : Expectation.symbol .comma ∈ [Expectation.symbol .comma, .symbol .parenClose] :=
    List.mem_cons_self
  have hadmits : (Expectation.symbol .comma).admits (.symbol .comma) = true := by decide
  have htokens : tokens "f(a," = .ok (((lexemes "f(a b").take 3).map Lexeme.token ++
      if Token.symbol .comma = .eof then [] else [.symbol .comma]) := by
    decide +kernel
  refine ⟨hfails, by decide +kernel, ?_⟩
  have hnot : ¬(Token.symbol .comma = .symbol .colon ∧
      [Expectation.symbol .comma, .symbol .parenClose] = Step.afterEntry ∧
        EndsInValue (((lexemes "f(a b").take 3).map Lexeme.token)) := by
    rintro ⟨hcolon, -⟩
    nomatch hcolon
  rcases (parseWithin_none_of_expected hfails hcomma hadmits htokens).1.2 hnot with
    ⟨e, he⟩ | hlater
  · have herror : (parseWithin none "f(a,").isOk = false := by decide +kernel
    rw [he] at herror
    nomatch herror
  · exact hlater

/-- A second colon is listed and refused. -/
theorem parseWithin_none_second_colon_refused :
    ¬∀ source source' k found expected x t, FailsAt source k found expected → x ∈ expected →
      x.admits t = true → tokens source' =
        .ok (((lexemes source).take k).map Lexeme.token ++ if t = .eof then [] else [t]) →
      (∃ e, parseWithin none source' = .ok e) ∨
        ∃ k' found' expected', k < k' ∧ FailsAt source' k' found' expected' := by
  intro h
  have hfails : FailsAt "\x7ba: b :" 4 (.symbol .colon) Step.afterEntry := by decide +kernel
  rcases h "\x7ba: b c\x7d" "\x7ba: b :" 4 (.identifier "c") Step.afterEntry (.symbol .colon)
    (.symbol .colon) (by decide +kernel) (by decide) (by decide) (by decide +kernel) with
    ⟨e, he⟩ | ⟨k', _, _, hlt, hlater⟩
  · exact hfails.not_accepted he
  · exact absurd (hfails.unique hlater) (Nat.ne_of_lt hlt)

end Expr

end Binding
