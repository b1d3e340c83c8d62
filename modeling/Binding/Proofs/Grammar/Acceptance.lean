import Binding.Proofs.Grammar.Completeness
import Binding.Proofs.Parser.Lockstep
import Binding.Proofs.Token.Tokens

/-!
# What the parser accepts

The parser accepts the tokens of the declared grammar, with the tree that the grammar gives them,
and nothing else.  In particular the grammar gives no tokens two trees.

Levels of nesting are part of the statement (`Expr.parseWithin_eq_ok_iff`): a source is accepted
under a limit if and only if its tokens are an expression whose tree needs no more levels than the
limit allows.

## Main results

* `Expr.parseWithin_eq_ok_iff`: the sources that are accepted, under any limit or none.
* `Expr.parseWithin_none_eq_ok_iff_derives`: the sources that are accepted without a limit.
-/

namespace Binding

open Filter

namespace Phrase

/-- A whole input: nothing at all, or an expression. -/
def Whole (ts : List Token) (e : Expr) : Prop :=
  ts = [] ∧ e = .empty ∨ Expression ts e

end Phrase

namespace Grammar

open Step Phrase

/-- A whole input, taken apart: nothing, or an expression up to the end of input. -/
theorem gives_whole {budget : Nat} {p q : Parser Unit} {e : Expr} :
    (whole Expr.builder budget).Gives p e q ↔
      if p.current.token = .eof then e = .empty ∧ q = p
      else ∃ r, (ternary Expr.builder budget).Gives p e r ∧ r.current.token = .eof ∧
        r.next? = some q := by
  rw [whole, gives_token_bind]
  split
  · exact gives_make
  · simp only [gives_bind, expect, gives_pass, admits_endOfInput, gives_pure]
    constructor
    · rintro ⟨_, r, hroot, _, _, ⟨heof, hnext⟩, rfl, rfl⟩
      exact ⟨r, hroot, heof, hnext⟩
    · rintro ⟨r, hroot, heof, hnext⟩
      exact ⟨e, r, hroot, (), q, ⟨heof, hnext⟩, rfl, rfl⟩

/-- A whole input that is parsed is one of the declared grammar. -/
theorem whole_sound {budget : Nat} {p q : Parser Unit} {e : Expr}
    (h : (whole Expr.builder budget).Gives p e q) :
    ∃ r, p.Finds (Whole · e) e.need r ∧ r.current.token = .eof := by
  rw [gives_whole] at h
  split at h
  · next heof =>
    obtain ⟨rfl, -⟩ := h
    exact ⟨p, ⟨[], rfl, .inl ⟨rfl, rfl⟩, fun _ _ => Nat.zero_le _⟩, heof⟩
  · obtain ⟨r, hroot, heof, -⟩ := h
    obtain ⟨ts, hts, he, hneed⟩ := (sound budget).ternary hroot
    exact ⟨r, ⟨ts, hts, .inr he, hneed⟩, heof⟩

/-- A whole input of the declared grammar is parsed. -/
theorem whole_yields {ts : List Token} {p q : Parser Unit} {e : Expr} (h : Whole ts e)
    (hts : p.Reads ts q) (hneed : p.Affords e.need) (heof : q.current.token = .eof)
    (hend : q.next? = some q) : Yields (whole Expr.builder) p e q := by
  obtain ⟨rfl, rfl⟩ | h := h
  · obtain rfl := Parser.reads_nil.1 hts
    exact .of_forall fun budget => gives_whole.2 (by rw [if_pos heof]; exact ⟨rfl, rfl⟩)
  · have hroot := h.yields hts hneed (Token.endsExpression_of_mem (by simp [heof]))
    have hne : p.current.token ≠ .eof := by
      obtain ⟨t, us, rfl, -⟩ := h.head
      exact (Parser.reads_cons.1 hts).1.1 ▸ (Parser.reads_cons.1 hts).1.2
    filter_upwards [hroot] with budget hroot
    rw [gives_whole, if_neg hne]
    exact ⟨q, hroot, heof, hend⟩

end Grammar

namespace Expr

open Phrase

theorem parseWithin_eq_fst {source : String} {allowance : Option Allowance} {p : Parser Unit}
    (h : Parser.ofSource source allowance () = .ok p) :
    parseWithin allowance source = (p.parse builder).1 := by
  simp [parseWithin, Parser.run, h]

/-- **The sources that are accepted.**  Their tokens are a whole input of the declared grammar, and
the tree does not nest deeper than allowed. -/
theorem parseWithin_eq_ok_iff {allowance : Option Allowance} {source : String} {e : Expr} :
    parseWithin allowance source = .ok e ↔
      ∃ ts, tokens source = .ok ts ∧ Whole ts e ∧
        ∀ a, allowance = some a → e.need ≤ a.remaining := by
  constructor
  · intro h
    cases hp : Parser.ofSource source allowance () with
    | error error => simp [parseWithin, Parser.run, hp] at h
    | ok p =>
      rw [parseWithin_eq_fst hp] at h
      have hwhole : (Grammar.whole builder (Grammar.budget p)).Gives p e (p.parse builder).2 := by
        rw [Step.Gives, Parser.outcome_whole builder p (Nat.le_refl _), ← h]
      obtain ⟨r, ⟨ts, hts, he, hneed⟩, heof⟩ := Grammar.whole_sound hwhole
      refine ⟨ts, Parser.tokens_of_reads hp hts heof, he, fun a ha => hneed a ?_⟩
      exact (Parser.allowance_of_ofFeed hp).trans ha
  · rintro ⟨ts, htokens, he, hneed⟩
    obtain ⟨p, q, hp, hts, heof, hend⟩ := Parser.reads_of_tokens htokens allowance ()
    have haffords : p.Affords e.need := fun a ha =>
      hneed a ((Parser.allowance_of_ofFeed hp).symm.trans ha)
    obtain ⟨budget, hbudget⟩ := (Grammar.whole_yields he hts haffords heof hend).exists
    rw [parseWithin_eq_fst hp, Parser.parse_eq_of_outcome hbudget]

/-- **The parser accepts exactly its grammar.**  Without a limit on nesting, a source that can be
read is parsed with a tree if and only if nothing stands in it and the tree is empty, or its tokens
are an expression with this tree. -/
theorem parseWithin_none_eq_ok_iff_derives {source : String} {ts : List Token}
    (h : tokens source = .ok ts) (e : Expr) :
    parseWithin none source = .ok e ↔ ts = [] ∧ e = .empty ∨ Expression ts e := by
  rw [parseWithin_eq_ok_iff]
  constructor
  · rintro ⟨us, hus, he, -⟩
    obtain rfl : ts = us := Except.ok.inj (h.symm.trans hus)
    exact he
  · intro he
    exact ⟨ts, h, he, nofun⟩

/-- In `a - b.f(c) * d - e | -g` operators of three bands meet.  The product is on the right of the
first minus, the first difference on the left of the second one, and the filter takes all that is
before it. -/
theorem parseWithin_none_mixed_bands :
    tokens "a - b.f(c) * d - e | -g" = .ok [.identifier "a", .symbol .minus, .identifier "b",
      .symbol .dot, .identifier "f", .symbol .parenOpen, .identifier "c", .symbol .parenClose,
      .symbol .star, .identifier "d", .symbol .minus, .identifier "e", .symbol .bar,
      .symbol .minus, .identifier "g"] ∧
    parseWithin none "a - b.f(c) * d - e | -g" =
      .ok (.binary .pipe
        (.binary .subtract
          (.binary .subtract (.identifier "a")
            (.binary .multiply
              (.invoke (.identifier "b") (some "f") (some [.identifier "c"])) (.identifier "d")))
          (.identifier "e"))
        (.unary .negate (.identifier "g"))) := by
  have htokens : tokens "a - b.f(c) * d - e | -g" = .ok [.identifier "a", .symbol .minus,
      .identifier "b", .symbol .dot, .identifier "f", .symbol .parenOpen, .identifier "c",
      .symbol .parenClose, .symbol .star, .identifier "d", .symbol .minus, .identifier "e",
      .symbol .bar, .symbol .minus, .identifier "g"] := by
    decide +kernel
  have hname (x : String) : Unary [.identifier x] (.identifier x) :=
    .access (.operand (.identifier x))
  have hcall : Unary [.identifier "b", .symbol .dot, .identifier "f", .symbol .parenOpen,
      .identifier "c", .symbol .parenClose]
      (.invoke (.identifier "b") (some "f") (some [.identifier "c"])) :=
    .access (@Access.method [_] [_] _ _ _ (.operand (.identifier "b"))
      (.list (.last (.plain (.unary (hname "c"))))))
  have hproduct := @Binary.join 7 .multiply _ _ _ _ (by decide) (.unary hcall) (.unary (hname "d"))
  have hfirst := @Binary.join 6 .subtract _ _ _ _ (by decide) (.unary (hname "a")) hproduct
  have hsecond := @Binary.join 1 .subtract _ _ _ _ (by decide) hfirst (.unary (hname "e"))
  have hnegate : Unary [.symbol .minus, .identifier "g"] (.unary .negate (.identifier "g")) :=
    @Unary.apply .negate _ _ (hname "g")
  have hpipe := @Binary.join 1 .pipe _ _ _ _ (by decide) hsecond (.unary hnegate)
  exact ⟨htokens, (parseWithin_none_eq_ok_iff_derives htokens _).2 (.inr (.plain hpipe))⟩

end Expr

end Binding
