import Binding.Proofs.Grammar.Nesting
import Binding.Proofs.Parser.Success

/-!
# What is parsed is a phrase

A step of the grammar that succeeds has passed the tokens of a phrase, and its result is the tree
that the declared grammar gives them.  It has also stayed within its levels of nesting: the tree
needs no more of them than the parser had.

The two loops are where this takes an invariant.

* `binaryChain` holds the operators joined so far as its left operand.  The next operator is never
  tighter than the last one, because the right operand of that took all tighter ones; so the left
  operand is always one that the next operator may take.
* `accessChain` never meets an opening parenthesis behind a getter, because a name before a
  parenthesis has been taken for a method.

Either loop has spent one level for each link.  The invariant is stated for the parser with these
levels given back, `p` in `p.spent left.links`, so that it speaks of the levels at the start of the
chain throughout.

## Main results

`Grammar.sound` collects the statement for every phrase.
-/

namespace Binding

theorem Token.binary?_eq_some_iff {t : Token} {op : BinaryOp} :
    t.binary? = some op ↔ t = .symbol op.symbol := by
  cases t <;> simp [Token.binary?, BinaryOp.ofSymbol?_eq_some_iff]

theorem Token.unary?_eq_some_iff {t : Token} {op : UnaryOp} :
    t.unary? = some op ↔ t = .symbol op.symbol := by
  cases t <;> simp [Token.unary?, UnaryOp.ofSymbol?_eq_some_iff]

/-- The token is no operator of the band `least` or a tighter one. -/
def Token.Looser (least : Nat) (t : Token) : Prop :=
  ∀ op, t.binary? = some op → op.band < least

theorem Token.Looser.mono {m n : Nat} {t : Token} (h : t.Looser m) (hle : m ≤ n) : t.Looser n :=
  fun op hop => Nat.lt_of_lt_of_le (h op hop) hle

/-- Passing some tokens leads from the first parser to the second; they are a phrase, and the
first parser has the levels of nesting that it needs. -/
def Parser.Finds (p : Parser Unit) (phrase : List Token → Prop) (levels : Nat)
    (q : Parser Unit) : Prop :=
  ∃ ts, p.Reads ts q ∧ phrase ts ∧ p.Affords levels

namespace Grammar

open Step Phrase

/-- Every phrase that is parsed within the budget is one of the declared grammar. -/
structure Sound (budget : Nat) : Prop where
  ternary {p q : Parser Unit} {e : Expr} : (ternary Expr.builder budget).Gives p e q →
    p.Finds (Expression · e) e.need q
  binary {least : Nat} {p q : Parser Unit} {e : Expr} :
    (binary Expr.builder budget least).Gives p e q →
      p.Finds (Binary least · e) e.need q ∧ q.current.token.Looser least
  binaryChain {least band : Nat} {p q : Parser Unit} {left e : Expr} {ls : List Token} :
    (binaryChain Expr.builder budget least left).Gives (p.spent left.links) e q →
      Binary band ls left → least ≤ band → p.current.token.Looser (band + 1) →
      p.Affords left.need →
        ∃ r, p.Finds (fun ts => Binary least (ls ++ ts) e) e.need r ∧
          q = r.within q.allowance ∧ r.current.token.Looser least
  unary {p q : Parser Unit} {e : Expr} : (unary Expr.builder budget).Gives p e q →
    p.Finds (Unary · e) e.need q
  access {p q : Parser Unit} {e : Expr} : (access Expr.builder budget).Gives p e q →
    p.Finds (Access · e) e.need q
  accessChain {p q : Parser Unit} {receiver e : Expr} {ls : List Token} :
    (accessChain Expr.builder budget receiver).Gives (p.spent receiver.accesses) e q →
      Access ls receiver →
      (p.current.token = .symbol .parenOpen → receiver.isGetter = false) →
      p.Affords receiver.need →
        ∃ r, p.Finds (fun ts => Access (ls ++ ts) e) e.need r ∧ q = r.within q.allowance
  arguments {p q : Parser Unit} {args : List Expr} :
    (arguments Expr.builder budget).Gives p args q →
      p.Finds (fun ts => ∃ us, ts = .symbol .parenOpen :: (us ++ [.symbol .parenClose]) ∧
        Arguments us args) (Expr.needArguments args) q
  argumentList {p q : Parser Unit} {args : List Expr} :
    (argumentList Expr.builder budget).Gives p args q →
      p.Finds (ArgumentList · args) (Expr.needArguments args) q
  operand {p q : Parser Unit} {e : Expr} : (operand Expr.builder budget).Gives p e q →
    p.Finds (Operand · e) e.need q
  listItems {p q : Parser Unit} {items : List (Option Expr)} :
    (listItems Expr.builder budget).Gives p items q →
      p.Finds (Items · items) (Expr.needItems items) q ∧
        q.current.token = .symbol .bracketClose
  mapEntries {p q : Parser Unit} {entries : List (String × Option Expr)} :
    (mapEntries Expr.builder budget).Gives p entries q →
      p.Finds (Entries · entries) (Expr.needEntries entries) q ∧
        q.current.token = .symbol .braceClose
  mapValue {p q : Parser Unit} {value : Option Expr} :
    (mapValue Expr.builder budget).Gives p value q →
      p.Finds (fun ts => ∀ t key, t = .identifier key ∨ t = .string key →
        Entry (t :: ts) (key, value)) (Expr.needItems [value]) q

theorem reads_advance {p q : Parser Unit} {t : Token} (ht : p.current.token = t) (hne : t ≠ .eof)
    (h : advance.Gives p () q) : p.Reads [t] q :=
  Parser.reads_singleton.2 ⟨⟨ht, hne⟩, gives_advance.1 h⟩

/-- Every link of a chain takes one more level of nesting. -/
theorem affords_of_gives_spend {β : Type} {next : Unit → Step Unit β} {p q : Parser Unit} {b : β}
    {levels : Nat} (hlevels : p.Affords levels)
    (h : (spend >>= next).Gives (p.spent levels) b q) :
    p.Affords (levels + 1) ∧ (next ()).Gives (p.spent (levels + 1)) b q := by
  obtain ⟨_, p₁, hspend, h⟩ := gives_bind.1 h
  obtain ⟨hone, rfl⟩ := gives_spend.1 hspend
  rw [Parser.spent_spent] at h
  exact ⟨(Parser.affords_spent hlevels).1 hone, h⟩

theorem gives_listItems_close {budget : Nat} {p q : Parser Unit} {items : List (Option Expr)}
    (h : (listItems Expr.builder budget).Gives p items q)
    (hclose : p.current.token = .symbol .bracketClose) : items = [] ∧ q = p := by
  cases budget with
  | zero => exact absurd h not_gives_exhausted
  | succ budget =>
    replace h := gives_token_bind.1 h
    rw [if_pos hclose] at h
    exact gives_pure.1 h

theorem gives_mapEntries_close {budget : Nat} {p q : Parser Unit}
    {entries : List (String × Option Expr)}
    (h : (mapEntries Expr.builder budget).Gives p entries q)
    (hclose : p.current.token = .symbol .braceClose) : entries = [] ∧ q = p := by
  cases budget with
  | zero => exact absurd h not_gives_exhausted
  | succ budget =>
    replace h := gives_token_bind.1 h
    rw [if_pos hclose] at h
    exact gives_pure.1 h

section Phrases

variable {budget : Nat} (ih : Sound budget) {p q : Parser Unit}

include ih

theorem nested_ternary_sound {e : Expr}
    (h : (nested (ternary Expr.builder budget)).Gives p e q) :
    p.Finds (Expression · e) (1 + e.need) q := by
  obtain ⟨hone, r, hr, rfl⟩ := gives_nested.1 h
  obtain ⟨ts, hts, hphrase, hneed⟩ := ih.ternary hr
  exact ⟨ts, reads_of_nested hone hts, hphrase, (Parser.affords_spent hone).1 hneed⟩

theorem ternary_sound {e : Expr} (h : (ternary Expr.builder (budget + 1)).Gives p e q) :
    p.Finds (Expression · e) e.need q := by
  obtain ⟨c, p₁, hc, h⟩ := gives_bind.1 h
  obtain ⟨⟨cs, hcs, hcond, hcneed⟩, -⟩ := ih.binary hc
  replace h := gives_token_bind.1 h
  split at h
  · next hquestion =>
    obtain ⟨_, p₂, hadvance, h⟩ := gives_bind.1 h
    obtain ⟨a, p₃, ha, h⟩ := gives_bind.1 h
    obtain ⟨ts, hts, htrue, htneed⟩ := nested_ternary_sound ih ha
    obtain ⟨_, p₄, hcolon, h⟩ := gives_bind.1 h
    obtain ⟨b, p₅, hb, h⟩ := gives_bind.1 h
    obtain ⟨fs, hfs, hfalse, hfneed⟩ := nested_ternary_sound ih hb
    obtain ⟨rfl, rfl⟩ := gives_make.1 h
    have hcs₂ := hcs.append (reads_advance hquestion (by simp) hadvance)
    have hts₄ := hts.append (gives_pass_symbol.1 hcolon)
    refine ⟨_, hcs₂.append (hts₄.append hfs), ?_, ?_⟩
    · simpa [Expr.ofNode] using Expression.ternary hcond htrue hfalse
    · refine Parser.affords_max.2 ⟨hcneed, Parser.affords_max.2 ⟨hcs₂.affords.1 htneed, ?_⟩⟩
      exact (hcs₂.append hts₄).affords.1 hfneed
  · obtain ⟨rfl, rfl⟩ := gives_pure.1 h
    exact ⟨cs, hcs, .plain hcond, hcneed⟩

theorem binary_sound {least : Nat} {e : Expr}
    (h : (binary Expr.builder (budget + 1) least).Gives p e q) :
    p.Finds (Binary least · e) e.need q ∧ q.current.token.Looser least := by
  obtain ⟨u, p₁, hu, h⟩ := gives_bind.1 h
  obtain ⟨us, hus, hunary, huneed⟩ := ih.unary hu
  obtain ⟨r, hr, rfl⟩ := gives_restoring.1 h
  have hlinks : u.links = 0 := hunary.links_eq_zero
  have hstart : (binaryChain Expr.builder budget least u).Gives (p₁.spent u.links) e r := by
    rwa [hlinks, Parser.spent_zero]
  -- A unary operand may stand on the left of any operator, so any band that is high enough will do.
  have hband : Binary (least + 7) us u := .unary hunary
  have hop : p₁.current.token.Looser (least + 7 + 1) := fun op _ => by
    have := op.band_le
    omega
  obtain ⟨s, ⟨ts, hts, hbinary, hneed⟩, hs, hlooser⟩ :=
    ih.binaryChain hstart hband (Nat.le_add_right _ _) hop (hus.affords.2 huneed)
  refine ⟨⟨us ++ ts, ?_, hbinary, hus.affords.1 hneed⟩, ?_⟩
  · rw [hs, Parser.within_within, ← hts.allowance_eq, Parser.within_self]
    exact hus.append hts
  · rw [hs]
    exact hlooser

theorem binaryChain_sound {least band : Nat} {left e : Expr} {ls : List Token}
    (h : (binaryChain Expr.builder (budget + 1) least left).Gives (p.spent left.links) e q)
    (hleft : Binary band ls left) (hle : least ≤ band)
    (hband : p.current.token.Looser (band + 1)) (hneed : p.Affords left.need) :
    ∃ r, p.Finds (fun ts => Binary least (ls ++ ts) e) e.need r ∧ q = r.within q.allowance ∧
      r.current.token.Looser least := by
  have hdone (hlooser : p.current.token.Looser least) (heq : e = left ∧ q = p.spent left.links) :
      ∃ r, p.Finds (fun ts => Binary least (ls ++ ts) e) e.need r ∧ q = r.within q.allowance ∧
        r.current.token.Looser least := by
    obtain ⟨rfl, rfl⟩ := heq
    refine ⟨p, ⟨[], rfl, ?_, hneed⟩, rfl, hlooser⟩
    simpa using hleft.mono hle
  replace h := gives_token_bind.1 h
  rw [Parser.current_spent] at h
  split at h
  · next hnone => exact hdone (by simp [Token.Looser, hnone]) (gives_pure.1 h)
  · next op hop =>
    rw [op.precedence_eq_band] at h
    split at h
    · next hlt =>
      refine hdone (fun op' hop' => ?_) (gives_pure.1 h)
      rw [hop, Option.some.injEq] at hop'
      rwa [← hop']
    · next hge =>
      obtain ⟨hlinks, h⟩ := affords_of_gives_spend (hneed.mono left.links_le_need) h
      obtain ⟨_, p₂, hadvance, h⟩ := gives_bind.1 h
      have hsymbol := Token.binary?_eq_some_iff.1 hop
      obtain ⟨p₂, hp₂, rfl⟩ := Parser.reads_spent.1 (reads_advance hsymbol (by simp) hadvance)
      obtain ⟨r, p₃, hr, h⟩ := gives_bind.1 h
      obtain ⟨⟨rs, hrs, hright, hrneed⟩, hlooser⟩ := ih.binary hr
      obtain ⟨p₃, hp₃, rfl⟩ := Parser.reads_spent.1 hrs
      obtain ⟨joined, p₄, hmake, h⟩ := gives_bind.1 h
      obtain ⟨rfl, rfl⟩ := gives_make.1 hmake
      have hreads := hp₂.append hp₃
      have hjoined : Binary op.band (ls ++ .symbol op.symbol :: rs) (.binary op left r) := by
        refine .join (Nat.le_refl _) (hleft.mono ?_) hright
        exact Nat.le_of_lt_succ (hband op hop)
      have hjoinedNeed : p₃.Affords (Expr.binary op left r).need := by
        rw [Expr.need, Parser.affords_max, hreads.affords, hreads.affords]
        exact ⟨hneed, hp₂.affords.1 ((Parser.affords_spent (hp₂.affords.2 hlinks)).1 hrneed)⟩
      obtain ⟨s, ⟨ts, hts, hbinary, hsneed⟩, hs, hslooser⟩ :=
        ih.binaryChain h hjoined (Nat.le_of_not_lt hge) hlooser hjoinedNeed
      refine ⟨s, ⟨_, hreads.append hts, ?_, hreads.affords.1 hsneed⟩, hs, hslooser⟩
      simpa using hbinary

theorem unary_sound {e : Expr} (h : (unary Expr.builder (budget + 1)).Gives p e q) :
    p.Finds (Unary · e) e.need q := by
  replace h := gives_token_bind.1 h
  split at h
  · next op hop =>
    obtain ⟨_, p₁, hadvance, h⟩ := gives_bind.1 h
    have hp₁ := reads_advance (Token.unary?_eq_some_iff.1 hop) (by simp) hadvance
    obtain ⟨a, p₂, ha, h⟩ := gives_bind.1 h
    obtain ⟨rfl, rfl⟩ := gives_make.1 h
    obtain ⟨hone, r, hr, rfl⟩ := gives_nested.1 ha
    obtain ⟨ts, hts, hunary, hneed⟩ := ih.unary hr
    refine ⟨_, hp₁.append (reads_of_nested hone hts), .apply hunary, ?_⟩
    exact hp₁.affords.1 ((Parser.affords_spent hone).1 hneed)
  · obtain ⟨ts, hts, haccess, hneed⟩ := ih.access h
    exact ⟨ts, hts, .access haccess, hneed⟩

theorem access_sound {e : Expr} (h : (access Expr.builder (budget + 1)).Gives p e q) :
    p.Finds (Access · e) e.need q := by
  obtain ⟨a, p₁, ha, h⟩ := gives_bind.1 h
  obtain ⟨os, hos, hoperand, honeed⟩ := ih.operand ha
  obtain ⟨r, hr, rfl⟩ := gives_restoring.1 h
  have hstart : (accessChain Expr.builder budget a).Gives (p₁.spent a.accesses) e r := by
    rwa [hoperand.accesses_eq_zero, Parser.spent_zero]
  obtain ⟨s, ⟨ts, hts, haccess, hneed⟩, hs⟩ := ih.accessChain hstart (.operand hoperand)
    (fun _ => hoperand.isGetter_eq_false) (hos.affords.2 honeed)
  refine ⟨os ++ ts, ?_, haccess, hos.affords.1 hneed⟩
  rw [hs, Parser.within_within, ← hts.allowance_eq, Parser.within_self]
  exact hos.append hts

/-- One more link of an access chain: what the link passed and built, and the rest of the chain
behind it. -/
theorem accessLink_sound {made e : Expr} {ls us : List Token} {p₁ : Parser Unit}
    (hus : p.Reads us p₁) (hmade : Access (ls ++ us) made)
    (hparen : p₁.current.token = .symbol .parenOpen → made.isGetter = false)
    (hneed : p.Affords made.need)
    (h : (accessChain Expr.builder budget made).Gives (p₁.spent made.accesses) e q) :
    ∃ r, p.Finds (fun ts => Access (ls ++ ts) e) e.need r ∧ q = r.within q.allowance := by
  obtain ⟨r, ⟨ts, hts, haccess, heneed⟩, hr⟩ :=
    ih.accessChain h hmade hparen (hus.affords.2 hneed)
  refine ⟨r, ⟨us ++ ts, hus.append hts, ?_, hus.affords.1 heneed⟩, hr⟩
  simpa using haccess

theorem accessChain_sound {receiver e : Expr} {ls : List Token}
    (h : (accessChain Expr.builder (budget + 1) receiver).Gives (p.spent receiver.accesses) e q)
    (hreceiver : Access ls receiver)
    (hparen : p.current.token = .symbol .parenOpen → receiver.isGetter = false)
    (hneed : p.Affords receiver.need) :
    ∃ r, p.Finds (fun ts => Access (ls ++ ts) e) e.need r ∧ q = r.within q.allowance := by
  have haccesses := hneed.mono receiver.accesses_le_need
  replace h := gives_token_bind.1 h
  rw [Parser.current_spent] at h
  split at h
  · next hdot =>
    obtain ⟨hlink, h⟩ := affords_of_gives_spend haccesses h
    obtain ⟨_, p₂, hadvance, h⟩ := gives_bind.1 h
    obtain ⟨p₂, hp₂, rfl⟩ := Parser.reads_spent.1 (reads_advance hdot (by simp) hadvance)
    obtain ⟨name, p₃, hname, h⟩ := gives_bind.1 h
    obtain ⟨p₃, hp₃, rfl⟩ := Parser.reads_spent.1 (gives_takeName.1 hname)
    replace h := gives_token_bind.1 h
    split at h
    · obtain ⟨args, p₄, hargs, h⟩ := gives_bind.1 h
      obtain ⟨_, hts, ⟨us, rfl, harguments⟩, haneed⟩ := ih.arguments hargs
      obtain ⟨p₄, hp₄, rfl⟩ := Parser.reads_spent.1 hts
      obtain ⟨made, p₅, hmake, h⟩ := gives_bind.1 h
      obtain ⟨rfl, rfl⟩ := gives_make.1 hmake
      have hp₂₃ := hp₂.append hp₃
      refine accessLink_sound ih (hp₂₃.append hp₄) (.method hreceiver harguments)
        (fun _ => rfl) ?_ h
      refine Parser.affords_max.2 ⟨hneed, hp₂₃.affords.1 ?_⟩
      exact (Parser.affords_spent (hp₂₃.affords.2 hlink)).1 haneed
    · next hnotParen =>
      obtain ⟨made, p₅, hmake, h⟩ := gives_bind.1 h
      obtain ⟨rfl, rfl⟩ := gives_make.1 hmake
      exact accessLink_sound ih (hp₂.append hp₃) (.getter hreceiver)
        (fun hopen => absurd hopen hnotParen) (Parser.affords_max.2 ⟨hneed, hlink⟩) h
  · next hopen =>
    obtain ⟨hlink, h⟩ := affords_of_gives_spend haccesses h
    obtain ⟨args, p₄, hargs, h⟩ := gives_bind.1 h
    obtain ⟨_, hts, ⟨us, rfl, harguments⟩, haneed⟩ := ih.arguments hargs
    obtain ⟨p₄, hp₄, rfl⟩ := Parser.reads_spent.1 hts
    obtain ⟨made, p₅, hmake, h⟩ := gives_bind.1 h
    obtain ⟨rfl, rfl⟩ := gives_make.1 hmake
    refine accessLink_sound ih hp₄ (.call hreceiver (hparen hopen) harguments) (fun _ => rfl) ?_ h
    exact Parser.affords_max.2 ⟨hneed, (Parser.affords_spent hlink).1 haneed⟩
  · next hopen =>
    obtain ⟨hlink, h⟩ := affords_of_gives_spend haccesses h
    obtain ⟨_, p₂, hadvance, h⟩ := gives_bind.1 h
    obtain ⟨p₂, hp₂, rfl⟩ := Parser.reads_spent.1 (reads_advance hopen (by simp) hadvance)
    obtain ⟨i, p₃, hi, h⟩ := gives_bind.1 h
    obtain ⟨us, hus, hindex, hineed⟩ := ih.ternary hi
    obtain ⟨p₃, hp₃, rfl⟩ := Parser.reads_spent.1 hus
    obtain ⟨_, p₄, hclose, h⟩ := gives_bind.1 h
    obtain ⟨p₄, hp₄, rfl⟩ := Parser.reads_spent.1 (gives_pass_symbol.1 hclose)
    obtain ⟨made, p₅, hmake, h⟩ := gives_bind.1 h
    obtain ⟨rfl, rfl⟩ := gives_make.1 hmake
    refine accessLink_sound ih (hp₂.append (hp₃.append hp₄)) (.index hreceiver hindex)
      (fun _ => rfl) ?_ h
    refine Parser.affords_max.2 ⟨hneed, hp₂.affords.1 ?_⟩
    exact (Parser.affords_spent (hp₂.affords.2 hlink)).1 hineed
  · obtain ⟨rfl, rfl⟩ := gives_pure.1 h
    exact ⟨p, ⟨[], rfl, by simpa using hreceiver, hneed⟩, rfl⟩

theorem arguments_sound {args : List Expr}
    (h : (arguments Expr.builder (budget + 1)).Gives p args q) :
    p.Finds (fun ts => ∃ us, ts = .symbol .parenOpen :: (us ++ [.symbol .parenClose]) ∧
      Arguments us args) (Expr.needArguments args) q := by
  obtain ⟨_, p₁, hopen, h⟩ := gives_bind.1 h
  have hp₁ := gives_pass_symbol.1 hopen
  replace h := gives_token_bind.1 h
  -- Whether or not there are arguments, the closing parenthesis is all that is left.
  have hclose {us : List Token} {args' : List Expr} {p₂ : Parser Unit} (hus : p₁.Reads us p₂)
      (harguments : Arguments us args') (hneed : p₁.Affords (Expr.needArguments args'))
      (h : (do
        pass (.symbol .parenClose) [.symbol .comma, .symbol .parenClose]
        return args' : Step Unit (List Expr)).Gives p₂ args q) :
      p.Finds (fun ts => ∃ us, ts = .symbol .parenOpen :: (us ++ [.symbol .parenClose]) ∧
        Arguments us args) (Expr.needArguments args) q := by
    obtain ⟨_, p₃, hpass, h⟩ := gives_bind.1 h
    obtain ⟨rfl, rfl⟩ := gives_pure.1 h
    exact ⟨_, hp₁.append (hus.append (gives_pass_symbol.1 hpass)), ⟨us, rfl, harguments⟩,
      hp₁.affords.1 hneed⟩
  split at h
  · obtain ⟨args', p₂, hpure, h⟩ := gives_bind.1 h
    obtain ⟨rfl, rfl⟩ := gives_pure.1 hpure
    exact hclose (Parser.reads_nil.2 rfl) .empty (fun _ _ => Nat.zero_le _) h
  · obtain ⟨args', p₂, hlist, h⟩ := gives_bind.1 h
    obtain ⟨us, hus, hargs, hneed⟩ := ih.argumentList hlist
    exact hclose hus (.list hargs) hneed h

theorem argumentList_sound {args : List Expr}
    (h : (argumentList Expr.builder (budget + 1)).Gives p args q) :
    p.Finds (ArgumentList · args) (Expr.needArguments args) q := by
  obtain ⟨a, p₁, ha, h⟩ := gives_bind.1 h
  obtain ⟨ts, hts, hfirst, hneed⟩ := ih.ternary ha
  replace h := gives_token_bind.1 h
  split at h
  · next hcomma =>
    obtain ⟨_, p₂, hadvance, h⟩ := gives_bind.1 h
    have hp₂ := hts.append (reads_advance hcomma (by simp) hadvance)
    obtain ⟨rest, p₃, hrest, h⟩ := gives_bind.1 h
    obtain ⟨us, hus, hlist, hrneed⟩ := ih.argumentList hrest
    obtain ⟨rfl, rfl⟩ := gives_pure.1 h
    refine ⟨_, hp₂.append hus, ?_, Parser.affords_max.2 ⟨hneed, hp₂.affords.1 hrneed⟩⟩
    simpa using ArgumentList.more hfirst hlist
  · obtain ⟨rfl, rfl⟩ := gives_pure.1 h
    exact ⟨ts, hts, .last hfirst, Parser.affords_max.2 ⟨hneed, fun _ _ => Nat.zero_le _⟩⟩

omit ih in
theorem leaf_sound {node : Node Expr} {t : Token} {e : Expr}
    (h : (leaf Expr.builder node).Gives p e q) (ht : p.current.token = t) (hne : t ≠ .eof)
    (hoperand : Operand [t] (.ofNode node)) (hneed : (Expr.ofNode node).need = 0) :
    p.Finds (Operand · e) e.need q := by
  obtain ⟨rfl, hnext⟩ := gives_leaf.1 h
  refine ⟨[t], Parser.reads_singleton.2 ⟨⟨ht, hne⟩, hnext⟩, hoperand, ?_⟩
  rw [hneed]
  exact fun _ _ => Nat.zero_le _

theorem listItems_sound {items : List (Option Expr)}
    (h : (listItems Expr.builder (budget + 1)).Gives p items q) :
    p.Finds (Items · items) (Expr.needItems items) q ∧
      q.current.token = .symbol .bracketClose := by
  replace h := gives_token_bind.1 h
  split at h
  · next hclose =>
    obtain ⟨rfl, rfl⟩ := gives_pure.1 h
    exact ⟨⟨[], rfl, .nil, fun _ _ => Nat.zero_le _⟩, hclose⟩
  · split at h
    · next hcomma =>
      obtain ⟨_, p₁, hadvance, h⟩ := gives_bind.1 h
      have hp₁ := reads_advance hcomma (by simp) hadvance
      obtain ⟨rest, p₂, hrest, h⟩ := gives_bind.1 h
      obtain ⟨⟨us, hus, hitems, hneed⟩, hclose⟩ := ih.listItems hrest
      obtain ⟨rfl, rfl⟩ := gives_pure.1 h
      exact ⟨⟨_, hp₁.append hus, .hole hitems, hp₁.affords.1 hneed⟩, hclose⟩
    · obtain ⟨a, p₁, ha, h⟩ := gives_bind.1 h
      obtain ⟨ts, hts, hitem, hneed⟩ := ih.ternary ha
      obtain ⟨_, p₂, hseparator, h⟩ := gives_bind.1 h
      obtain ⟨rest, p₃, hrest, h⟩ := gives_bind.1 h
      obtain ⟨⟨us, hus, hitems, hrneed⟩, hclose⟩ := ih.listItems hrest
      obtain ⟨rfl, rfl⟩ := gives_pure.1 h
      replace hseparator := gives_separator.1 hseparator
      split at hseparator
      · next hlast =>
        subst hseparator
        obtain ⟨rfl, rfl⟩ := gives_listItems_close hrest hlast
        exact ⟨⟨ts, hts, .last hitem, Parser.affords_max.2 ⟨hneed, fun _ _ => Nat.zero_le _⟩⟩,
          hlast⟩
      · have hp₂ := hts.append hseparator
        refine ⟨⟨_, hp₂.append hus, ?_, Parser.affords_max.2 ⟨hneed, hp₂.affords.1 hrneed⟩⟩,
          hclose⟩
        simpa using Items.item hitem hitems

theorem mapValue_sound {value : Option Expr}
    (h : (mapValue Expr.builder (budget + 1)).Gives p value q) :
    p.Finds (fun ts => ∀ t key, t = .identifier key ∨ t = .string key →
      Entry (t :: ts) (key, value)) (Expr.needItems [value]) q := by
  replace h := gives_token_bind.1 h
  split at h
  · next hcolon =>
    obtain ⟨_, p₁, hadvance, h⟩ := gives_bind.1 h
    have hp₁ := reads_advance hcolon (by simp) hadvance
    obtain ⟨a, p₂, ha, h⟩ := gives_bind.1 h
    obtain ⟨ts, hts, hvalue, hneed⟩ := ih.ternary ha
    obtain ⟨rfl, rfl⟩ := gives_pure.1 h
    refine ⟨_, hp₁.append hts, fun t key ht => .value ht hvalue, ?_⟩
    exact Parser.affords_max.2 ⟨hp₁.affords.1 hneed, fun _ _ => Nat.zero_le _⟩
  · obtain ⟨rfl, rfl⟩ := gives_pure.1 h
    exact ⟨[], rfl, fun t key ht => .key ht, fun _ _ => Nat.zero_le _⟩

theorem mapEntries_sound {entries : List (String × Option Expr)}
    (h : (mapEntries Expr.builder (budget + 1)).Gives p entries q) :
    p.Finds (Entries · entries) (Expr.needEntries entries) q ∧
      q.current.token = .symbol .braceClose := by
  replace h := gives_token_bind.1 h
  split at h
  · next hclose =>
    obtain ⟨rfl, rfl⟩ := gives_pure.1 h
    exact ⟨⟨[], rfl, .nil, fun _ _ => Nat.zero_le _⟩, hclose⟩
  · split at h
    · next hcomma =>
      obtain ⟨_, p₁, hadvance, h⟩ := gives_bind.1 h
      have hp₁ := reads_advance hcomma (by simp) hadvance
      obtain ⟨⟨us, hus, hentries, hneed⟩, hclose⟩ := ih.mapEntries h
      exact ⟨⟨_, hp₁.append hus, .skip hentries, hp₁.affords.1 hneed⟩, hclose⟩
    · obtain ⟨key, p₁, hkey, h⟩ := gives_bind.1 h
      obtain ⟨t, ht, hp₁⟩ : ∃ t, (t = .identifier key ∨ t = .string key) ∧ p.Reads [t] p₁ := by
        rcases gives_takeKey.1 hkey with hp₁ | hp₁
        · exact ⟨_, .inl rfl, hp₁⟩
        · exact ⟨_, .inr rfl, hp₁⟩
      obtain ⟨value, p₂, hvalue, h⟩ := gives_bind.1 h
      obtain ⟨ts, hts, hentry, hneed⟩ := ih.mapValue hvalue
      have hp₂ := hp₁.append hts
      obtain ⟨_, p₃, hseparator, h⟩ := gives_bind.1 h
      obtain ⟨rest, p₄, hrest, h⟩ := gives_bind.1 h
      obtain ⟨⟨us, hus, hentries, hrneed⟩, hclose⟩ := ih.mapEntries hrest
      obtain ⟨rfl, rfl⟩ := gives_pure.1 h
      replace hneed := hp₁.affords.1 hneed
      rw [Expr.needEntries_cons]
      replace hseparator := gives_separator.1 hseparator
      split at hseparator
      · next hlast =>
        subst hseparator
        obtain ⟨rfl, rfl⟩ := gives_mapEntries_close hrest hlast
        exact ⟨⟨_, hp₂, .last (hentry t key ht),
          Parser.affords_max.2 ⟨hneed, fun _ _ => Nat.zero_le _⟩⟩, hlast⟩
      · have hp₃ := hp₂.append hseparator
        refine ⟨⟨_, hp₃.append hus, ?_, Parser.affords_max.2 ⟨hneed, hp₃.affords.1 hrneed⟩⟩,
          hclose⟩
        simpa using Entries.entry (hentry t key ht) hentries

omit ih in
/-- An operand in brackets: what stands behind the opening bracket is parsed one level deeper. -/
theorem bracketed_sound {s : Symbol} {p₁ r : Parser Unit} {ts : List Token} {e : Expr}
    {levels : Nat} (hone : p.Affords 1) (hopen : p.current.token = .symbol s)
    (hnext : p.next? = some p₁) (hreads : (p₁.spent 1).Reads ts r)
    (hoperand : Operand (.symbol s :: ts) e) (hneed : (p₁.spent 1).Affords levels) :
    p.Finds (Operand · e) (1 + levels) (refund r) := by
  have hp₁ : p.Reads [.symbol s] p₁ := Parser.reads_singleton.2 ⟨⟨hopen, by simp⟩, hnext⟩
  have hone₁ := hp₁.affords.2 hone
  exact ⟨_, hp₁.append (reads_of_nested hone₁ hreads), hoperand,
    hp₁.affords.1 ((Parser.affords_spent hone₁).1 hneed)⟩

theorem operand_sound {e : Expr} (h : (operand Expr.builder (budget + 1)).Gives p e q) :
    p.Finds (Operand · e) e.need q := by
  replace h := gives_token_bind.1 h
  split at h
  · next htoken => exact leaf_sound h htoken (by simp) (.number _) rfl
  · next htoken => exact leaf_sound h htoken (by simp) (.string _) rfl
  · next htoken => exact leaf_sound h htoken (by simp) (.boolean _) rfl
  · next htoken => exact leaf_sound h htoken (by simp) .null rfl
  · next htoken => exact leaf_sound h htoken (by simp) (.identifier _) rfl
  · next hopen =>
    obtain ⟨hone, p₁, r, hnext, hbody, rfl⟩ := gives_bracketed.1 h
    obtain ⟨a, p₂, ha, hbody⟩ := gives_bind.1 hbody
    obtain ⟨ts, hts, hexpression, hneed⟩ := ih.ternary ha
    obtain ⟨_, p₃, hclose, hbody⟩ := gives_bind.1 hbody
    obtain ⟨rfl, rfl⟩ := gives_make.1 hbody
    have hreads := hts.append (gives_pass_symbol.1 hclose)
    exact bracketed_sound hone hopen hnext hreads (.paren hexpression) hneed
  · next hopen =>
    obtain ⟨hone, p₁, r, hnext, hbody, rfl⟩ := gives_bracketed.1 h
    obtain ⟨items, p₂, hitems, hbody⟩ := gives_bind.1 hbody
    obtain ⟨⟨ts, hts, hlist, hneed⟩, hclose⟩ := ih.listItems hitems
    obtain ⟨_, p₃, hadvance, hbody⟩ := gives_bind.1 hbody
    obtain ⟨rfl, rfl⟩ := gives_make.1 hbody
    have hreads := hts.append (reads_advance hclose (by simp) hadvance)
    exact bracketed_sound hone hopen hnext hreads (.list hlist) hneed
  · next hopen =>
    obtain ⟨hone, p₁, r, hnext, hbody, rfl⟩ := gives_bracketed.1 h
    obtain ⟨entries, p₂, hentries, hbody⟩ := gives_bind.1 hbody
    obtain ⟨⟨ts, hts, hmap, hneed⟩, hclose⟩ := ih.mapEntries hentries
    obtain ⟨_, p₃, hadvance, hbody⟩ := gives_bind.1 hbody
    obtain ⟨rfl, rfl⟩ := gives_make.1 hbody
    have hreads := hts.append (reads_advance hclose (by simp) hadvance)
    exact bracketed_sound hone hopen hnext hreads (.map hmap) hneed
  · exact absurd h not_gives_unexpected

end Phrases

/-- **What is parsed is a phrase,** and it needs no more levels of nesting than there were. -/
theorem sound (budget : Nat) : Sound budget := by
  induction budget with
  | zero => constructor <;> intros <;> exact absurd ‹_› not_gives_exhausted
  | succ budget ih =>
    exact {
      ternary := ternary_sound ih
      binary := binary_sound ih
      binaryChain := binaryChain_sound ih
      unary := unary_sound ih
      access := access_sound ih
      accessChain := accessChain_sound ih
      arguments := arguments_sound ih
      argumentList := argumentList_sound ih
      operand := operand_sound ih
      listItems := listItems_sound ih
      mapEntries := mapEntries_sound ih
      mapValue := mapValue_sound ih }

end Grammar

end Binding
