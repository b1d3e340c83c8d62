import Binding.Proofs.Grammar.Acceptance
import Binding.Proofs.Grammar.Subtree
import Binding.Proofs.Token.Written

/-!
# The trees that parsing gives

Which trees can be the result of parsing?  Every node of such a tree was licensed by the rule that
made it, and `Expr.Licensed` says what the rules ask for: how tightly the roots of the operands
hold, which words are names, which numbers can be written.  It looks at one node and the roots of
its operands, and never at a token.

The licences are all there is.  A tree that is licensed everywhere is an expression: operands that
hold tightly enough need no parentheses, a hole is a comma, a key is written as a string, and a
comma behind every item and every entry keeps the last of them apart from the bracket.

## Main results

* `Phrase.Expression.licensed`: an expression has a licensed root.
* `Phrase.derivable_expression`: a well-formed tree is that of an expression.
* `Expr.exists_parseWithin_iff_wellFormed`: the two together, for sources.
-/

namespace Binding

open Scan

namespace Expr

/-- How tightly the root of the tree holds its operands: not at all for a conditional, by the band
of the operator for a binary one, and tightest of all for what may have accesses behind it. -/
def tightness : Expr → Nat
  | .empty | .ternary _ _ _ => 0
  | .binary op _ _ => op.band
  | .unary _ _ => 8
  | _ => 9

/-- The node at the root may stand in a tree, over operands with the roots that they have. -/
def Licensed : Expr → Prop
  | .empty => False
  | .literal (.number value) => ∃ text, Number.IsDigits text ∧ value = .ofChars text
  | .literal _ => True
  | .identifier name => IsWord name
  | .unary _ operand => 8 ≤ operand.tightness
  | .binary op left right =>
    op.band ≤ left.tightness ∧ op.band < right.tightness
  | .getter receiver name => receiver.tightness = 9 ∧ IsWord name
  | .invoke receiver none arguments =>
    receiver.tightness = 9 ∧ arguments.isSome = true ∧ receiver.isGetter = false
  | .invoke receiver (some name) arguments =>
    receiver.tightness = 9 ∧ arguments.isSome = true ∧ IsWord name
  | .paren _ => True
  | .index receiver _ => receiver.tightness = 9
  | .ternary condition _ _ => 0 < condition.tightness
  | .map _ => True
  | .list _ => True

/-- Every node of the tree may stand where it stands. -/
def WellFormed (e : Expr) : Prop :=
  e.Everywhere Licensed

end Expr

namespace Phrase

/-! ### How tightly phrases hold -/

section Tightness

variable {ts : List Token} {e : Expr}

theorem Access.tightness_eq (h : Access ts e) : e.tightness = 9 := by
  cases h with
  | operand h => cases h <;> rfl
  | _ => rfl

theorem Unary.le_tightness (h : Unary ts e) : 8 ≤ e.tightness := by
  cases h with
  | apply h => exact Nat.le_refl 8
  | access h => exact h.tightness_eq ▸ Nat.le_succ 8

theorem Binary.le_tightness {least : Nat} (h : Binary least ts e) (hle : least ≤ 8) :
    least ≤ e.tightness := by
  cases h with
  | unary h => exact Nat.le_trans hle h.le_tightness
  | join hop _ _ => exact hop

/-! Conversely, a tree that holds tightly enough is a phrase of the tighter kind. -/

theorem Expression.binary (h : Expression ts e) (he : 0 < e.tightness) : Binary 1 ts e := by
  cases h with
  | plain h => exact h
  | ternary _ _ _ => exact absurd he (Nat.lt_irrefl 0)

theorem Binary.tighter {least least' : Nat} (h : Binary least ts e) (he : least' ≤ e.tightness) :
    Binary least' ts e := by
  cases h with
  | unary h => exact .unary h
  | join _ hl hr => exact .join he hl hr

theorem Binary.toUnary {least : Nat} (h : Binary least ts e) (he : 8 ≤ e.tightness) :
    Unary ts e := by
  cases h with
  | unary h => exact h
  | @join _ op _ _ _ _ _ _ _ =>
    have hop := op.band_le
    rw [Expr.tightness] at he
    omega

theorem Unary.toAccess (h : Unary ts e) (he : e.tightness = 9) : Access ts e := by
  cases h with
  | apply _ => nomatch he
  | access h => exact h

end Tightness

/-! ### Phrases have licensed roots -/

section Licensed

variable {ts : List Token} {e : Expr}

theorem Operand.licensed (h : Operand ts e) (hts : ∀ t ∈ ts, t.Readable) : e.Licensed := by
  cases h with
  | number value => exact Token.readable_number_iff.1 (hts _ (by simp))
  | identifier name => exact Token.readable_identifier_iff.1 (hts _ (by simp))
  | _ => exact trivial

theorem Access.licensed (h : Access ts e) (hts : ∀ t ∈ ts, t.Readable) : e.Licensed := by
  cases h with
  | operand h => exact h.licensed hts
  | getter h =>
    exact ⟨h.tightness_eq, Token.readable_identifier_iff.1 (hts _ (by simp))⟩
  | @method _ _ _ name _ h _ =>
    have hname : (Token.identifier name).Readable := hts _ (by simp)
    exact ⟨h.tightness_eq, rfl, Token.readable_identifier_iff.1 hname⟩
  | call h hgetter _ => exact ⟨h.tightness_eq, rfl, hgetter⟩
  | index h _ => exact h.tightness_eq

theorem Unary.licensed (h : Unary ts e) (hts : ∀ t ∈ ts, t.Readable) : e.Licensed := by
  cases h with
  | apply h => exact h.le_tightness
  | access h => exact h.licensed hts

theorem Binary.licensed {least : Nat} (h : Binary least ts e) (hts : ∀ t ∈ ts, t.Readable) :
    e.Licensed := by
  cases h with
  | unary h => exact h.licensed hts
  | @join _ op _ _ _ _ _ hl hr =>
    have hop := op.band_le
    exact ⟨hl.le_tightness (by omega), hr.le_tightness (by omega)⟩

theorem Expression.licensed (h : Expression ts e) (hts : ∀ t ∈ ts, t.Readable) : e.Licensed := by
  cases h with
  | plain h => exact h.licensed hts
  | ternary hc _ _ => exact hc.le_tightness (by decide)

/-- Every node of an expression has its licence. -/
theorem Expression.wellFormed (h : Expression ts e) (hts : ∀ t ∈ ts, t.Readable) :
    e.WellFormed := by
  intro a ha
  obtain ⟨us, hus, hsub⟩ := h.occurs ha
  exact hus.licensed fun t ht => hts t (hsub ht)

end Licensed

/-! ### Licensed trees are expressions -/

/-- Some tokens that can be read are a phrase. -/
def Derivable (phrase : List Token → Prop) : Prop :=
  ∃ ts, phrase ts ∧ ∀ t ∈ ts, t.Readable

theorem Derivable.imp {phrase phrase' : List Token → Prop} (h : Derivable phrase)
    (himp : ∀ ts, phrase ts → phrase' ts) : Derivable phrase' :=
  Exists.imp (fun ts => And.imp_left (himp ts)) h

/-- Nothing at all, before or behind a symbol. -/
theorem derivable_nil : Derivable (· = []) :=
  ⟨[], rfl, nofun⟩

/-- Two phrases with a symbol between them. -/
theorem Derivable.joined {phrase phrase' phrase'' : List Token → Prop} (s : Symbol)
    (hjoin : ∀ ts us, phrase ts → phrase' us → phrase'' (ts ++ .symbol s :: us))
    (h : Derivable phrase) (h' : Derivable phrase') : Derivable phrase'' := by
  obtain ⟨ts, hphrase, hts⟩ := h
  obtain ⟨us, hphrase', hus⟩ := h'
  refine ⟨_, hjoin ts us hphrase hphrase', ?_⟩
  exact List.forall_mem_append.2 ⟨hts, List.forall_mem_cons.2 ⟨Token.readable_symbol s, hus⟩⟩

/-- A phrase between two symbols, behind another phrase. -/
theorem Derivable.grouped {phrase phrase' phrase'' : List Token → Prop} (opening closing : Symbol)
    (hgroup : ∀ ts us, phrase ts → phrase' us →
      phrase'' (ts ++ .symbol opening :: (us ++ [.symbol closing])))
    (h : Derivable phrase) (h' : Derivable phrase') : Derivable phrase'' := by
  have hclosed : Derivable fun us => ∃ vs, phrase' vs ∧ us = vs ++ [.symbol closing] := by
    refine h'.joined closing ?_ derivable_nil
    rintro vs _ hvs rfl
    exact ⟨vs, hvs, rfl⟩
  refine h.joined opening ?_ hclosed
  rintro ts _ hts ⟨vs, hvs, rfl⟩
  exact hgroup ts vs hts hvs

/-! Phrases of the looser kinds, for operands that hold tightly enough. -/

section Operands

variable {e : Expr}

theorem Derivable.operand {t : Token} (ht : t.Readable) (h : Operand [t] e) :
    Derivable (Expression · e) :=
  ⟨[t], .plain (.unary (.access (.operand h))), by simpa using ht⟩

theorem Derivable.binary {least : Nat} (h : Derivable (Expression · e))
    (he : least ≤ e.tightness) (hpos : 0 < e.tightness) : Derivable (Binary least · e) :=
  h.imp fun _ hts => (hts.binary hpos).tighter he

theorem Derivable.unary (h : Derivable (Expression · e)) (he : 8 ≤ e.tightness) :
    Derivable (Unary · e) :=
  h.imp fun _ hts => (hts.binary (by omega)).toUnary he

theorem Derivable.access (h : Derivable (Expression · e)) (he : e.tightness = 9) :
    Derivable (Access · e) :=
  (h.unary (by omega)).imp fun _ hts => hts.toAccess he

theorem Derivable.of_access (h : Derivable (Access · e)) : Derivable (Expression · e) :=
  h.imp fun _ hts => .plain (.unary (.access hts))

end Operands

/-! Lists of phrases. -/

theorem derivable_arguments {args : List Expr}
    (h : ∀ a ∈ args, Derivable (Expression · a)) : Derivable (Arguments · args) := by
  induction args with
  | nil => exact ⟨[], .empty, nofun⟩
  | cons a args ih =>
    have ha := h a (by simp)
    cases args with
    | nil => exact ha.imp fun _ hts => .list (.last hts)
    | cons b args =>
      refine ha.joined .comma (fun ts us hts hus => ?_) (ih fun b hb => h b (by simp [hb]))
      cases hus with
      | list hus => exact .list (.more hts hus)

/-- With a comma behind every item, a hole at the end is an item too. -/
theorem derivable_items {items : List (Option Expr)}
    (h : ∀ a, some a ∈ items → Derivable (Expression · a)) : Derivable (Items · items) := by
  induction items with
  | nil => exact ⟨[], .nil, nofun⟩
  | cons item items ih =>
    have hitems := ih fun a ha => h a (by simp [ha])
    cases item with
    | none =>
      refine derivable_nil.joined .comma ?_ hitems
      rintro _ us rfl hus
      exact .hole hus
    | some a => exact (h a (by simp)).joined .comma (fun _ _ => .item) hitems

/-- Any key can be written as a string. -/
theorem derivable_entry (key : String) {value : Option Expr}
    (h : ∀ a, value = some a → Derivable (Expression · a)) : Derivable (Entry · (key, value)) := by
  cases value with
  | none => exact ⟨_, .key (.inr rfl), by simp⟩
  | some a =>
    obtain ⟨ts, ha, hts⟩ := h a rfl
    exact ⟨_, .value (.inr rfl) ha, by simpa using hts⟩

theorem derivable_entries {entries : List (String × Option Expr)}
    (h : ∀ key a, (key, some a) ∈ entries → Derivable (Expression · a)) :
    Derivable (Entries · entries) := by
  induction entries with
  | nil => exact ⟨[], .nil, nofun⟩
  | cons entry entries ih =>
    obtain ⟨key, value⟩ := entry
    have hentry : Derivable (Entry · (key, value)) :=
      derivable_entry key fun a ha => h key a (by simp [ha])
    have hentries := ih fun key a ha => h key a (by simp [ha])
    exact hentry.joined .comma (fun _ _ => .entry) hentries

/-- **Well-formed trees are expressions.** -/
theorem derivable_expression {e : Expr} (h : e.WellFormed) : Derivable (Expression · e) := by
  induction e with
  | empty => exact h.root.elim
  | literal value =>
    cases value with
    | number value => exact .operand (Token.readable_number_iff.2 h.root) (.number value)
    | string value => exact .operand (Token.readable_string value) (.string value)
    | boolean value => exact .operand (Token.readable_boolean value) (.boolean value)
    | null => exact .operand Token.readable_null .null
  | identifier name => exact .operand (Token.readable_identifier_iff.2 h.root) (.identifier name)
  | unary op a ih =>
    have ha := (ih (h.operand (by simp [Expr.toNode, Node.operands]))).unary h.root
    refine derivable_nil.joined op.symbol ?_ ha
    rintro _ ts rfl hts
    exact .plain (.unary (.apply hts))
  | binary op a b iha ihb =>
    obtain ⟨hleft, hright⟩ := h.root
    have hop := op.one_le_band
    have ha := iha (h.operand (by simp [Expr.toNode, Node.operands]))
    have hb := ihb (h.operand (by simp [Expr.toNode, Node.operands]))
    refine (ha.binary hleft (by omega)).joined op.symbol ?_ (hb.binary hright (by omega))
    exact fun ts us hts hus => .plain (.join hop hts hus)
  | getter a name ih =>
    obtain ⟨htight, hname⟩ := h.root
    have ha := (ih (h.operand (by simp [Expr.toNode, Node.operands]))).access htight
    have hword : Derivable (· = [Token.identifier name]) :=
      ⟨_, rfl, by simpa using Token.readable_identifier_iff.2 hname⟩
    refine (ha.joined .dot ?_ hword).of_access
    rintro ts _ hts rfl
    exact .getter hts
  | invoke a method args iha ihargs =>
    have ha := iha (h.operand (by simp [Expr.toNode, Node.operands]))
    obtain ⟨args, rfl⟩ : ∃ list, args = some list := by
      cases method <;> exact Option.isSome_iff_exists.1 h.root.2.1
    have hargs := derivable_arguments fun b hb =>
      ihargs b hb (h.operand (by simpa [Expr.toNode, Node.operands] using .inr hb))
    cases method with
    | none =>
      obtain ⟨htight, -, hgetter⟩ := h.root
      refine ((ha.access htight).grouped .parenOpen .parenClose ?_ hargs).of_access
      exact fun ts us hts hus => .call hts hgetter hus
    | some name =>
      obtain ⟨htight, -, hname⟩ := h.root
      have hword : Derivable (· = [Token.identifier name]) :=
        ⟨_, rfl, by simpa using Token.readable_identifier_iff.2 hname⟩
      have hcall : Derivable fun ts => ∃ us, Arguments us args ∧
          ts = .identifier name :: .symbol .parenOpen :: (us ++ [.symbol .parenClose]) := by
        refine hword.grouped .parenOpen .parenClose ?_ hargs
        rintro _ us rfl hus
        exact ⟨us, hus, rfl⟩
      refine ((ha.access htight).joined .dot ?_ hcall).of_access
      rintro ts _ hts ⟨us, hus, rfl⟩
      exact .method hts hus
  | paren a ih =>
    have ha := ih (h.operand (by simp [Expr.toNode, Node.operands]))
    refine (derivable_nil.grouped .parenOpen .parenClose ?_ ha).of_access
    rintro _ ts rfl hts
    exact .operand (.paren hts)
  | index a b iha ihb =>
    have ha := (iha (h.operand (by simp [Expr.toNode, Node.operands]))).access h.root
    have hb := ihb (h.operand (by simp [Expr.toNode, Node.operands]))
    exact (ha.grouped .bracketOpen .bracketClose (fun _ _ => .index) hb).of_access
  | ternary a b c iha ihb ihc =>
    have hpos : 0 < a.tightness := h.root
    have ha := (iha (h.operand (by simp [Expr.toNode, Node.operands]))).binary hpos hpos
    have hb := ihb (h.operand (by simp [Expr.toNode, Node.operands]))
    have hc := ihc (h.operand (by simp [Expr.toNode, Node.operands]))
    have hbranches : Derivable fun ts => ∃ us vs, Expression us b ∧ Expression vs c ∧
        ts = us ++ .symbol .colon :: vs :=
      hb.joined .colon (fun us vs hus hvs => ⟨us, vs, hus, hvs, rfl⟩) hc
    refine ha.joined .question ?_ hbranches
    rintro ts _ hts ⟨us, vs, hus, hvs, rfl⟩
    exact .ternary hts hus hvs
  | map entries ih =>
    have hentries := derivable_entries fun key a ha =>
      ih key a ha (h.operand (by simpa [Expr.toNode, Node.operands] using ⟨key, ha⟩))
    refine (derivable_nil.grouped .braceOpen .braceClose ?_ hentries).of_access
    rintro _ ts rfl hts
    exact .operand (.map hts)
  | list items ih =>
    have hitems := derivable_items fun a ha =>
      ih a ha (h.operand (by simpa [Expr.toNode, Node.operands] using ha))
    refine (derivable_nil.grouped .bracketOpen .bracketClose ?_ hitems).of_access
    rintro _ ts rfl hts
    exact .operand (.list hts)

end Phrase

namespace Expr

/-- The trees of sources are well-formed, or empty. -/
theorem wellFormed_of_parseWithin {allowance : Option Allowance} {source : String} {e : Expr}
    (h : parseWithin allowance source = .ok e) : e = .empty ∨ e.WellFormed := by
  obtain ⟨ts, hts, ⟨-, rfl⟩ | he, -⟩ := parseWithin_eq_ok_iff.1 h
  · exact .inl rfl
  · exact .inr (he.wellFormed (readable_of_tokens hts))

/-- **The trees that parsing gives.**  Some source has the tree if and only if the tree is the empty
one, of blank sources, or every node of it is licensed. -/
theorem exists_parseWithin_iff_wellFormed (e : Expr) :
    (∃ source, parseWithin none source = .ok e) ↔ e = .empty ∨ e.WellFormed := by
  constructor
  · rintro ⟨source, h⟩
    exact wellFormed_of_parseWithin h
  · rintro (rfl | he)
    · obtain ⟨source, hsource⟩ := @exists_tokens_eq [] nofun
      exact ⟨source, parseWithin_eq_ok_iff.2 ⟨[], hsource, .inl ⟨rfl, rfl⟩, nofun⟩⟩
    · obtain ⟨ts, hexpression, hts⟩ := Phrase.derivable_expression he
      obtain ⟨source, hsource⟩ := exists_tokens_eq hts
      exact ⟨source, parseWithin_eq_ok_iff.2 ⟨ts, hsource, .inr hexpression, nofun⟩⟩

end Expr

end Binding
