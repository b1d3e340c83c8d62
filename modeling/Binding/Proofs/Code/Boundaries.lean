import Binding.Code.Context
import Binding.Proofs.Code.Layout
import Mathlib.Data.List.Chain

/-!
# Where JavaScript would cut generated code differently

Generated code is read here as it is read by the lexer of this library.  JavaScript has longer
words in three places: it takes two signs for an increment or a decrement, it takes the point behind
an integer into the number, and it does not let a string run over the end of a line.  The rules of
the generated code leave all three open: an operator before its operand is written without a space,
a member directly behind its receiver, and in a string only quotes and backslashes are escaped.

The theorem of this module says for which trees that matters.  Each of the three happens exactly
where the tree has one particular pair of nodes, or a text with a line end in it.

The first two are about neighbours in a list of pieces, and the neighbours inside a layout are
nearly all harmless: a space, a comma or a bracket stands between them.  `isChain_layout_iff` says
so once for any relation between neighbours, and leaves the operator with its operand and the member
with its receiver.

## Main results

* `Expr.isChain_layout_iff`: the neighbours in a layout, node by node.
* `Expr.boundaries_render_iff`: where the code of a tree is cut differently.
-/

namespace Binding

open Scan Layout

/-! ### What JavaScript reads differently -/

/-- The characters of the piece, with nothing in the place of each character of a string. -/
def Piece.outside : Piece → List (Option Char)
  | .word (.string _) text => text.map fun _ => none
  | p => p.chars.map some

/-- The code outside its string literals. -/
def outsideStrings (code : String) : List (Option Char) :=
  (pieces code.toList).flatMap Piece.outside

/-- Two equal signs stand side by side outside the string literals. -/
def DoublesSign (code : String) : Prop :=
  ∃ c, (c = '+' ∨ c = '-') ∧ [some c, some c] <:+: outsideStrings code

/-- A point stands directly behind a number literal without a fraction. -/
def PointsInteger (code : String) : Prop :=
  ∃ value text p, [.word (.number value) text, p] <:+: pieces code.toList ∧ '.' ∉ text ∧
    p.chars.head? = some '.'

/-- A string literal runs over the end of a line. -/
def BreaksString (code : String) : Prop :=
  ∃ value text, .word (.string value) text ∈ pieces code.toList ∧ ('\n' ∈ text ∨ '\r' ∈ text)

/-! ### Neighbours -/

/-- Every neighbour of the piece, before it or behind it, is in the relation. -/
def Quiet (R : Piece → Piece → Prop) (p : Piece) : Prop :=
  ∀ q, R p q ∧ R q p

/-- The relation asks for something only of numbers, points and signs. -/
structure Mild (R : Piece → Piece → Prop) : Prop where
  space : Quiet R .space
  mark : ∀ s ∈ Symbol.punctuation, Quiet R (.symbol s)
  dot : ∀ name, R (.symbol .dot) (.name name)
  name : ∀ name p, R (.name name) p

section Chains

variable {R : Piece → Piece → Prop} {p : Piece} {ps qs : List Piece}

/-- A quiet piece keeps what stands before it apart from what stands behind it. -/
theorem Quiet.isChain_iff (h : Quiet R p) :
    (ps ++ p :: qs).IsChain R ↔ ps.IsChain R ∧ qs.IsChain R := by
  rw [List.isChain_append, List.isChain_cons]
  constructor
  · rintro ⟨hps, ⟨-, hqs⟩, -⟩
    exact ⟨hps, hqs⟩
  · rintro ⟨hps, hqs⟩
    refine ⟨hps, ⟨fun q _ => (h q).1, hqs⟩, fun q _ q' hq' => ?_⟩
    obtain rfl : p = q' := by simpa using hq'
    exact (h q).2

namespace Mild

variable (hR : Mild R)

include hR

theorem isChain_grouped_iff {opening closing : Symbol} (ho : opening ∈ Symbol.punctuation)
    (hc : closing ∈ Symbol.punctuation) :
    (ps ++ grouped opening closing qs).IsChain R ↔ ps.IsChain R ∧ qs.IsChain R := by
  rw [grouped, (hR.mark opening ho).isChain_iff, (hR.mark closing hc).isChain_iff]
  simp

theorem isChain_enclosed_iff {opening closing : Symbol} (ho : opening ∈ Symbol.punctuation)
    (hc : closing ∈ Symbol.punctuation) :
    (grouped opening closing qs).IsChain R ↔ qs.IsChain R := by
  have hgrouped := @isChain_grouped_iff R [] qs hR opening closing ho hc
  simpa using hgrouped

theorem isChain_spaced_iff (s : Symbol) :
    (ps ++ spaced s qs).IsChain R ↔ ps.IsChain R ∧ qs.IsChain R := by
  rw [spaced, hR.space.isChain_iff, ← List.singleton_append, hR.space.isChain_iff]
  simp

theorem isChain_member_iff (name : String) :
    (ps ++ member name).IsChain R ↔ ps.IsChain R ∧ ∀ p ∈ ps.getLast?, R p (.symbol .dot) := by
  simp [member, List.isChain_append, hR.dot]

/-- A comma keeps the lists apart. -/
theorem isChain_intercalate_iff {separator : List Piece}
    (hseparator : separator = [.symbol .comma] ∨ separator = [.symbol .comma, .space])
    {layouts : List (List Piece)} :
    (separator.intercalate layouts).IsChain R ↔ ∀ ps ∈ layouts, ps.IsChain R := by
  have hcomma := hR.mark .comma (by decide)
  have hspace (qs : List Piece) : (.space :: qs).IsChain R ↔ qs.IsChain R := by
    simpa using @Quiet.isChain_iff R .space [] qs hR.space
  induction layouts with
  | nil => simp [List.intercalate]
  | cons ps layouts ih =>
    cases layouts with
    | nil => simp
    | cons qs layouts =>
      rw [List.intercalate_cons_cons, List.append_assoc, List.forall_mem_cons]
      rcases hseparator with rfl | rfl
      · exact hcomma.isChain_iff.trans (and_congr_right' ih)
      · exact hcomma.isChain_iff.trans (and_congr_right' ((hspace _).trans ih))

omit hR in
theorem isChain_orNull_iff {value : Option (List Piece)} :
    (orNull value).IsChain R ↔ ∀ ps, value = some ps → ps.IsChain R := by
  cases value <;> simp [orNull]

theorem isChain_entry_iff {pair : String × Option (List Piece)} :
    (entry pair).IsChain R ↔ ∀ ps, pair.2 = some ps → ps.IsChain R := by
  have hcolon := @Quiet.isChain_iff R _ [.literal (.string pair.1)] (.space :: orNull pair.2)
    (hR.mark .colon (by decide))
  have hspace := @Quiet.isChain_iff R _ [] (orNull pair.2) hR.space
  rw [← isChain_orNull_iff]
  simp_all [entry]

end Mild

end Chains

namespace Expr

/-- The layouts of values that may be missing are those of the operands. -/
theorem forall_value_iff {β : Type} {P : List Piece → Prop} (context : List Piece)
    (value : β → Option Expr) (items : List β) :
    (∀ b ∈ items, ∀ ps, (value b).map (layout context) = some ps → P ps) ↔
      ∀ a ∈ items.filterMap value, P (a.layout context) := by
  simp only [Option.map_eq_some_iff, List.mem_filterMap]
  constructor
  · rintro h a ⟨b, hb, ha⟩
    exact h b hb _ ⟨a, ha, rfl⟩
  · rintro h b hb _ ⟨a, ha, rfl⟩
    exact h a ⟨b, hb, ha⟩

/-- The root of the tree puts a symbol directly beside an operand, and they are in the relation. -/
def Joint (R : Piece → Piece → Prop) (context : List Piece) : Expr → Prop
  | .unary op operand => ∀ p ∈ (operand.layout context).head?, R (.symbol op.symbol) p
  | .getter receiver _ => ∀ p ∈ (receiver.layout context).getLast?, R p (.symbol .dot)
  | .invoke receiver (some _) _ =>
    ∀ p ∈ (receiver.layout context).getLast?, R p (.symbol .dot)
  | _ => True

/-- **Neighbours in a layout.** -/
theorem isChain_layout_iff {R : Piece → Piece → Prop} (hR : Mild R) (name : String) (e : Expr) :
    (e.layout [.name name]).IsChain R ↔ e.Everywhere (Joint R [.name name]) := by
  refine iff_everywhere (Q := fun e => (e.layout [.name name]).IsChain R) (fun e => ?_) e
  rw [layout_eq]
  cases e with
  | empty => simp [toNode, Node.mapOperands, Node.layout, Node.operands, Joint]
  | literal value => simp [toNode, Node.mapOperands, Node.layout, Node.operands, Joint]
  | identifier word =>
    simp only [toNode, Node.mapOperands, Node.layout, Node.operands, Joint]
    split
    · simp
    · rw [hR.isChain_member_iff]
      simp [hR.name]
  | unary op a =>
    simp [toNode, Node.mapOperands, Node.layout, Node.operands, Joint, List.isChain_cons]
  | binary op a b =>
    simp only [toNode, Node.mapOperands, Node.layout, Node.operands, Joint]
    split
    · rw [hR.isChain_grouped_iff (by decide) (by decide)]
      simp [and_comm]
    · rw [hR.isChain_spaced_iff]
      simp
  | getter a word =>
    simp [toNode, Node.mapOperands, Node.layout, Node.operands, Joint, hR.isChain_member_iff,
      and_comm]
  | invoke a method args =>
    have hargs : ([.symbol .comma].intercalate
        ((args.map (·.map (layout [.name name]))).getD [])).IsChain R ↔
        ∀ b ∈ args.getD [], (b.layout [.name name]).IsChain R := by
      rw [hR.isChain_intercalate_iff (.inl rfl)]
      cases args <;> simp
    simp only [toNode, Node.mapOperands, Node.layout, Node.operands]
    rw [hR.isChain_grouped_iff (by decide) (by decide), hargs, List.forall_mem_cons]
    cases method with
    | none => simp [Joint]
    | some word =>
      rw [Option.elim_some, hR.isChain_member_iff, Joint, and_assoc]
      exact and_left_comm
  | paren a =>
    simp only [toNode, Node.mapOperands, Node.layout, Node.operands, Joint]
    rw [hR.isChain_enclosed_iff (by decide) (by decide)]
    simp
  | index a b =>
    simp only [toNode, Node.mapOperands, Node.layout, Node.operands, Joint]
    rw [hR.isChain_grouped_iff (by decide) (by decide)]
    simp
  | ternary a b c =>
    simp [toNode, Node.mapOperands, Node.layout, Node.operands, Joint, hR.isChain_spaced_iff]
  | map entries =>
    simp only [toNode, Node.mapOperands, Node.layout, Node.operands, Joint]
    rw [hR.isChain_enclosed_iff (by decide) (by decide), hR.isChain_intercalate_iff (.inr rfl)]
    simp only [List.forall_mem_map, hR.isChain_entry_iff, true_and]
    exact forall_value_iff _ _ entries
  | list items =>
    simp only [toNode, Node.mapOperands, Node.layout, Node.operands, Joint]
    rw [hR.isChain_enclosed_iff (by decide) (by decide), hR.isChain_intercalate_iff (.inr rfl)]
    simp only [List.forall_mem_map, Mild.isChain_orNull_iff, true_and]
    exact forall_value_iff _ id items

end Expr

/-! ### Signs -/

/-- The pieces are not the same sign twice. -/
def SignsApart (p q : Piece) : Prop :=
  ¬∃ s ∈ [Symbol.plus, .minus], p = .symbol s ∧ q = .symbol s

theorem Piece.symbol_injective {s t : Symbol} (h : Piece.symbol s = .symbol t) : s = t :=
  Token.symbol.inj (Piece.word.inj h).1

theorem mild_signsApart : Mild SignsApart where
  space q := by
    constructor
    · rintro ⟨s, -, h, -⟩
      nomatch h
    · rintro ⟨s, -, -, h⟩
      nomatch h
  mark s hs q := by
    have hsign : ∀ s ∈ Symbol.punctuation, s ∉ [Symbol.plus, .minus] := by decide
    constructor
    · rintro ⟨t, ht, h, -⟩
      exact hsign s hs (Piece.symbol_injective h ▸ ht)
    · rintro ⟨t, ht, -, h⟩
      exact hsign s hs (Piece.symbol_injective h ▸ ht)
  dot name := by
    rintro ⟨s, -, -, h⟩
    nomatch h
  name name q := by
    rintro ⟨s, -, h, -⟩
    nomatch h

theorem Number.mem_joined {whole fraction : List Char} {c : Char} (h : c ∈ joined whole fraction) :
    c ∈ whole ∨ c = '.' ∨ c ∈ fraction := by
  cases fraction with
  | nil => exact .inl h
  | cons d fraction => simpa [joined] using h

/-- A sign outside a string is a word of its own. -/
theorem Scan.eq_symbol_of_sign {text word rest : List Char} {t : Token} {c : Char}
    (h : scan text = .found t word rest) (hstring : ∀ value, t ≠ .string value) (hc : c ∈ word)
    (hsign : c = '+' ∨ c = '-') :
    ∃ s ∈ [Symbol.plus, .minus], Piece.word t word = .symbol s ∧ s.chars = [c] := by
  cases text with
  | nil => nomatch h
  | cons d text =>
    obtain ⟨-, -, hword⟩ | ⟨-, ⟨-, _, -, ht, -⟩ | ⟨-, -, hword, -⟩ | ⟨-, s, -, ht, hword, -⟩⟩ :=
      found_cases h
    · -- A number has digits and a point.
      obtain ⟨whole, fraction, hjoined, hwhole, hfraction, -⟩ :=
        exists_splitNumber_eq_joined (d :: text)
      have hdigit : c.isDigit = false ∧ c ≠ '.' := by
        rcases hsign with rfl | rfl <;> decide
      rw [← hword] at hjoined
      rw [show word = _ from hjoined] at hc
      rcases Number.mem_joined hc with hc | hc | hc
      · simp [hwhole c hc] at hdigit
      · exact absurd hc hdigit.2
      · simp [hfraction c hc] at hdigit
    · exact absurd ht (hstring _)
    · -- A name goes on with other characters only.
      have hpart : isNamePart c = false := by
        rcases hsign with rfl | rfl <;> decide
      rw [hword] at hc
      have hall := List.all_eq_true.1 (@List.all_takeWhile _ isNamePart (d :: text)) c hc
      simp [hall] at hpart
    · subst ht hword
      have hsymbol : s ∈ [Symbol.plus, .minus] ∧ s.chars = [c] := by
        rcases hsign with rfl | rfl
        · revert hc
          cases s <;> decide
        · revert hc
          cases s <;> decide
      exact ⟨s, hsymbol.1, rfl, hsymbol.2⟩

/-- A sign among the characters outside the strings is a piece of its own. -/
theorem Piece.eq_symbol_of_outside {text : List Char} {p : Piece} {c : Char} (hp : p ∈ pieces text)
    (hc : some c ∈ p.outside) (hsign : c = '+' ∨ c = '-') :
    ∃ s ∈ [Symbol.plus, .minus], p = .symbol s ∧ s.chars = [c] := by
  cases p with
  | blank d =>
    obtain rfl : c = d := by simpa [outside, chars] using hc
    have hblank := isWhiteSpace_of_mem_pieces hp
    have hsolid : Unicode.isWhiteSpace c = false := by
      rcases hsign with rfl | rfl <;> decide
    simp [hsolid] at hblank
  | word t word =>
    obtain ⟨text', rest, hscan⟩ := scan_of_mem_pieces hp
    have hstring : ∀ value, t ≠ .string value := by
      rintro value rfl
      simp [outside] at hc
    have hword : c ∈ word := by
      cases t <;> first | exact absurd rfl (hstring _) | simpa [outside, chars] using hc
    exact eq_symbol_of_sign hscan hstring hword hsign

theorem Piece.outside_ne_nil {text : List Char} {p : Piece} (hp : p ∈ pieces text) :
    p.outside ≠ [] := by
  cases p with
  | blank c => simp [outside, chars]
  | word t word =>
    obtain ⟨text', rest, hscan⟩ := scan_of_mem_pieces hp
    have hword := ne_nil_of_scan hscan
    cases t <;> simpa [outside, chars] using hword

/-- The characters are not the same sign twice. -/
def Undoubled (x y : Option Char) : Prop :=
  ∀ c, c = '+' ∨ c = '-' → ¬(x = some c ∧ y = some c)

theorem doublesSign_iff (code : String) :
    DoublesSign code ↔ ¬(outsideStrings code).IsChain Undoubled := by
  rw [List.isChain_iff_forall_rel_of_append_cons_cons]
  constructor
  · rintro ⟨c, hc, before, behind, heq⟩ h
    rw [List.append_assoc] at heq
    exact h heq.symm c hc ⟨rfl, rfl⟩
  · intro h
    simp only [Undoubled, not_forall, not_not] at h
    obtain ⟨x, y, before, behind, heq, c, hc, rfl, rfl⟩ := h
    exact ⟨c, hc, before, behind, by rw [heq, List.append_assoc]; rfl⟩

/-- One piece does not hold two signs. -/
theorem Piece.isChain_outside {text : List Char} {p : Piece} (hp : p ∈ pieces text) :
    p.outside.IsChain Undoubled := by
  rw [List.isChain_iff_forall_rel_of_append_cons_cons]
  rintro x y before behind heq c hc ⟨rfl, rfl⟩
  obtain ⟨s, -, rfl, hchars⟩ := eq_symbol_of_outside hp (by simp [heq]) hc
  have hlength := congrArg List.length heq
  simp [symbol, outside, chars, hchars] at hlength
  omega

/-- **Signs stand apart in a text** if and only if they do in its pieces. -/
theorem isChain_outside_iff {text : List Char} {ps : List Piece} (h : ∀ p ∈ ps, p ∈ pieces text) :
    (ps.flatMap Piece.outside).IsChain Undoubled ↔ ps.IsChain SignsApart := by
  constructor
  · intro hchain
    rw [List.isChain_iff_forall_rel_of_append_cons_cons]
    rintro p q before behind rfl ⟨s, hs, rfl, rfl⟩
    obtain ⟨c, hc, hchars⟩ : ∃ c, (c = '+' ∨ c = '-') ∧ s.chars = [c] := by
      rcases List.mem_pair.1 hs with rfl | rfl
      · exact ⟨'+', .inl rfl, rfl⟩
      · exact ⟨'-', .inr rfl, rfl⟩
    have houtside : (Piece.symbol s).outside = [some c] := by
      simp [Piece.symbol, Piece.outside, Piece.chars, hchars]
    rw [List.flatMap_append, List.flatMap_cons, List.flatMap_cons, houtside] at hchain
    exact (List.isChain_append_cons_cons.1 hchain).2.1 c hc ⟨rfl, rfl⟩
  · intro hchain
    induction ps with
    | nil => exact .nil
    | cons p ps ih =>
      obtain ⟨hp, hps⟩ := List.forall_mem_cons.1 h
      rw [List.flatMap_cons]
      refine (Piece.isChain_outside hp).append (ih hps hchain.tail) ?_
      rintro x hx y hy c hc ⟨rfl, rfl⟩
      cases ps with
      | nil => simp at hy
      | cons q ps =>
        -- The first character behind the piece is the first one of the next piece.
        have hq : q ∈ pieces text := hps q (by simp)
        rw [List.flatMap_cons, List.head?_append_of_ne_nil _ (Piece.outside_ne_nil hq)] at hy
        obtain ⟨s, hs, rfl, hchars⟩ :=
          Piece.eq_symbol_of_outside hp (List.mem_of_getLast? hx) hc
        obtain ⟨t, -, rfl, hchars'⟩ := Piece.eq_symbol_of_outside hq (List.mem_of_head? hy) hc
        obtain rfl := Symbol.chars_injective (hchars.trans hchars'.symm)
        exact hchain.rel ⟨s, hs, rfl, rfl⟩

/-- The pieces do not begin with a sign. -/
def Unsigned (ps : List Piece) : Prop :=
  ∀ p ∈ ps.head?, ∀ s ∈ [Symbol.plus, .minus], p ≠ .symbol s

theorem Unsigned.append {ps qs : List Piece} (hps : Unsigned ps) (hqs : Unsigned qs) :
    Unsigned (ps ++ qs) := by
  cases ps with
  | nil => exact hqs
  | cons p ps => exact hps

theorem unsigned_symbol {s : Symbol} (h : s ∉ [Symbol.plus, .minus]) (ps : List Piece) :
    Unsigned (.symbol s :: ps) := by
  rintro _ ⟨⟩ t ht heq
  exact h (Piece.symbol_injective heq ▸ ht)

theorem unsigned_name (name : String) (ps : List Piece) : Unsigned (.name name :: ps) := by
  rintro _ ⟨⟩ s - heq
  nomatch heq

theorem unsigned_literal (value : Literal) (ps : List Piece) : Unsigned (.literal value :: ps) := by
  rintro _ ⟨⟩ s - heq
  cases value <;> nomatch heq

namespace Expr

variable {name : String} {e : Expr}

/-- What holds as tightly as can be does not begin with a sign, because an access begins with its
receiver. -/
theorem unsigned_layout (h : e.WellFormed) (htight : e.tightness = 9) :
    Unsigned (e.layout [.name name]) := by
  induction e with
  | empty => simp [tightness] at htight
  | literal value => exact unsigned_literal value []
  | identifier word =>
    rw [layout_eq]
    simp only [toNode, Node.mapOperands, Node.layout]
    split
    · exact unsigned_name name []
    · exact unsigned_name name _
  | unary op a => simp [tightness] at htight
  | binary op a b =>
    have hop := op.band_le
    rw [tightness] at htight
    omega
  | getter a word ih =>
    have ha := ih (h.operand (by simp [toNode, Node.operands])) h.root.1
    rw [layout_eq]
    exact ha.append (unsigned_symbol (by decide) _)
  | invoke a method args ih _ =>
    have htight : a.tightness = 9 := by
      cases method <;> exact h.root.1
    have ha := ih (h.operand (by simp [toNode, Node.operands])) htight
    rw [layout_eq]
    refine Unsigned.append (ha.append ?_) (unsigned_symbol (by decide) _)
    cases method with
    | none => simp [Unsigned]
    | some word => exact unsigned_symbol (by decide) _
  | paren a =>
    rw [layout_eq]
    exact unsigned_symbol (by decide) _
  | index a b ih _ =>
    have ha := ih (h.operand (by simp [toNode, Node.operands])) h.root
    rw [layout_eq]
    exact ha.append (unsigned_symbol (by decide) _)
  | ternary a b c => simp [tightness] at htight
  | map entries =>
    rw [layout_eq]
    exact unsigned_symbol (by decide) _
  | list items =>
    rw [layout_eq]
    exact unsigned_symbol (by decide) _

theorem eq_unary_or_tightness_eq (h : 8 ≤ e.tightness) :
    (∃ op a, e = .unary op a) ∨ e.tightness = 9 := by
  cases e with
  | empty => simp [tightness] at h
  | unary op a => exact .inl ⟨op, a, rfl⟩
  | binary op a b =>
    have hop := op.band_le
    rw [tightness] at h
    omega
  | ternary a b c => simp [tightness] at h
  | _ => exact .inr rfl

/-- A sign stands directly before the same sign. -/
def DoubledSign (e : Expr) : Prop :=
  ∃ op a, op ≠ .not ∧ e = .unary op (.unary op a)

/-- Where a sign is doubled at the root. -/
theorem joint_signsApart_iff (h : e.WellFormed) :
    Joint SignsApart [.name name] e ↔ ¬e.DoubledSign := by
  have hdot (p : Piece) : SignsApart p (.symbol .dot) := by
    rintro ⟨s, hs, -, heq⟩
    obtain rfl := Piece.symbol_injective heq
    exact absurd hs (by decide)
  cases e with
  | unary op a =>
    constructor
    · rintro hjoint ⟨op', b, hop, heq⟩
      obtain ⟨rfl, rfl⟩ := Expr.unary.inj heq
      refine hjoint (.symbol op.symbol) rfl ⟨op.symbol, ?_, rfl, rfl⟩
      cases op with
      | not => exact absurd rfl hop
      | _ => decide
    · rintro hsigns p hp ⟨s, hs, heq, rfl⟩
      obtain rfl := Piece.symbol_injective heq
      obtain ⟨op', b, rfl⟩ | htight := eq_unary_or_tightness_eq h.root
      · have hsymbol : op'.symbol = op.symbol := Piece.symbol_injective (Option.some.inj hp)
        have hop : op' = op := by
          cases op <;> cases op' <;> first | rfl | nomatch hsymbol
        refine hsigns ⟨op, b, ?_, by rw [hop]⟩
        rintro rfl
        exact absurd hs (by decide)
      · have ha := h.operand (a := a) (by simp [toNode, Node.operands])
        exact unsigned_layout ha htight _ hp _ hs rfl
  | getter a word => simp [Joint, DoubledSign, hdot]
  | invoke a method args => cases method <;> simp [Joint, DoubledSign, hdot]
  | _ => simp [Joint, DoubledSign]

end Expr

/-! ### Points behind integers -/

/-- The pieces are not an integer and something that begins with a point. -/
def PointApart (p q : Piece) : Prop :=
  (∃ value text, p = .word (.number value) text ∧ '.' ∉ text) → q.chars.head? ≠ some '.'

theorem mild_pointApart : Mild PointApart where
  space q := by
    constructor
    · rintro ⟨value, text, heq, -⟩
      nomatch heq
    · rintro - heq
      nomatch heq
  mark s hs q := by
    have hpoint : ∀ s ∈ Symbol.punctuation, s.chars.head? ≠ some '.' := by decide
    constructor
    · rintro ⟨value, text, heq, -⟩
      nomatch heq
    · rintro -
      exact hpoint s hs
  dot name := by
    rintro ⟨value, text, heq, -⟩
    nomatch heq
  name name q := by
    rintro ⟨value, text, heq, -⟩
    nomatch heq

theorem pointsInteger_iff (code : String) :
    PointsInteger code ↔ ¬(pieces code.toList).IsChain PointApart := by
  rw [List.isChain_iff_forall_rel_of_append_cons_cons]
  constructor
  · rintro ⟨value, text, p, ⟨before, behind, heq⟩, htext, hp⟩ h
    rw [List.append_assoc] at heq
    exact h heq.symm ⟨value, text, rfl, htext⟩ hp
  · intro h
    simp only [PointApart, not_forall, not_not] at h
    obtain ⟨_, q, before, behind, heq, ⟨value, text, rfl, htext⟩, hq⟩ := h
    exact ⟨value, text, q, ⟨before, behind, by rw [heq, List.append_assoc]; rfl⟩, htext, hq⟩

namespace Expr

variable {name : String} {e : Expr}

/-- A member of an integer is taken, or a method of it called. -/
def PointedInteger (e : Expr) : Prop :=
  ∃ value : Number, '.' ∉ value.text.toList ∧
    ((∃ name, e = .getter (.literal (.number value)) name) ∨
      ∃ name args, e = .invoke (.literal (.number value)) (some name) args)

/-- The last piece of what holds as tightly as can be, if it is no constant, is a closing bracket or
a name. -/
theorem exists_layout_eq_concat (htight : e.tightness = 9)
    (hliteral : ∀ value, e ≠ .literal value) :
    ∃ ps p, e.layout [.name name] = ps ++ [p] ∧ ∀ value text, p ≠ .word (.number value) text := by
  have hgrouped (opening closing : Symbol) (ps qs : List Piece) :
      ∃ rs p, ps ++ grouped opening closing qs = rs ++ [p] ∧
        ∀ value text, p ≠ .word (.number value) text :=
    ⟨ps ++ .symbol opening :: qs, .symbol closing, by simp [grouped], by simp [Piece.symbol]⟩
  have hmember (ps : List Piece) (word : String) :
      ∃ rs p, ps ++ member word = rs ++ [p] ∧ ∀ value text, p ≠ .word (.number value) text :=
    ⟨ps ++ [.symbol .dot], .name word, by simp [member], by simp [Piece.name]⟩
  rw [layout_eq]
  cases e with
  | empty => simp [tightness] at htight
  | literal value => exact absurd rfl (hliteral value)
  | identifier word =>
    simp only [toNode, Node.mapOperands, Node.layout]
    split
    · exact ⟨[], .name name, rfl, by simp [Piece.name]⟩
    · exact hmember _ word
  | unary op a => simp [tightness] at htight
  | binary op a b =>
    have hop := op.band_le
    rw [tightness] at htight
    omega
  | getter a word => exact hmember _ word
  | invoke a method args => exact hgrouped _ _ _ _
  | paren a => exact hgrouped _ _ [] _
  | index a b => exact hgrouped _ _ _ _
  | ternary a b c => simp [tightness] at htight
  | map entries => exact hgrouped _ _ [] _
  | list items => exact hgrouped _ _ [] _

theorem pointApart_getLast_iff (htight : e.tightness = 9) :
    (∀ p ∈ (e.layout [.name name]).getLast?, PointApart p (.symbol .dot)) ↔
      ¬∃ value : Number, e = .literal (.number value) ∧ '.' ∉ value.text.toList := by
  by_cases hliteral : ∃ value, e = .literal value
  · obtain ⟨value, rfl⟩ := hliteral
    cases value with
    | number value =>
      constructor
      · rintro h ⟨value', heq, hvalue⟩
        obtain rfl := Literal.number.inj (Expr.literal.inj heq)
        exact h (.literal (.number value)) rfl ⟨value, _, rfl, hvalue⟩ rfl
      · rintro h _ ⟨⟩ ⟨value', text, heq, hvalue⟩
        obtain ⟨-, rfl⟩ := Piece.word.inj heq
        exact absurd ⟨value, rfl, hvalue⟩ h
    | _ =>
      refine iff_of_true ?_ (by simp)
      rintro _ ⟨⟩ ⟨value', text, heq, -⟩
      nomatch heq
  · have hnone := not_exists.1 hliteral
    obtain ⟨ps, p, hlayout, hp⟩ := @exists_layout_eq_concat name e htight hnone
    refine iff_of_true ?_ fun ⟨value, heq, _⟩ => hnone _ heq
    rw [hlayout, List.getLast?_concat]
    rintro _ ⟨⟩ ⟨value, text, heq, -⟩
    exact absurd heq (hp value text)

/-- Where a point follows an integer at the root. -/
theorem joint_pointApart_iff (h : e.Licensed) :
    Joint PointApart [.name name] e ↔ ¬e.PointedInteger := by
  cases e with
  | unary op a =>
    refine iff_of_true ?_ (by simp [PointedInteger])
    rintro p - ⟨value, text, heq, -⟩
    nomatch heq
  | getter a word =>
    rw [Joint, pointApart_getLast_iff h.1]
    simp [PointedInteger, and_comm]
  | invoke a method args =>
    cases method with
    | none => simp [Joint, PointedInteger]
    | some word =>
      rw [Joint, pointApart_getLast_iff h.1]
      simp [PointedInteger, and_comm]
  | _ => simp [Joint, PointedInteger]

end Expr

/-! ### Ends of lines -/

/-- The text has the end of a line in it. -/
def HasLineEnd (text : List Char) : Prop :=
  '\n' ∈ text ∨ '\r' ∈ text

theorem hasLineEnd_doubleQuoted_iff (value : String) :
    HasLineEnd (Text.doubleQuoted value).toList ↔ HasLineEnd value.toList := by
  have hmem (c : Char) (hc : c ≠ '"' ∧ c ≠ '\\') (text : List Char) :
      c ∈ Text.escaped '"' text ↔ c ∈ text := by
    induction text with
    | nil => rfl
    | cons d text ih =>
      rw [Text.escaped]
      split <;> simp [ih, hc.2]
  rw [Text.toList_doubleQuoted, Text.quoted]
  simp [HasLineEnd, hmem]

/-- The piece is not a string that runs over the end of a line. -/
def Piece.Unbroken (p : Piece) : Prop :=
  ∀ value text, p = .word (.string value) text → ¬HasLineEnd text

theorem breaksString_iff (code : String) :
    BreaksString code ↔ ¬∀ p ∈ pieces code.toList, p.Unbroken := by
  simp only [BreaksString, Piece.Unbroken, HasLineEnd, not_forall, not_not, exists_prop]
  constructor
  · rintro ⟨value, text, hmem, htext⟩
    exact ⟨_, hmem, value, text, rfl, htext⟩
  · rintro ⟨_, hmem, value, text, rfl, htext⟩
    exact ⟨value, text, hmem, htext⟩

namespace Piece

@[simp] theorem unbroken_symbol (s : Symbol) : (symbol s).Unbroken :=
  nofun

@[simp] theorem unbroken_space : space.Unbroken :=
  nofun

@[simp] theorem unbroken_name (word : String) : (name word).Unbroken :=
  nofun

theorem unbroken_string_iff (value : String) :
    (literal (.string value)).Unbroken ↔ ¬HasLineEnd value.toList := by
  rw [← hasLineEnd_doubleQuoted_iff]
  constructor
  · exact fun h => h value _ rfl
  · rintro h _ _ heq
    exact (word.inj heq).2 ▸ h

end Piece

/-- What holds of the pieces of a separator holds of all pieces if it holds of those between. -/
theorem forall_mem_intercalate_iff {P : Piece → Prop} {separator : List Piece}
    (hseparator : ∀ p ∈ separator, P p) (layouts : List (List Piece)) :
    (∀ p ∈ separator.intercalate layouts, P p) ↔ ∀ ps ∈ layouts, ∀ p ∈ ps, P p := by
  induction layouts with
  | nil => simp [List.intercalate]
  | cons ps layouts ih =>
    cases layouts with
    | nil => simp
    | cons qs layouts =>
      rw [List.intercalate_cons_cons, List.forall_mem_append, List.forall_mem_append, ih,
        and_iff_left hseparator, List.forall_mem_cons (l := qs :: layouts)]

namespace Layout

theorem unbroken_member (word : String) : ∀ p ∈ member word, p.Unbroken := by
  simp [member]

theorem unbroken_spaced_iff (s : Symbol) (ps : List Piece) :
    (∀ p ∈ spaced s ps, p.Unbroken) ↔ ∀ p ∈ ps, p.Unbroken := by
  simp [spaced]

theorem unbroken_grouped_iff (opening closing : Symbol) (ps : List Piece) :
    (∀ p ∈ grouped opening closing ps, p.Unbroken) ↔ ∀ p ∈ ps, p.Unbroken := by
  rw [grouped, List.forall_mem_cons, List.forall_mem_append]
  simp

theorem unbroken_orNull_iff (value : Option (List Piece)) :
    (∀ p ∈ orNull value, p.Unbroken) ↔ ∀ ps, value = some ps → ∀ p ∈ ps, p.Unbroken := by
  cases value with
  | none => simp [orNull, Piece.Unbroken, Piece.literal]
  | some ps => simp [orNull]

theorem unbroken_entry_iff (pair : String × Option (List Piece)) :
    (∀ p ∈ entry pair, p.Unbroken) ↔ ¬HasLineEnd pair.1.toList ∧
      ∀ ps, pair.2 = some ps → ∀ p ∈ ps, p.Unbroken := by
  rw [← unbroken_orNull_iff, ← Piece.unbroken_string_iff, entry, List.forall_mem_cons,
    List.forall_mem_cons, List.forall_mem_cons]
  simp

end Layout

namespace Expr

variable {name : String}

/-- The root is a string with the end of a line in it, or a map with such a key. -/
def BrokenString (e : Expr) : Prop :=
  ∃ value : String, HasLineEnd value.toList ∧
    (e = .literal (.string value) ∨ ∃ entries, e = .map entries ∧ ∃ v, (value, v) ∈ entries)

/-- **Strings in a layout.** -/
theorem unbroken_layout_iff (e : Expr) :
    (∀ p ∈ e.layout [.name name], p.Unbroken) ↔ e.Everywhere fun a => ¬a.BrokenString := by
  have hcomma : ∀ p ∈ [Piece.symbol .comma, .space], p.Unbroken := by simp
  refine iff_everywhere (Q := fun e => ∀ p ∈ e.layout [.name name], p.Unbroken) (fun e => ?_) e
  rw [layout_eq]
  cases e with
  | literal value =>
    simp only [toNode, Node.mapOperands, Node.layout, Node.operands, List.forall_mem_singleton]
    cases value with
    | string value => simp [Piece.unbroken_string_iff, BrokenString]
    | _ => simp [Piece.Unbroken, Piece.literal, BrokenString]
  | identifier word =>
    simp only [toNode, Node.mapOperands, Node.layout, Node.operands]
    split <;> simp [member, BrokenString]
  | binary op a b =>
    simp only [toNode, Node.mapOperands, Node.layout, Node.operands]
    split
    · rw [List.forall_mem_append, unbroken_grouped_iff]
      simp [BrokenString, and_comm]
    · rw [List.forall_mem_append, unbroken_spaced_iff]
      simp [BrokenString]
  | getter a word =>
    simp only [toNode, Node.mapOperands, Node.layout, Node.operands]
    rw [List.forall_mem_append]
    simp [BrokenString, member]
  | invoke a method args =>
    have hmethod : ∀ p ∈ method.elim [] member, p.Unbroken := by
      cases method with
      | none => simp
      | some word => exact unbroken_member word
    simp only [toNode, Node.mapOperands, Node.layout, Node.operands]
    rw [List.forall_mem_append, List.forall_mem_append, unbroken_grouped_iff,
      forall_mem_intercalate_iff (by simp), and_iff_left hmethod, List.forall_mem_cons]
    cases args <;> simp [BrokenString]
  | index a b =>
    simp only [toNode, Node.mapOperands, Node.layout, Node.operands]
    rw [List.forall_mem_append, unbroken_grouped_iff]
    simp [BrokenString]
  | ternary a b c =>
    simp only [toNode, Node.mapOperands, Node.layout, Node.operands]
    rw [List.forall_mem_append, unbroken_spaced_iff, List.forall_mem_append, unbroken_spaced_iff]
    simp [BrokenString]
  | map entries =>
    simp only [toNode, Node.mapOperands, Node.layout, Node.operands]
    rw [unbroken_grouped_iff, forall_mem_intercalate_iff hcomma]
    simp only [List.forall_mem_map, unbroken_entry_iff, forall_and]
    refine and_congr ?_ (forall_value_iff _ _ entries)
    constructor
    · rintro hkeys ⟨value, hvalue, heq | ⟨_, heq, v, hmem⟩⟩
      · cases heq
      · obtain rfl := Expr.map.inj heq
        exact hkeys _ hmem hvalue
    · rintro hbroken ⟨key, v⟩ hmem hkey
      exact hbroken ⟨key, hkey, .inr ⟨entries, rfl, v, hmem⟩⟩
  | list items =>
    simp only [toNode, Node.mapOperands, Node.layout, Node.operands]
    rw [unbroken_grouped_iff, forall_mem_intercalate_iff hcomma]
    simp only [List.forall_mem_map, unbroken_orNull_iff]
    refine (forall_value_iff _ id items).trans (and_iff_right ?_).symm
    simp [BrokenString]
  | _ =>
    simp [toNode, Node.mapOperands, Node.layout, Node.operands, BrokenString, unbroken_grouped_iff]

/-! ### The code of a source -/

/-- The trees inside the tree of a source are well-formed, unless the source is blank. -/
theorem wellFormed_of_occurs {allowance : Option Allowance} {source : String} {e a : Expr}
    (h : parseWithin allowance source = .ok e) (ha : a.Occurs e) : a = .empty ∨ a.WellFormed := by
  obtain rfl | he := wellFormed_of_parseWithin h
  · cases ha with
    | root => exact .inl rfl
    | operand _ hb => nomatch hb
  · exact .inr (he.occurs ha)

theorem pieces_render_default {allowance : Option Allowance} {source : String} {e : Expr}
    (h : parseWithin allowance source = .ok e) :
    pieces (e.render Context.default.name).toList = e.layout [.name "model"] ∧
      textOf (pieces (e.render Context.default.name).toList) =
        (e.render Context.default.name).toList := by
  have htokens : tokens Context.default.name = .ok (pathTokens "model" []) := by decide +kernel
  have hcontext : pieces Context.default.name.toList = [.name "model"] := by decide +kernel
  obtain ⟨hpieces, htext⟩ := pieces_render h htokens
  rw [hpieces, htext, hcontext]
  exact ⟨rfl, rfl⟩

/-- **Where JavaScript cuts the code of a source differently.**  The code falls into the pieces that
the lexer finds.  Two equal signs stand side by side in it if and only if a sign stands directly
before the same sign in the tree; a point stands directly behind an integer if and only if a member
of an integer is taken or a method of it is called; and a string runs over the end of a line if and
only if the source has a string or a key with the end of a line in it. -/
theorem boundaries_render_iff {allowance : Option Allowance} {source : String} {e : Expr}
    (h : parseWithin allowance source = .ok e) :
    textOf (pieces (e.render Context.default.name).toList) =
        (e.render Context.default.name).toList ∧
      (DoublesSign (e.render Context.default.name) ↔ ∃ a : Expr, a.Occurs e ∧ a.DoubledSign) ∧
      (PointsInteger (e.render Context.default.name) ↔ ∃ a : Expr, a.Occurs e ∧ a.PointedInteger) ∧
      (BreaksString (e.render Context.default.name) ↔ ∃ a : Expr, a.Occurs e ∧ a.BrokenString) := by
  obtain ⟨hpieces, htext⟩ := pieces_render_default h
  refine ⟨htext, ?_, ?_, ?_⟩
  · rw [doublesSign_iff, outsideStrings, isChain_outside_iff fun _ => id, hpieces,
      isChain_layout_iff mild_signsApart, not_everywhere_iff]
    refine exists_congr fun a => and_congr_right fun ha => not_iff_comm.1 ?_
    obtain rfl | ha := wellFormed_of_occurs h ha
    · simp [Joint, DoubledSign]
    · exact (joint_signsApart_iff ha).symm
  · rw [pointsInteger_iff, hpieces, isChain_layout_iff mild_pointApart, not_everywhere_iff]
    refine exists_congr fun a => and_congr_right fun ha => not_iff_comm.1 ?_
    obtain rfl | ha := wellFormed_of_occurs h ha
    · simp [Joint, PointedInteger]
    · exact (joint_pointApart_iff ha.root).symm
  · rw [breaksString_iff, hpieces, unbroken_layout_iff, not_everywhere_iff]
    simp only [not_not]

/-- All three in one source. -/
theorem boundaries_render_list :
    parseWithin none "[- -a, 1 .b, 'c\\nd']" = .ok (.list
        [some (.unary .negate (.unary .negate (.identifier "a"))),
          some (.getter (.literal (.number (.ofText "1"))) "b"),
          some (.literal (.string "c\nd"))]) ∧
      DoublesSign "[--model.a, 1.b, \"c\nd\"]" ∧ PointsInteger "[--model.a, 1.b, \"c\nd\"]" ∧
      BreaksString "[--model.a, 1.b, \"c\nd\"]" := by
  have hparse : parseWithin none "[- -a, 1 .b, 'c\\nd']" = .ok (.list
      [some (.unary .negate (.unary .negate (.identifier "a"))),
        some (.getter (.literal (.number (.ofText "1"))) "b"),
        some (.literal (.string "c\nd"))]) := by
    decide +kernel
  have hrender : (Expr.list [some (.unary .negate (.unary .negate (.identifier "a"))),
      some (.getter (.literal (.number (.ofText "1"))) "b"),
      some (.literal (.string "c\nd"))]).render Context.default.name =
      "[--model.a, 1.b, \"c\nd\"]" := by
    decide +kernel
  have hboundaries := boundaries_render_iff hparse
  rw [hrender] at hboundaries
  obtain ⟨-, hsign, hpoint, hbreak⟩ := hboundaries
  refine ⟨hparse, hsign.2 ?_, hpoint.2 ?_, hbreak.2 ?_⟩
  · exact ⟨.unary .negate (.unary .negate (.identifier "a")),
      .operand .root (by simp [toNode, Node.operands]), .negate, _, by decide, rfl⟩
  · exact ⟨.getter (.literal (.number (.ofText "1"))) "b",
      .operand .root (by simp [toNode, Node.operands]), .ofText "1", by decide +kernel,
      .inl ⟨_, rfl⟩⟩
  · exact ⟨.literal (.string "c\nd"), .operand .root (by simp [toNode, Node.operands]), "c\nd",
      .inl (by decide), .inl rfl⟩

/-- Two signs of the source run together in its code. -/
theorem doublesSign_render_negated_twice :
    parseWithin none "- -a" = .ok (.unary .negate (.unary .negate (.identifier "a"))) ∧
      (Expr.unary .negate (.unary .negate (.identifier "a"))).render Context.default.name =
        "--model.a" ∧
      DoublesSign "--model.a" := by
  have houtside : outsideStrings "--model.a" = "--model.a".toList.map some := by decide +kernel
  refine ⟨by decide +kernel, by decide +kernel, '-', .inr rfl, ?_⟩
  rw [houtside]
  exact ⟨[], "model.a".toList.map some, rfl⟩

end Expr

end Binding
