import Binding.Proofs.Code.Layout
import Mathlib.Algebra.GroupWithZero.Nat

/-!
# Names in generated code

Generated code runs where the context is the only name that means anything, so every other name in
it has to stand behind a point.  User text reaches the code as names, numbers, strings and keys; the
layout keeps all of them apart, and then it is enough to count along the tokens.

`bareNames` gives what begins at each bare name of a list of tokens.  `Binds` says of tokens that,
put before others, they add a fixed number of bare names and that each of these begins the path of
the context.  It is kept by appending, since no layout ends in a point.

## Main results

* `Expr.binds_layout`: the bare names of a layout begin the context, one for each bare name of the
  tree.
* `Expr.bareNames_render`: the same for the tokens of the code.
-/

namespace Binding

/-- What begins at each name that no point stands directly before. -/
def bareNames : List Token → List (List Token)
  | [] => []
  | .symbol .dot :: .identifier _ :: rest => bareNames rest
  | .identifier name :: rest => (.identifier name :: rest) :: bareNames rest
  | _ :: rest => bareNames rest

/-- The number of bare names at a node and below it. -/
def Node.nameCount : Node Nat → Nat
  | .identifier _ => 1
  | node => node.operands.sum

/-- The number of bare names in a tree. -/
def Expr.nameCount : Expr → Nat :=
  fold Node.nameCount

/-- Before other tokens, these add so many bare names, and each of them begins the path. -/
structure Binds (path : List Token) (count : Nat) (ts : List Token) : Prop where
  begins : ∀ us, ∀ rest ∈ bareNames (ts ++ us), path <+: rest ∨ rest ∈ bareNames us
  length : ∀ us, (bareNames (ts ++ us)).length = count + (bareNames us).length

namespace Binds

variable {path ts us : List Token} {ps qs : List Piece} {m n : Nat}

theorem nil : Binds path 0 [] :=
  ⟨fun _ _ => .inr, fun _ => (Nat.zero_add _).symm⟩

theorem append (h : Binds path m ts) (h' : Binds path n us) : Binds path (m + n) (ts ++ us) := by
  constructor
  · intro vs rest hrest
    rw [List.append_assoc] at hrest
    rcases h.begins _ rest hrest with hpath | hrest
    · exact .inl hpath
    · exact h'.begins vs rest hrest
  · intro vs
    rw [List.append_assoc, h.length, h'.length, Nat.add_assoc]

/-- A token that is neither a name nor a point. -/
theorem token {t : Token} (hname : ∀ name, t ≠ .identifier name) (hdot : t ≠ .symbol .dot) :
    Binds path 0 [t] := by
  have hskip (us : List Token) : bareNames (t :: us) = bareNames us := by
    rw [bareNames.eq_def]
    split <;> simp_all
  constructor
  · intro us rest hrest
    exact .inr (hskip us ▸ hrest)
  · intro us
    rw [List.singleton_append, hskip, Nat.zero_add]

theorem symbol {s : Symbol} (h : s ≠ .dot) : Binds path 0 [.symbol s] :=
  token nofun (by simpa using h)

theorem members (names : List String) :
    Binds path 0 (names.flatMap fun name => [.symbol .dot, .identifier name]) := by
  induction names with
  | nil => exact nil
  | cons name names ih =>
    have hname : Binds path 0 [.symbol .dot, .identifier name] :=
      ⟨fun _ _ => .inr, fun _ => (Nat.zero_add _).symm⟩
    exact hname.append ih

theorem pathTokens (head : String) (names : List String) :
    Binds (Binding.pathTokens head names) 1 (Binding.pathTokens head names) := by
  have hnames := @members (Binding.pathTokens head names) names
  constructor
  · intro us rest hrest
    rw [Binding.pathTokens, List.cons_append, bareNames] at hrest
    rcases List.mem_cons.1 hrest with rfl | hrest
    · exact .inl (List.prefix_append _ us)
    · exact hnames.begins us rest hrest
  · intro us
    rw [Binding.pathTokens, List.cons_append, bareNames, List.length_cons, hnames.length]
    omega

/-! Layouts -/

theorem literal (value : Literal) : Binds path 0 (tokensOf [.literal value]) := by
  cases value <;> exact token nofun nofun

theorem member (h : Binds path n (tokensOf ps)) (name : String) :
    Binds path n (tokensOf (ps ++ Layout.member name)) := by
  rw [tokensOf_append]
  exact h.append (members [name])

theorem grouped {opening closing : Symbol} (ho : opening ≠ .dot) (hc : closing ≠ .dot)
    (h : Binds path n (tokensOf ps)) :
    Binds path n (tokensOf (Layout.grouped opening closing ps)) := by
  have hgrouped := (symbol ho).append (h.append (symbol hc))
  rw [Nat.zero_add, Nat.add_zero] at hgrouped
  rwa [Layout.grouped, Piece.symbol, tokensOf_word, tokensOf_append]

/-- Brackets behind something. -/
theorem attached {opening closing : Symbol} (ho : opening ≠ .dot) (hc : closing ≠ .dot)
    (h : Binds path m (tokensOf ps)) (h' : Binds path n (tokensOf qs)) :
    Binds path (m + n) (tokensOf (ps ++ Layout.grouped opening closing qs)) := by
  rw [tokensOf_append]
  exact h.append (h'.grouped ho hc)

theorem spaced {s : Symbol} (hs : s ≠ .dot) (h : Binds path m (tokensOf ps))
    (h' : Binds path n (tokensOf qs)) :
    Binds path (m + n) (tokensOf (ps ++ Layout.spaced s qs)) := by
  have hspaced := h.append ((symbol hs).append h')
  rw [Nat.zero_add] at hspaced
  rwa [tokensOf_append]

/-- Lists with commas between them, item by item. -/
theorem intercalate {β : Type} {separator : List Piece}
    (hseparator : Binds path 0 (tokensOf separator)) {layout : β → List Piece}
    {count : β → Nat} {items : List β}
    (h : ∀ b ∈ items, Binds path (count b) (tokensOf (layout b))) :
    Binds path (items.map count).sum (tokensOf (separator.intercalate (items.map layout))) := by
  induction items with
  | nil => exact nil
  | cons b items ih =>
    have hb := h b (by simp)
    have hrest := ih fun c hc => h c (by simp [hc])
    cases items with
    | nil => simpa using hb
    | cons c items =>
      have hjoined := hb.append (hseparator.append hrest)
      rw [Nat.zero_add] at hjoined
      rw [← tokensOf_append, ← tokensOf_append] at hjoined
      simpa only [List.map_cons, List.intercalate_cons_cons, List.append_assoc, List.sum_cons]
        using hjoined

theorem orNull {β : Type} {layout : β → List Piece} {count : β → Nat} {value : Option β}
    (h : ∀ b, value = some b → Binds path (count b) (tokensOf (layout b))) :
    Binds path ((value.map count).getD 0) (tokensOf (Layout.orNull (value.map layout))) := by
  cases value with
  | none => exact literal .null
  | some b => exact h b rfl

end Binds

/-- What is missing counts for nothing. -/
theorem sum_filterMap {β : Type} (f : β → Option Nat) (items : List β) :
    (items.filterMap f).sum = (items.map fun b => (f b).getD 0).sum := by
  induction items with
  | nil => rfl
  | cons b items ih => cases hb : f b <;> simp [hb, ih]

namespace Expr

theorem nameCount_eq (e : Expr) : e.nameCount = (e.toNode.mapOperands nameCount).nameCount := by
  have hfold := fold_ofNode Node.nameCount e.toNode
  rwa [ofNode_toNode] at hfold

/-- **The bare names of a layout** begin the context, and there is one for each bare name of the
tree. -/
theorem binds_layout {context : List Piece} {path : List Token}
    (hcontext : Binds path 1 (tokensOf context)) (e : Expr) :
    Binds path e.nameCount (tokensOf (e.layout context)) := by
  induction e with
  | empty => exact .nil
  | literal value => exact .literal value
  | identifier name =>
    rw [layout_eq]
    simp only [toNode, Node.mapOperands, Node.layout]
    split
    · exact hcontext
    · exact hcontext.member name
  | unary op a ih =>
    have hop : op.symbol ≠ .dot := by cases op <;> decide
    have happlied := (Binds.symbol hop).append ih
    rw [Nat.zero_add] at happlied
    rw [layout_eq, nameCount_eq]
    exact happlied
  | binary op a b iha ihb =>
    have hop : op.symbol ≠ .dot := by cases op <;> decide
    rw [layout_eq, nameCount_eq]
    simp only [toNode, Node.mapOperands, Node.layout, Node.nameCount, Node.operands,
      List.sum_cons, List.sum_nil, Nat.add_zero]
    split
    · rw [Nat.add_comm]
      exact ihb.attached (by decide) (by decide) iha
    · exact iha.spaced hop ihb
  | getter a name ih =>
    rw [layout_eq, nameCount_eq]
    exact ih.member name
  | invoke a method args iha ihargs =>
    have hcallee : Binds path a.nameCount
        (tokensOf (a.layout context ++ method.elim [] Layout.member)) := by
      cases method with
      | none => simpa using iha
      | some name => exact iha.member name
    have hargs : Binds path ((args.getD []).map nameCount).sum
        (tokensOf ([.symbol .comma].intercalate ((args.getD []).map (layout context)))) :=
      .intercalate (.symbol (by decide)) ihargs
    rw [layout_eq, nameCount_eq]
    cases args <;> exact hcallee.attached (by decide) (by decide) hargs
  | paren a ih =>
    rw [layout_eq, nameCount_eq]
    exact ih.grouped (by decide) (by decide)
  | index a b iha ihb =>
    rw [layout_eq, nameCount_eq]
    exact iha.attached (by decide) (by decide) ihb
  | ternary a b c iha ihb ihc =>
    rw [layout_eq, nameCount_eq]
    exact iha.spaced (by decide) (ihb.spaced (by decide) ihc)
  | map entries ih =>
    have hentries : Binds path (entries.map fun pair => (pair.2.map nameCount).getD 0).sum
        (tokensOf ([.symbol .comma, .space].intercalate
          (entries.map fun pair => Layout.entry (pair.1, pair.2.map (layout context))))) := by
      refine .intercalate (.symbol (by decide)) fun pair hpair => ?_
      have hvalue : Binds path ((pair.2.map nameCount).getD 0)
          (tokensOf (Layout.orNull (pair.2.map (layout context)))) :=
        .orNull fun a ha => ih pair.1 a (ha ▸ hpair)
      have hentry := (Binds.literal (.string pair.1)).append
        ((Binds.symbol (s := .colon) (by decide)).append hvalue)
      rwa [Nat.zero_add, Nat.zero_add] at hentry
    rw [layout_eq, nameCount_eq]
    simp only [toNode, Node.mapOperands, Node.layout, Node.nameCount, Node.operands,
      sum_filterMap, List.map_map]
    exact hentries.grouped (by decide) (by decide)
  | list items ih =>
    have hitems : Binds path (items.map fun item => (item.map nameCount).getD 0).sum
        (tokensOf ([.symbol .comma, .space].intercalate
          (items.map fun item => Layout.orNull (item.map (layout context))))) :=
      .intercalate (.symbol (by decide)) fun item hitem => .orNull fun a ha => ih a (ha ▸ hitem)
    rw [layout_eq, nameCount_eq]
    simp only [toNode, Node.mapOperands, Node.layout, Node.nameCount, Node.operands,
      sum_filterMap, List.map_map]
    exact hitems.grouped (by decide) (by decide)

/-- **Generated code has no free names.**  If a source has a tree, and the context is a name with
members of it, then the code of the tree can be read, and every name in it that no point stands
directly before is the head of the context, directly before the rest of the context.  There are as
many of them as there are bare names in the tree. -/
theorem bareNames_render {allowance : Option Allowance} {source : String} {e : Expr}
    (h : parseWithin allowance source = .ok e) {context head : String} {members : List String}
    (hcontext : tokens context = .ok (pathTokens head members)) :
    ∃ ts, tokens (e.render context) = .ok ts ∧
      (∀ rest ∈ bareNames ts, pathTokens head members <+: rest) ∧
      (bareNames ts).length = e.nameCount := by
  obtain ⟨hpieces, htext⟩ := pieces_render h hcontext
  have hbinds : Binds (pathTokens head members) e.nameCount
      (tokensOf (e.layout (pieces context.toList))) := by
    refine binds_layout ?_ e
    rw [(tokens_eq_ok_iff_pieces.1 hcontext).2]
    exact .pathTokens head members
  have hbegins := hbinds.begins []
  have hlength := hbinds.length []
  rw [List.append_nil] at hbegins hlength
  refine ⟨tokensOf (e.layout (pieces context.toList)), ?_, fun rest hrest => ?_, hlength⟩
  · rw [tokens_eq_ok_iff_pieces, hpieces]
    exact ⟨htext, rfl⟩
  · exact (hbegins rest hrest).resolve_right nofun

/-- The two bare names of a pipe, behind a key and a string that look like names themselves. -/
theorem bareNames_render_pipe :
    parseWithin none "\x7b\"b.c\": a.b | this, d: 'x'\x7d" = .ok (.map
        [("b.c", some (.binary .pipe (.getter (.identifier "a") "b") (.identifier "this"))),
          ("d", some (.literal (.string "x")))]) ∧
      tokens "this . m" = .ok (pathTokens "this" ["m"]) ∧
      ∃ ts, tokens "\x7b\"b.c\": this . m(this . m.a.b), \"d\": \"x\"\x7d" = .ok ts ∧
        (∀ rest ∈ bareNames ts, pathTokens "this" ["m"] <+: rest) ∧ (bareNames ts).length = 2 := by
  have hparse : parseWithin none "\x7b\"b.c\": a.b | this, d: 'x'\x7d" = .ok (.map
      [("b.c", some (.binary .pipe (.getter (.identifier "a") "b") (.identifier "this"))),
        ("d", some (.literal (.string "x")))]) := by
    decide +kernel
  have htokens : tokens "this . m" = .ok (pathTokens "this" ["m"]) := by decide +kernel
  have hrender : (Expr.map
      [("b.c", some (.binary .pipe (.getter (.identifier "a") "b") (.identifier "this"))),
        ("d", some (.literal (.string "x")))]).render "this . m" =
      "\x7b\"b.c\": this . m(this . m.a.b), \"d\": \"x\"\x7d" := by
    decide +kernel
  refine ⟨hparse, htokens, ?_⟩
  rw [← hrender]
  exact bareNames_render hparse htokens

end Expr

end Binding
