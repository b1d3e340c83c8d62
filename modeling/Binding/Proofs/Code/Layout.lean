import Binding.Code.Render
import Binding.Proofs.Grammar.WellFormed
import Binding.Proofs.Token.Pieces

/-!
# The layout of generated code

Which words does generated code consist of?  `Expr.layout` answers node by node: every node puts a
few symbols, names and spaces around the layouts of its operands, and the context stands where a
bare name is read.  The text of the layout is the code of the tree, whatever the tree
(`textOf_layout`).

That the lexer sees the same words in the code is another matter.  It holds of well-formed trees
(`laid_layout`): behind every word there stands something that cannot prolong it, which in the case
of `!` is any operand, because no operand begins with an equals sign.

## Main results

* `Expr.textOf_layout`: the layout of a tree is its code, cut into pieces.
* `Expr.pieces_render`: the lexer finds these pieces in the code of a tree that has been parsed.
-/

namespace Binding

open Scan

namespace Piece

/-- A constant, as code writes it. -/
def literal : Literal → Piece
  | .string value => .word (.string value) (Text.doubleQuoted value).toList
  | .number value => .word (.number value) value.text.toList
  | .boolean value => .word (.boolean value) (Token.booleanText value).toList
  | .null => .word .null "null".toList

theorem chars_literal (value : Literal) : (literal value).chars = value.render.toList := by
  cases value <;> rfl

end Piece

namespace Layout

/-- A member of what stands before. -/
def member (name : String) : List Piece :=
  [.symbol .dot, .name name]

/-- A symbol with spaces around it, before what follows. -/
def spaced (s : Symbol) (ps : List Piece) : List Piece :=
  .space :: .symbol s :: .space :: ps

/-- Pieces between two brackets. -/
def grouped (opening closing : Symbol) (ps : List Piece) : List Piece :=
  .symbol opening :: (ps ++ [.symbol closing])

/-- A value, or what stands for a missing one. -/
def orNull (value : Option (List Piece)) : List Piece :=
  value.getD [.literal .null]

/-- An entry of a map. -/
def entry (pair : String × Option (List Piece)) : List Piece :=
  .literal (.string pair.1) :: .symbol .colon :: .space :: orNull pair.2

end Layout

open Layout

/-- The pieces of a node, around those of its operands. -/
def Node.layout (context : List Piece) : Node (List Piece) → List Piece
  | .empty => []
  | .literal value => [.literal value]
  | .identifier name => if name = "this" then context else context ++ member name
  | .unary op operand => .symbol op.symbol :: operand
  | .binary op left right =>
    if op = .pipe then right ++ grouped .parenOpen .parenClose left
    else left ++ spaced op.symbol right
  | .getter receiver name => receiver ++ member name
  | .invoke receiver method args =>
    receiver ++ method.elim [] member ++
      grouped .parenOpen .parenClose ([.symbol .comma].intercalate (args.getD []))
  | .paren child => grouped .parenOpen .parenClose child
  | .index receiver argument => receiver ++ grouped .bracketOpen .bracketClose argument
  | .ternary condition whenTrue whenFalse =>
    condition ++ spaced .question (whenTrue ++ spaced .colon whenFalse)
  | .map entries =>
    grouped .braceOpen .braceClose ([.symbol .comma, .space].intercalate (entries.map entry))
  | .list items =>
    grouped .bracketOpen .bracketClose ([.symbol .comma, .space].intercalate (items.map orNull))

namespace Expr

/-- The pieces of the code of a tree, where the context stands in pieces too. -/
def layout (context : List Piece) : Expr → List Piece :=
  fold (Node.layout context)

theorem layout_eq (context : List Piece) (e : Expr) :
    e.layout context = (e.toNode.mapOperands (layout context)).layout context := by
  have hfold := fold_ofNode (Node.layout context) e.toNode
  rwa [ofNode_toNode] at hfold

/-! ### The layout is the code -/

theorem renderArguments_eq_map (context : String) (args : List Expr) :
    renderArguments context args = args.map (render context) := by
  induction args with
  | nil => rfl
  | cons a args ih => rw [renderArguments, ih, List.map_cons]

theorem renderEntries_eq_map (context : String) (entries : List (String × Option Expr)) :
    renderEntries context entries = entries.map fun entry =>
      Text.doubleQuoted entry.1 ++ ": " ++ entry.2.elim "null" (render context) := by
  induction entries with
  | nil => rfl
  | cons entry entries ih =>
    obtain ⟨key, value⟩ := entry
    cases value with
    | none =>
      have hnull : ": null" = ": " ++ "null" := rfl
      rw [renderEntries, ih, List.map_cons, hnull, ← String.append_assoc]
      rfl
    | some value =>
      rw [renderEntries, ih, List.map_cons]
      rfl

theorem renderItems_eq_map (context : String) (items : List (Option Expr)) :
    renderItems context items = items.map (·.elim "null" (render context)) := by
  induction items with
  | nil => rfl
  | cons item items ih => cases item <;> rw [renderItems, ih, List.map_cons] <;> rfl

end Expr

namespace Layout

theorem textOf_member (name : String) : textOf (member name) = '.' :: name.toList := by
  simp [member, Piece.symbol, Piece.name, Piece.chars, Symbol.chars]

theorem textOf_spaced (s : Symbol) (ps : List Piece) :
    textOf (spaced s ps) = ' ' :: (s.chars ++ ' ' :: textOf ps) := by
  simp [spaced, Piece.space, Piece.symbol, Piece.chars]

theorem textOf_grouped (opening closing : Symbol) (ps : List Piece) :
    textOf (grouped opening closing ps) = opening.chars ++ (textOf ps ++ closing.chars) := by
  simp [grouped, Piece.symbol, Piece.chars]

theorem textOf_entry (pair : String × Option (List Piece)) :
    textOf (entry pair) =
      (Text.doubleQuoted pair.1).toList ++ ':' :: ' ' :: textOf (orNull pair.2) :=
  rfl

end Layout

/-- Lists of pieces with a separator between them have the texts with the separator between
them. -/
theorem textOf_intercalate {separator : List Piece} {between : String}
    (hseparator : textOf separator = between.toList) {layouts : List (List Piece)}
    {texts : List String} (h : layouts.map textOf = texts.map String.toList) :
    textOf (separator.intercalate layouts) = (between.intercalate texts).toList := by
  rw [String.toList_intercalate, ← h, ← hseparator]
  clear h
  induction layouts with
  | nil => rfl
  | cons ps layouts ih =>
    cases layouts with
    | nil => simp
    | cons qs layouts =>
      rw [List.intercalate_cons_cons, textOf_append, textOf_append, ih]
      simp only [List.map_cons, List.intercalate_cons_cons]

namespace Expr

/-- **The layout of a tree is its code.** -/
theorem textOf_layout {context : List Piece} {name : String} (h : textOf context = name.toList)
    (e : Expr) :
    textOf (e.layout context) = (e.render name).toList := by
  have hrender (value : Option Expr)
      (hvalue : ∀ a, value = some a → textOf (a.layout context) = (a.render name).toList) :
      textOf (orNull (value.map (layout context))) = (value.elim "null" (render name)).toList := by
    cases value with
    | none => exact List.append_nil _
    | some a => exact hvalue a rfl
  induction e with
  | empty => rfl
  | literal value =>
    rw [layout_eq, render, ← Piece.chars_literal]
    exact List.append_nil _
  | identifier word =>
    rw [layout_eq, render]
    simp only [toNode, Node.mapOperands, Node.layout]
    split
    · exact h
    · simp [textOf_member, h]
  | unary op a ih =>
    rw [layout_eq, render]
    simp [toNode, Node.mapOperands, Node.layout, ih, UnaryOp.spelling, Piece.symbol, Piece.chars]
  | binary op a b iha ihb =>
    rw [layout_eq, render]
    simp only [toNode, Node.mapOperands, Node.layout]
    split
    · simp [textOf_grouped, iha, ihb, Symbol.chars]
    · simp [textOf_spaced, iha, ihb, BinaryOp.spelling]
  | getter a name ih =>
    rw [layout_eq, render]
    simp [toNode, Node.mapOperands, Node.layout, textOf_member, ih]
  | invoke a method args iha ihargs =>
    have hmethod : textOf (method.elim [] member) = (renderMethod method).toList := by
      cases method with
      | none => rfl
      | some name => simp [textOf_member, renderMethod]
    rw [layout_eq]
    cases args with
    | none =>
      rw [render]
      simp [toNode, Node.mapOperands, Node.layout, textOf_grouped, iha, hmethod, Symbol.chars]
    | some args =>
      have hargs : textOf ([.symbol .comma].intercalate (args.map (layout context))) =
          (",".intercalate (args.map (render name))).toList := by
        refine textOf_intercalate rfl ?_
        rw [List.map_map, List.map_map]
        exact List.map_congr_left ihargs
      rw [render, renderArguments_eq_map]
      simp [toNode, Node.mapOperands, Node.layout, textOf_grouped, iha, hmethod, hargs,
        Symbol.chars]
  | paren a ih =>
    rw [layout_eq, render]
    simp [toNode, Node.mapOperands, Node.layout, textOf_grouped, ih, Symbol.chars]
  | index a b iha ihb =>
    rw [layout_eq, render]
    simp [toNode, Node.mapOperands, Node.layout, textOf_grouped, iha, ihb, Symbol.chars]
  | ternary a b c iha ihb ihc =>
    rw [layout_eq, render]
    simp [toNode, Node.mapOperands, Node.layout, textOf_spaced, iha, ihb, ihc, Symbol.chars]
  | map entries ih =>
    have hentries : textOf ([.symbol .comma, .space].intercalate
        ((entries.map fun pair => (pair.1, pair.2.map (layout context))).map entry)) =
        (", ".intercalate (renderEntries name entries)).toList := by
      refine textOf_intercalate rfl ?_
      rw [renderEntries_eq_map, List.map_map, List.map_map, List.map_map]
      refine List.map_congr_left fun pair hpair => ?_
      have hvalue := hrender pair.2 fun a ha => ih pair.1 a (ha ▸ hpair)
      simp [textOf_entry, hvalue]
    rw [layout_eq, render]
    simp only [toNode, Node.mapOperands, Node.layout, textOf_grouped, hentries]
    simp [Symbol.chars]
  | list items ih =>
    have hitems : textOf ([.symbol .comma, .space].intercalate
        ((items.map (·.map (layout context))).map orNull)) =
        (", ".intercalate (renderItems name items)).toList := by
      refine textOf_intercalate rfl ?_
      rw [renderItems_eq_map, List.map_map, List.map_map, List.map_map]
      exact List.map_congr_left fun item hitem => hrender item fun a ha => ih a (ha ▸ hitem)
    rw [layout_eq, render]
    simp only [toNode, Node.mapOperands, Node.layout, textOf_grouped, hitems]
    simp [Symbol.chars]

/-! ### The layout is what is read -/

end Expr

/-- The text begins with something, but not with an equals sign. -/
def Opens (ps : List Piece) : Prop :=
  ∃ c text, textOf ps = c :: text ∧ c ≠ '='

theorem Opens.append {ps : List Piece} (h : Opens ps) (qs : List Piece) : Opens (ps ++ qs) := by
  obtain ⟨c, text, htext, hc⟩ := h
  exact ⟨c, text ++ textOf qs, by rw [textOf_append, htext, List.cons_append], hc⟩

theorem opens_symbol {s : Symbol} (h : s ≠ .equalEqual) (ps : List Piece) :
    Opens (.symbol s :: ps) := by
  cases s <;> first | exact absurd rfl h | exact ⟨_, _, rfl, by decide⟩

/-- A word that is laid out well begins with something, and only one token with an equals sign. -/
theorem Laid.opens {t : Token} {text : List Char} (h : Laid [.word t text])
    (ht : t ≠ .symbol .equalEqual) (ps : List Piece) : Opens (.word t text :: ps) := by
  have hpieces : pieces text = [.word t text] := by
    have := h.pieces_textOf
    rwa [textOf_cons, textOf_nil, List.append_nil] at this
  have hspells : Spells text (tokensOf (pieces text)) [] :=
    spells_of_pieces (by rw [hpieces]; exact List.append_nil _)
  rw [hpieces] at hspells
  cases text with
  | nil => nomatch pieces_nil.symm.trans hpieces
  | cons c text => exact ⟨c, _, rfl, fun hc => hspells.head_ne_equal ht (by rw [hc]; rfl)⟩

/-- Lists with commas between them, and perhaps spaces behind these. -/
theorem Laid.intercalate {separator : List Piece}
    (hseparator : separator = [.symbol .comma] ∨ separator = [.symbol .comma, .space])
    {layouts : List (List Piece)} (h : ∀ ps ∈ layouts, Laid ps) :
    Laid (separator.intercalate layouts) := by
  induction layouts with
  | nil => exact laid_nil
  | cons ps layouts ih =>
    have hps := h ps (by simp)
    have hrest := ih fun qs hqs => h qs (by simp [hqs])
    cases layouts with
    | nil => simpa using hps
    | cons qs layouts =>
      rw [List.intercalate_cons_cons, List.append_assoc]
      rcases hseparator with rfl | rfl
      · exact hps.punctuated .comma (by decide) hrest
      · exact hps.punctuated .comma (by decide) hrest.space

theorem laid_literal {value : Literal} (h : (Expr.literal value).Licensed) :
    Laid [.literal value] := by
  cases value with
  | string value => exact laid_string value
  | number value => exact laid_number (Token.readable_number_iff.2 h)
  | boolean value => exact laid_boolean value
  | null => exact laid_null

/-- The pieces are laid out well and can stand wherever an operand can. -/
structure Placed (ps : List Piece) : Prop where
  laid : Laid ps
  opens : Opens ps

namespace Placed

variable {ps qs : List Piece}

theorem literal {value : Literal} (h : (Expr.literal value).Licensed) :
    Placed [.literal value] := by
  have hlaid := laid_literal h
  refine ⟨hlaid, ?_⟩
  cases value <;> exact hlaid.opens (by simp) []

theorem member {name : String} (h : Placed ps) (hname : IsWord name) :
    Placed (ps ++ Layout.member name) :=
  ⟨h.laid.member hname, h.opens.append _⟩

theorem unary (op : UnaryOp) (h : Placed ps) : Placed (.symbol op.symbol :: ps) := by
  obtain ⟨c, text, htext, hc⟩ := h.opens
  exact ⟨h.laid.unary op htext hc, opens_symbol (by cases op <;> decide) ps⟩

theorem spaced (s : Symbol) (h : Placed ps) (h' : Placed qs) : Placed (ps ++ Layout.spaced s qs) :=
  ⟨h.laid.operator s h'.laid, h.opens.append _⟩

/-- Brackets behind an operand. -/
theorem attached {opening closing : Symbol} (ho : opening ∈ Symbol.punctuation)
    (hc : closing ∈ Symbol.punctuation) (h : Placed ps) (h' : Laid qs) :
    Placed (ps ++ Layout.grouped opening closing qs) :=
  ⟨h.laid.grouped opening closing ho hc h', h.opens.append _⟩

/-- Brackets on their own. -/
theorem enclosed {opening closing : Symbol} (ho : opening ∈ Symbol.punctuation)
    (hc : closing ∈ Symbol.punctuation) (h : Laid ps) :
    Placed (Layout.grouped opening closing ps) := by
  refine ⟨laid_nil.grouped opening closing ho hc h, opens_symbol ?_ _⟩
  rintro rfl
  exact absurd ho (by decide)

end Placed

theorem Layout.laid_orNull {value : Option (List Piece)} (h : ∀ ps, value = some ps → Laid ps) :
    Laid (orNull value) := by
  cases value with
  | none => exact laid_null
  | some ps => exact h ps rfl

theorem Layout.laid_entry {pair : String × Option (List Piece)}
    (h : ∀ ps, pair.2 = some ps → Laid ps) : Laid (entry pair) := by
  have hvalue := (laid_orNull h).space
  have hpair := (laid_string pair.1).punctuated .colon (by decide) hvalue
  exact hpair

namespace Expr

/-- **The layout of a well-formed tree** is laid out well. -/
theorem placed_layout {context : List Piece} (hcontext : Placed context) {e : Expr}
    (h : e.WellFormed) : Placed (e.layout context) := by
  induction e with
  | empty => exact h.root.elim
  | literal value => exact .literal h.root
  | identifier name =>
    rw [layout_eq]
    simp only [toNode, Node.mapOperands, Node.layout]
    split
    · exact hcontext
    · exact hcontext.member h.root
  | unary op a ih =>
    rw [layout_eq]
    exact (ih (h.operand (by simp [toNode, Node.operands]))).unary op
  | binary op a b iha ihb =>
    have ha := iha (h.operand (by simp [toNode, Node.operands]))
    have hb := ihb (h.operand (by simp [toNode, Node.operands]))
    rw [layout_eq]
    simp only [toNode, Node.mapOperands, Node.layout]
    split
    · exact hb.attached (by decide) (by decide) ha.laid
    · exact ha.spaced op.symbol hb
  | getter a name ih =>
    rw [layout_eq]
    exact (ih (h.operand (by simp [toNode, Node.operands]))).member h.root.2
  | invoke a method args iha ihargs =>
    have ha := iha (h.operand (by simp [toNode, Node.operands]))
    have hcallee : Placed (a.layout context ++ method.elim [] member) := by
      cases method with
      | none => simpa using ha
      | some name => exact ha.member h.root.2.2
    have hargs : ∀ ps ∈ (args.map (·.map (layout context))).getD [], Laid ps := by
      intro ps hps
      obtain ⟨b, hb, rfl⟩ : ∃ b ∈ args.getD [], b.layout context = ps := by
        cases args with
        | none => simp at hps
        | some args => simpa using hps
      exact (ihargs b hb (h.operand (by simp [toNode, Node.operands, hb]))).laid
    rw [layout_eq]
    exact hcallee.attached (by decide) (by decide) (.intercalate (.inl rfl) hargs)
  | paren a ih =>
    have ha := ih (h.operand (by simp [toNode, Node.operands]))
    rw [layout_eq]
    exact .enclosed (by decide) (by decide) ha.laid
  | index a b iha ihb =>
    have ha := iha (h.operand (by simp [toNode, Node.operands]))
    have hb := ihb (h.operand (by simp [toNode, Node.operands]))
    rw [layout_eq]
    exact ha.attached (by decide) (by decide) hb.laid
  | ternary a b c iha ihb ihc =>
    have ha := iha (h.operand (by simp [toNode, Node.operands]))
    have hb := ihb (h.operand (by simp [toNode, Node.operands]))
    have hc := ihc (h.operand (by simp [toNode, Node.operands]))
    rw [layout_eq]
    exact ha.spaced .question (hb.spaced .colon hc)
  | map entries ih =>
    rw [layout_eq]
    refine .enclosed (by decide) (by decide) (.intercalate (.inr rfl) ?_)
    intro ps hps
    obtain ⟨pair, hpair, rfl⟩ := List.mem_map.1 hps
    obtain ⟨⟨key, value⟩, hentry, rfl⟩ := List.mem_map.1 hpair
    refine laid_entry fun qs hqs => ?_
    obtain ⟨a, rfl, rfl⟩ := Option.map_eq_some_iff.1 hqs
    have ha : a ∈ (Expr.map entries).toNode.operands := by
      simpa [toNode, Node.operands] using ⟨key, hentry⟩
    exact (ih key a hentry (h.operand ha)).laid
  | list items ih =>
    rw [layout_eq]
    refine .enclosed (by decide) (by decide) (.intercalate (.inr rfl) ?_)
    intro ps hps
    obtain ⟨value, hvalue, rfl⟩ := List.mem_map.1 hps
    obtain ⟨item, hitem, rfl⟩ := List.mem_map.1 hvalue
    refine laid_orNull fun qs hqs => ?_
    obtain ⟨a, rfl, rfl⟩ := Option.map_eq_some_iff.1 hqs
    have ha : a ∈ (Expr.list items).toNode.operands := by
      simpa [toNode, Node.operands] using hitem
    exact (ih a hitem (h.operand ha)).laid

/-- A path is a context. -/
theorem placed_path {context head : String} {members : List String}
    (h : tokens context = .ok (pathTokens head members)) : Placed (pieces context.toList) := by
  have hspells := tokens_eq_ok_iff.1 h
  have htext := (textOf_pieces_of_spells hspells).1
  refine ⟨laid_path hspells, ?_⟩
  have hhead := hspells.head_ne_equal (by simp)
  cases hcontext : context.toList with
  | nil =>
    rw [hcontext] at hspells
    nomatch (Spells.nil_right_of_done rfl).1 hspells
  | cons c text =>
    rw [hcontext] at htext hhead
    exact ⟨c, text, htext, by simpa using hhead⟩

/-- **What the lexer finds in generated code:** the layout of the tree. -/
theorem pieces_render {allowance : Option Allowance} {source : String} {e : Expr}
    (h : parseWithin allowance source = .ok e) {context head : String} {members : List String}
    (hcontext : tokens context = .ok (pathTokens head members)) :
    pieces (e.render context).toList = e.layout (pieces context.toList) ∧
      textOf (e.layout (pieces context.toList)) = (e.render context).toList := by
  have htext := textOf_layout (tokens_eq_ok_iff_pieces.1 hcontext).1 e
  refine ⟨?_, htext⟩
  obtain rfl | he := wellFormed_of_parseWithin h
  · exact pieces_nil
  · rw [← htext, (placed_layout (placed_path hcontext) he).laid.pieces_textOf]

end Expr

end Binding
