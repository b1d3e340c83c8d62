import Binding.Proofs.Code.Names

/-!
# Where the context stands in generated code

A tree can be written for one context or for another.  The two codes differ in the context and in
nothing else: there is a text with gaps, the *template* of the tree, and the code is that text with
the context in the gaps.

## What a gap rules out

Searching the code for a name and replacing it would not do, because the name may occur in a string
or in a key.  A template has no such accidents, as its gaps are not marked by any character.  They
can be found from outside nevertheless: two fillings that differ in their only character show where
every gap is (`Template.eq_of_fill_eq`), so that a tree has no other template.

All that a tree has in it, constants, keys and names of members, stands in the segments between the
gaps, each word as a whole in one of them.

## Main results

* `Expr.fill_template`: the code is the template, filled with the context.
* `Expr.gaps_template`: there is one gap for each bare name.
* `Expr.render_eq_intercalate_segments`: both, said of the list of segments.
-/

namespace Binding

/-- A text with gaps. -/
inductive Template where
  | text (s : String)
  | gap (before : String) (rest : Template)

namespace Template

/-- The text with something in each of the gaps. -/
def fill (filling : String) : Template → String
  | .text s => s
  | .gap before rest => before ++ filling ++ rest.fill filling

/-- What stands before, between and behind the gaps. -/
def segments : Template → List String
  | .text s => [s]
  | .gap before rest => before :: rest.segments

/-- The number of gaps. -/
def gaps : Template → Nat
  | .text _ => 0
  | .gap _ rest => rest.gaps + 1

/-- One text behind another. -/
def append : Template → Template → Template
  | .text s, .text s' => .text (s ++ s')
  | .text s, .gap before rest => .gap (s ++ before) rest
  | .gap before rest, t => .gap before (append rest t)

instance : Append Template :=
  ⟨append⟩

/-- One text after another with a separator between them. -/
def intercalate (separator : String) : List Template → Template
  | [] => .text ""
  | [t] => t
  | t :: u :: rest => t ++ .text separator ++ intercalate separator (u :: rest)

variable (filling : String) (t u : Template)

@[simp] theorem append_text_text (s s' : String) : text s ++ text s' = .text (s ++ s') := rfl

@[simp] theorem append_text_gap (s before : String) :
    text s ++ gap before t = .gap (s ++ before) t := rfl

@[simp] theorem append_gap (before : String) : gap before t ++ u = .gap before (t ++ u) := rfl

@[simp] theorem fill_text (s : String) : (text s).fill filling = s := rfl

@[simp] theorem fill_append : (t ++ u).fill filling = t.fill filling ++ u.fill filling := by
  induction t with
  | text s => cases u <;> simp [fill, String.append_assoc]
  | gap before t ih => simp [fill, ih, String.append_assoc]

theorem fill_intercalate (separator : String) (ts : List Template) :
    (intercalate separator ts).fill filling = separator.intercalate (ts.map (fill filling)) := by
  induction ts with
  | nil => simp [intercalate]
  | cons t ts ih =>
    cases ts with
    | nil => simp [intercalate]
    | cons u ts => simp [intercalate, String.intercalate_cons_cons, ih]

theorem fill_eq_intercalate : t.fill filling = filling.intercalate t.segments := by
  induction t with
  | text s => simp [segments]
  | gap before t ih =>
    rw [fill, ih]
    cases t <;> simp [segments, String.intercalate_cons_cons]

@[simp] theorem gaps_append : (t ++ u).gaps = t.gaps + u.gaps := by
  induction t with
  | text s => cases u <;> simp [gaps]
  | gap before t ih => simp [gaps, ih]; omega

theorem gaps_intercalate (separator : String) (ts : List Template) :
    (intercalate separator ts).gaps = (ts.map gaps).sum := by
  induction ts with
  | nil => simp [intercalate, gaps]
  | cons t ts ih =>
    cases ts with
    | nil => simp [intercalate]
    | cons u ts => simp [intercalate, ih, gaps]

/-- Any texts are the segments of a template, if there is one of them. -/
theorem exists_segments_eq {texts : List String} (h : texts ≠ []) :
    ∃ t : Template, t.segments = texts := by
  induction texts with
  | nil => exact absurd rfl h
  | cons s texts ih =>
    cases texts with
    | nil => exact ⟨text s, rfl⟩
    | cons s' texts =>
      obtain ⟨t, ht⟩ := ih (List.cons_ne_nil _ _)
      exact ⟨gap s t, by rw [segments, ht]⟩

theorem length_segments : t.segments.length = t.gaps + 1 := by
  induction t with
  | text s => rfl
  | gap before t ih => simp [segments, gaps, ih]

/-! ### What stands between the gaps -/

/-- The word stands between two gaps. -/
def Holds (word : String) (t : Template) : Prop :=
  ∃ s ∈ t.segments, word.toList <:+: s.toList

variable {word : String} {t u : Template}

theorem holds_text_iff {s : String} : (text s).Holds word ↔ word.toList <:+: s.toList := by
  simp [Holds, segments]

theorem holds_gap_iff {before : String} :
    (gap before t).Holds word ↔ word.toList <:+: before.toList ∨ t.Holds word := by
  simp [Holds, segments]

theorem Holds.append_right (h : t.Holds word) (u : Template) : (t ++ u).Holds word := by
  induction t with
  | text s =>
    rw [holds_text_iff] at h
    cases u with
    | text s' =>
      rw [append_text_text, holds_text_iff, String.toList_append]
      exact h.trans (List.prefix_append _ _).isInfix
    | gap before u =>
      rw [append_text_gap, holds_gap_iff, String.toList_append]
      exact .inl (h.trans (List.prefix_append _ _).isInfix)
  | gap before t ih =>
    rw [append_gap, holds_gap_iff]
    exact (holds_gap_iff.1 h).imp_right ih

theorem Holds.append_left (h : u.Holds word) (t : Template) : (t ++ u).Holds word := by
  induction t with
  | text s =>
    cases u with
    | text s' =>
      rw [append_text_text, holds_text_iff, String.toList_append]
      exact (holds_text_iff.1 h).trans (List.suffix_append _ _).isInfix
    | gap before u =>
      rw [append_text_gap, holds_gap_iff, String.toList_append]
      exact (holds_gap_iff.1 h).imp_left fun h => h.trans (List.suffix_append _ _).isInfix
  | gap before t ih =>
    rw [append_gap, holds_gap_iff]
    exact .inr ih

theorem Holds.intercalate {separator : String} {ts : List Template} (ht : t ∈ ts)
    (h : t.Holds word) : (intercalate separator ts).Holds word := by
  induction ts with
  | nil => nomatch ht
  | cons u ts ih =>
    cases ts with
    | nil =>
      rw [List.mem_singleton.1 ht] at h
      exact h
    | cons v ts =>
      rw [Template.intercalate]
      rcases List.mem_cons.1 ht with rfl | ht
      · exact (h.append_right _).append_right _
      · exact (ih ht).append_left _

/-! ### Fillings tell templates apart -/

/-- Two different characters in the same gap show where it is. -/
theorem eq_of_gap_eq {before before' s s' r r' : List Char}
    (ha : before ++ 'a' :: s = before' ++ 'a' :: s')
    (hb : before ++ 'b' :: r = before' ++ 'b' :: r') : before = before' := by
  induction before generalizing before' with
  | nil =>
    cases before' with
    | nil => rfl
    | cons c before' =>
      rw [List.nil_append, List.cons_append] at ha hb
      exact absurd ((List.cons.inj ha).1.trans (List.cons.inj hb).1.symm) (by decide)
  | cons c before ih =>
    cases before' with
    | nil =>
      rw [List.nil_append, List.cons_append] at ha hb
      exact absurd ((List.cons.inj ha).1.symm.trans (List.cons.inj hb).1) (by decide)
    | cons c' before' =>
      rw [List.cons_append, List.cons_append] at ha hb
      rw [(List.cons.inj ha).1, ih (List.cons.inj ha).2 (List.cons.inj hb).2]

theorem fill_gap_ne_text {before s : String} (ha : (gap before t).fill "a" = s)
    (hb : (gap before t).fill "b" = s) : False := by
  have heq := congrArg String.toList (ha.trans hb.symm)
  simp [fill] at heq

/-- A template is known from what two fillings make of it. -/
theorem eq_of_fill_eq (ha : t.fill "a" = u.fill "a") (hb : t.fill "b" = u.fill "b") : t = u := by
  induction t generalizing u with
  | text s =>
    cases u with
    | text s' => exact congrArg text ha
    | gap before u => exact (fill_gap_ne_text ha.symm hb.symm).elim
  | gap before t ih =>
    cases u with
    | text s => exact (fill_gap_ne_text ha hb).elim
    | gap before' u =>
      have hbefore : before = before' := by
        rw [← String.toList_inj]
        have ha := congrArg String.toList ha
        have hb := congrArg String.toList hb
        simp only [fill, String.toList_append, List.append_assoc] at ha hb
        exact eq_of_gap_eq ha hb
      subst hbefore
      rw [ih ((String.append_right_inj _).1 ha) ((String.append_right_inj _).1 hb)]

end Template

open Template

/-- The code of a node, with a gap where the context stands. -/
def Node.template : Node Template → Template
  | .empty => .text ""
  | .literal value => .text value.render
  | .identifier name => .gap "" (.text (if name = "this" then "" else "." ++ name))
  | .unary op operand => .text op.spelling ++ operand
  | .binary op left right =>
    if op = .pipe then right ++ .text "(" ++ left ++ .text ")"
    else left ++ .text (" " ++ op.spelling ++ " ") ++ right
  | .getter receiver name => receiver ++ .text ("." ++ name)
  | .invoke receiver method args =>
    receiver ++ .text (Expr.renderMethod method ++ "(") ++ intercalate "," (args.getD []) ++
      .text ")"
  | .paren child => .text "(" ++ child ++ .text ")"
  | .index receiver argument => receiver ++ .text "[" ++ argument ++ .text "]"
  | .ternary condition whenTrue whenFalse =>
    condition ++ .text " ? " ++ whenTrue ++ .text " : " ++ whenFalse
  | .map entries =>
    .text "\x7b" ++ intercalate ", " (entries.map fun (key, value) =>
      .text (Text.doubleQuoted key ++ ": ") ++ value.getD (.text "null")) ++ .text "\x7d"
  | .list items => .text "[" ++ intercalate ", " (items.map (·.getD (.text "null"))) ++ .text "]"

/-- The words that the code of a node takes from the node. -/
def Node.words {α : Type} : Node α → List String
  | .literal value => [value.render]
  | .identifier name => if name = "this" then [] else ["." ++ name]
  | .getter _ name => ["." ++ name]
  | .invoke _ (some name) _ => ["." ++ name]
  | .map entries => entries.map fun (key, _) => Text.doubleQuoted key
  | _ => []

namespace Node

theorem words_mapOperands {α β : Type} (f : α → β) (node : Node α) :
    (node.mapOperands f).words = node.words := by
  cases node with
  | invoke receiver method args => cases method <;> rfl
  | map entries => simp [mapOperands, words]
  | _ => rfl

theorem gaps_template (node : Node Template) :
    node.template.gaps = (node.mapOperands gaps).nameCount := by
  cases node with
  | binary op left right =>
    rw [template]
    split <;> simp [mapOperands, nameCount, operands, gaps, Nat.add_comm]
  | invoke receiver method args =>
    cases args <;>
      simp [template, mapOperands, nameCount, operands, gaps, gaps_intercalate]
  | map entries =>
    have hvalue (value : Option Template) :
        (value.getD (.text "null")).gaps = (value.map gaps).getD 0 := by
      cases value <;> rfl
    simp [template, mapOperands, nameCount, operands, gaps, gaps_intercalate, sum_filterMap,
      hvalue, Function.comp_def]
  | list items =>
    have hitem (item : Option Template) :
        (item.getD (.text "null")).gaps = (item.map gaps).getD 0 := by
      cases item <;> rfl
    simp [template, mapOperands, nameCount, operands, gaps, gaps_intercalate, sum_filterMap,
      hitem, Function.comp_def]
  | _ => simp [template, mapOperands, nameCount, operands, gaps, Nat.add_assoc]

theorem holds_words {node : Node Template} {word : String} (h : word ∈ node.words) :
    node.template.Holds word := by
  cases node with
  | literal value =>
    rw [List.mem_singleton.1 h]
    exact holds_text_iff.2 List.infix_rfl
  | identifier name =>
    rw [words] at h
    rw [template]
    split at h
    · nomatch h
    · rw [List.mem_singleton.1 h, if_neg ‹_›]
      exact holds_gap_iff.2 (.inr (holds_text_iff.2 List.infix_rfl))
  | getter receiver name =>
    rw [List.mem_singleton.1 h]
    exact .append_left (holds_text_iff.2 List.infix_rfl) _
  | invoke receiver method args =>
    cases method with
    | none => nomatch h
    | some name =>
      rw [List.mem_singleton.1 h]
      have hname : (text (Expr.renderMethod (some name) ++ "(")).Holds ("." ++ name) :=
        holds_text_iff.2 ⟨[], "(".toList, by simp [Expr.renderMethod]⟩
      exact ((hname.append_left _).append_right _).append_right _
  | map entries =>
    obtain ⟨⟨key, value⟩, hentry, rfl⟩ := List.mem_map.1 h
    have hkey : (text (Text.doubleQuoted key ++ ": ")).Holds (Text.doubleQuoted key) := by
      rw [holds_text_iff, String.toList_append]
      exact (List.prefix_append _ _).isInfix
    refine .append_right (.append_left (.intercalate (List.mem_map_of_mem hentry) ?_) _) _
    exact hkey.append_right _
  | _ => nomatch h

theorem holds_operand {node : Node Template} {word : String} {t : Template}
    (ht : t ∈ node.operands) (h : t.Holds word) : node.template.Holds word := by
  cases node with
  | unary op operand =>
    rw [List.mem_singleton.1 ht] at h
    exact h.append_left _
  | binary op left right =>
    rw [template]
    rcases List.mem_pair.1 ht with rfl | rfl <;> split
    · exact (h.append_left _).append_right _
    · exact (h.append_right _).append_right _
    · exact ((h.append_right _).append_right _).append_right _
    · exact h.append_left _
  | getter receiver name =>
    rw [List.mem_singleton.1 ht] at h
    exact h.append_right _
  | invoke receiver method args =>
    rcases List.mem_cons.1 ht with rfl | ht
    · exact ((h.append_right _).append_right _).append_right _
    · exact ((h.intercalate ht).append_left _).append_right _
  | paren child =>
    rw [List.mem_singleton.1 ht] at h
    exact (h.append_left _).append_right _
  | index receiver argument =>
    rcases List.mem_pair.1 ht with rfl | rfl
    · exact ((h.append_right _).append_right _).append_right _
    · exact (h.append_left _).append_right _
  | ternary condition whenTrue whenFalse =>
    rcases List.mem_cons.1 ht with rfl | ht
    · exact (((h.append_right _).append_right _).append_right _).append_right _
    · rcases List.mem_pair.1 ht with rfl | rfl
      · exact ((h.append_left _).append_right _).append_right _
      · exact h.append_left _
  | map entries =>
    obtain ⟨⟨key, value⟩, hentry, rfl⟩ := List.mem_filterMap.1 ht
    refine .append_right (.append_left (.intercalate (List.mem_map_of_mem hentry) ?_) _) _
    exact h.append_left _
  | list items =>
    obtain ⟨item, hitem, rfl⟩ := List.mem_filterMap.1 ht
    exact .append_right (.append_left (.intercalate (List.mem_map_of_mem hitem) h) _) _
  | _ => nomatch ht

end Node

namespace Expr

/-- The code of a tree, with a gap where the context stands. -/
def template : Expr → Template :=
  fold Node.template

theorem template_eq (e : Expr) : e.template = (e.toNode.mapOperands template).template := by
  have hfold := fold_ofNode Node.template e.toNode
  rwa [ofNode_toNode] at hfold

/-- The code of a tree is its template, filled with the context. -/
theorem fill_template (context : String) (e : Expr) :
    e.template.fill context = e.render context := by
  have hvalue (value : Option Expr)
      (h : ∀ a, value = some a → a.template.fill context = a.render context) :
      ((value.map template).getD (.text "null")).fill context =
        value.elim "null" (render context) := by
    cases value with
    | none => rfl
    | some a => exact h a rfl
  induction e with
  | empty => rfl
  | literal value => rfl
  | identifier name =>
    rw [template_eq, render]
    simp only [toNode, Node.mapOperands, Node.template, fill]
    split <;> simp [String.append_assoc]
  | unary op a ih =>
    rw [template_eq, render]
    simp [toNode, Node.mapOperands, Node.template, ih]
  | binary op a b iha ihb =>
    rw [template_eq, render]
    simp only [toNode, Node.mapOperands, Node.template]
    split <;> simp [iha, ihb, String.append_assoc]
  | getter a name ih =>
    rw [template_eq, render]
    simp [toNode, Node.mapOperands, Node.template, ih, String.append_assoc]
  | invoke a method args iha ihargs =>
    rw [template_eq]
    cases args with
    | none =>
      rw [render]
      simp [toNode, Node.mapOperands, Node.template, fill_intercalate, iha, String.append_assoc]
    | some args =>
      have hargs : (args.map template).map (fill context) = args.map (render context) := by
        rw [List.map_map]
        exact List.map_congr_left ihargs
      rw [render, renderArguments_eq_map, ← hargs]
      simp [toNode, Node.mapOperands, Node.template, fill_intercalate, iha, String.append_assoc]
  | paren a ih =>
    rw [template_eq, render]
    simp [toNode, Node.mapOperands, Node.template, ih]
  | index a b iha ihb =>
    rw [template_eq, render]
    simp [toNode, Node.mapOperands, Node.template, iha, ihb]
  | ternary a b c iha ihb ihc =>
    rw [template_eq, render]
    simp [toNode, Node.mapOperands, Node.template, iha, ihb, ihc]
  | map entries ih =>
    rw [template_eq, render, renderEntries_eq_map]
    simp only [toNode, Node.mapOperands, Node.template, fill_append, fill_text, fill_intercalate,
      List.map_map]
    refine congrArg (fun texts => "\x7b" ++ ", ".intercalate texts ++ "\x7d") ?_
    refine List.map_congr_left fun entry hentry => ?_
    rw [← hvalue entry.2 fun a ha => ih entry.1 a (ha ▸ hentry)]
    simp only [Function.comp_apply, fill_append, fill_text]
  | list items ih =>
    have hitems := List.map_congr_left fun item hitem => hvalue item fun a ha => ih a (ha ▸ hitem)
    rw [template_eq, render, renderItems_eq_map, ← hitems]
    simp [toNode, Node.mapOperands, Node.template, fill_intercalate, Function.comp_def]

theorem gaps_template (e : Expr) : e.template.gaps = e.nameCount := by
  induction e using operandInduction with
  | h e ih =>
    rw [template_eq, nameCount_eq, Node.gaps_template, Node.mapOperands_mapOperands,
      Node.mapOperands_congr (f := gaps ∘ template) ih]

theorem holds_template {a e : Expr} {word : String} (ha : a.Occurs e)
    (hword : word ∈ a.toNode.words) : e.template.Holds word := by
  induction ha with
  | root =>
    rw [template_eq]
    exact Node.holds_words (by rwa [Node.words_mapOperands])
  | @operand b e _ hb ih =>
    rw [template_eq]
    refine Node.holds_operand ?_ ih
    rw [Node.operands_mapOperands]
    exact List.mem_map_of_mem hb

/-- The texts of the code that the context stands between. -/
def segments (e : Expr) : List String :=
  e.template.segments

/-- **Where the context stands.**  The code of a tree is a list of texts with the context between
them.  There is one more of them than there are bare names in the tree, no other texts have this
property for every context, and every word that the user has a say in stands inside of one of
them. -/
theorem render_eq_intercalate_segments (e : Expr) :
    e.segments.length = e.nameCount + 1 ∧
      (∀ context : String, e.render context = context.intercalate e.segments) ∧
      (∀ texts : List String, texts ≠ [] →
        (∀ context : String, e.render context = context.intercalate texts) → texts = e.segments) ∧
      ∀ a : Expr, a.Occurs e → ∀ word ∈ a.toNode.words,
        ∃ s ∈ e.segments, word.toList <:+: s.toList := by
  refine ⟨?_, fun context => ?_, fun texts hne h => ?_, fun a ha word hword => ?_⟩
  · rw [segments, length_segments, gaps_template]
  · rw [← fill_template, fill_eq_intercalate, segments]
  · obtain ⟨t, rfl⟩ := exists_segments_eq hne
    have hfill (context : String) : t.fill context = e.template.fill context := by
      rw [fill_template, h, fill_eq_intercalate]
    rw [eq_of_fill_eq (hfill "a") (hfill "b"), segments]
  · exact holds_template ha hword

end Expr

end Binding
