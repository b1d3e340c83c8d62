import Binding.Proofs.Expr.Traversal

/-!
# Trees, node by node

The operands of a tree stand below options, pairs and lists, so that recursion on trees takes four
functions where one is meant.  This module pays for that once: an induction principle in which the
operands of a call, a map or a list are simply its members, and the equation that says what a fold
makes of a node.

For a single layer there are the laws of a functor: what `mapOperands` makes of a node depends on
the operands only.

A condition on the root of a tree and the roots of its operands holds *everywhere* in a tree if it
holds of every tree that occurs in it.

## Main results

* `Node.mapOperands_mapOperands`, `Node.mapOperands_congr`: one layer, with other operands.
* `Expr.treeInduction`: what holds of a tree if it holds of its operands holds of every tree.
* `Expr.fold_ofNode`: the fold of a tree is the node of the folds of its operands.
* `Expr.everywhere_iff`: a condition holds everywhere if it holds of the root and everywhere in the
  operands; by `Expr.iff_everywhere` nothing else does.
-/

namespace Binding

namespace Node

variable {α β γ : Type}

/-! ### Nodes with other operands -/

theorem mapOperands_mapOperands (f : α → β) (g : β → γ) (node : Node α) :
    (node.mapOperands f).mapOperands g = node.mapOperands (g ∘ f) := by
  cases node with
  | invoke receiver method arguments => cases arguments <;> simp [mapOperands]
  | map entries => simp [mapOperands]
  | list items => simp [mapOperands]
  | _ => rfl

theorem operands_mapOperands (f : α → β) (node : Node α) :
    (node.mapOperands f).operands = node.operands.map f := by
  cases node with
  | invoke receiver method arguments => cases arguments <;> simp [mapOperands, operands]
  | map entries =>
    simp only [mapOperands, operands, List.map_filterMap, List.filterMap_map]
    rfl
  | list items => simp [mapOperands, operands, List.map_filterMap, List.filterMap_map]
  | _ => rfl

/-- Only what becomes of the operands matters. -/
theorem mapOperands_congr {f g : α → β} {node : Node α} (h : ∀ a ∈ node.operands, f a = g a) :
    node.mapOperands f = node.mapOperands g := by
  have hmap (value : Option α) (hvalue : ∀ a, value = some a → f a = g a) :
      value.map f = value.map g := by
    cases value with
    | none => rfl
    | some a => rw [Option.map_some, Option.map_some, hvalue a rfl]
  cases node with
  | invoke receiver method arguments =>
    have hreceiver : f receiver = g receiver := h receiver List.mem_cons_self
    cases arguments with
    | none => rw [mapOperands, mapOperands, hreceiver, Option.map_none, Option.map_none]
    | some args =>
      have hargs : args.map f = args.map g :=
        List.map_congr_left fun a ha => h a (List.mem_cons_of_mem _ ha)
      rw [mapOperands, mapOperands, hreceiver, Option.map_some, Option.map_some, hargs]
  | map entries =>
    rw [mapOperands, mapOperands, map.injEq]
    refine List.map_congr_left fun entry hentry => Prod.ext rfl (hmap _ fun a ha => ?_)
    exact h a (List.mem_filterMap.2 ⟨entry, hentry, ha⟩)
  | list items =>
    rw [mapOperands, mapOperands, list.injEq]
    refine List.map_congr_left fun item hitem => hmap _ fun a ha => ?_
    exact h a (List.mem_filterMap.2 ⟨item, hitem, ha⟩)
  | _ => simp_all [mapOperands, operands]

/-- A node whose operands stay as they are. -/
theorem mapOperands_eq_self {f : α → α} {node : Node α} (h : ∀ a ∈ node.operands, f a = a) :
    node.mapOperands f = node := by
  have hid : node.mapOperands id = node := by
    cases node with
    | invoke receiver method arguments => cases arguments <;> simp [mapOperands]
    | _ => simp [mapOperands]
  rw [mapOperands_congr (g := id) h, hid]

end Node

namespace Expr

/-! ### Induction -/

section Induction

set_option linter.unusedSectionVars false

variable {motive : Expr → Prop} (empty : motive .empty)
  (literal : ∀ value, motive (.literal value)) (identifier : ∀ name, motive (.identifier name))
  (unary : ∀ op a, motive a → motive (.unary op a))
  (binary : ∀ op a b, motive a → motive b → motive (.binary op a b))
  (getter : ∀ a name, motive a → motive (.getter a name))
  (invoke : ∀ a method args, motive a → (∀ b ∈ args.getD [], motive b) →
    motive (.invoke a method args))
  (paren : ∀ a, motive a → motive (.paren a))
  (index : ∀ a b, motive a → motive b → motive (.index a b))
  (ternary : ∀ a b c, motive a → motive b → motive c → motive (.ternary a b c))
  (map : ∀ entries, (∀ key a, (key, some a) ∈ entries → motive a) → motive (.map entries))
  (list : ∀ items, (∀ a, some a ∈ items → motive a) → motive (.list items))

include empty literal identifier unary binary getter invoke paren index ternary map list

mutual

/-- **Induction over trees.**  Arguments, values and items are met as members of their lists. -/
@[elab_as_elim, induction_eliminator]
theorem treeInduction : (e : Expr) → motive e
  | .empty => empty
  | .literal value => literal value
  | .identifier name => identifier name
  | .unary op a => unary op a (treeInduction a)
  | .binary op a b => binary op a b (treeInduction a) (treeInduction b)
  | .getter a name => getter a name (treeInduction a)
  | .invoke a method none => invoke a method none (treeInduction a) nofun
  | .invoke a method (some args) =>
    invoke a method (some args) (treeInduction a) (treeInductionArguments args)
  | .paren a => paren a (treeInduction a)
  | .index a b => index a b (treeInduction a) (treeInduction b)
  | .ternary a b c => ternary a b c (treeInduction a) (treeInduction b) (treeInduction c)
  | .map entries => map entries (treeInductionEntries entries)
  | .list items => list items (treeInductionItems items)

theorem treeInductionArguments : (args : List Expr) → ∀ a ∈ args, motive a
  | [] => nofun
  | a :: rest => List.forall_mem_cons.2 ⟨treeInduction a, treeInductionArguments rest⟩

theorem treeInductionEntries : (entries : List (String × Option Expr)) →
    ∀ key a, (key, some a) ∈ entries → motive a
  | [], _, _, h => nomatch h
  | (_, none) :: rest, key, a, h => by
    have hrest : (key, some a) ∈ rest := by simpa using h
    exact treeInductionEntries rest key a hrest
  | (_, some b) :: rest, key, a, h => by
    rcases List.mem_cons.1 h with heq | hrest
    · rw [Option.some.inj (Prod.mk.inj heq).2]
      exact treeInduction b
    · exact treeInductionEntries rest key a hrest

theorem treeInductionItems : (items : List (Option Expr)) → ∀ a, some a ∈ items → motive a
  | [], _, h => nomatch h
  | none :: rest, a, h => by
    have hrest : some a ∈ rest := by simpa using h
    exact treeInductionItems rest a hrest
  | some b :: rest, a, h => by
    rcases List.mem_cons.1 h with heq | hrest
    · rw [Option.some.inj heq]
      exact treeInduction b
    · exact treeInductionItems rest a hrest

end

end Induction

/-! ### Folds -/

section Fold

variable {α : Type} (f : Node α → α)

theorem foldArguments_eq_map (args : List Expr) : foldArguments f args = args.map (fold f) := by
  induction args with
  | nil => rfl
  | cons a rest ih => rw [foldArguments, ih, List.map_cons]

theorem foldEntries_eq_map (entries : List (String × Option Expr)) :
    foldEntries f entries = entries.map fun (key, value) => (key, value.map (fold f)) := by
  induction entries with
  | nil => rfl
  | cons entry rest ih =>
    obtain ⟨key, value⟩ := entry
    cases value <;> rw [foldEntries, ih] <;> rfl

theorem foldItems_eq_map (items : List (Option Expr)) :
    foldItems f items = items.map (·.map (fold f)) := by
  induction items with
  | nil => rfl
  | cons item rest ih => cases item <;> rw [foldItems, ih] <;> rfl

/-- **The fold of a tree** is what the function makes of the folds of its operands. -/
theorem fold_ofNode (node : Node Expr) : fold f (.ofNode node) = f (node.mapOperands (fold f)) := by
  cases node with
  | invoke receiver method args =>
    cases args with
    | none => rfl
    | some args => rw [ofNode, fold, foldArguments_eq_map]; rfl
  | map entries => rw [ofNode, fold, foldEntries_eq_map]; rfl
  | list items => rw [ofNode, fold, foldItems_eq_map]; rfl
  | _ => rfl

end Fold

/-! ### Conditions on every node -/

/-- The first tree is the second one or stands somewhere inside it. -/
inductive Occurs (a : Expr) : Expr → Prop
  | root : Occurs a a
  | operand {b e : Expr} : Occurs a b → b ∈ e.toNode.operands → Occurs a e

/-- The condition holds of every tree that occurs in the tree. -/
def Everywhere (P : Expr → Prop) (e : Expr) : Prop :=
  ∀ a : Expr, a.Occurs e → P a

theorem everywhere_iff {P : Expr → Prop} {e : Expr} :
    e.Everywhere P ↔ P e ∧ ∀ a ∈ e.toNode.operands, a.Everywhere P := by
  constructor
  · intro h
    exact ⟨h e .root, fun a ha b hb => h b (.operand hb ha)⟩
  · rintro ⟨hroot, hoperands⟩ b hb
    cases hb with
    | root => exact hroot
    | operand hb ha => exact hoperands _ ha b hb

/-- What holds of a tree if it holds of its operands holds of every tree. -/
theorem operandInduction {motive : Expr → Prop}
    (h : ∀ e, (∀ a ∈ e.toNode.operands, motive a) → motive e) (e : Expr) : motive e := by
  induction e with
  | map entries ih =>
    refine h _ fun a ha => ?_
    obtain ⟨key, hentry⟩ : ∃ key, (key, some a) ∈ entries := by
      simpa [toNode, Node.operands] using ha
    exact ih key a hentry
  | list items ih =>
    refine h _ fun a ha => ih a ?_
    simpa [toNode, Node.operands] using ha
  | unary op a ih => exact h _ (List.forall_mem_singleton.2 ih)
  | getter a name ih => exact h _ (List.forall_mem_singleton.2 ih)
  | paren a ih => exact h _ (List.forall_mem_singleton.2 ih)
  | binary op a b iha ihb => exact h _ (by simp [toNode, Node.operands, iha, ihb])
  | index a b iha ihb => exact h _ (by simp [toNode, Node.operands, iha, ihb])
  | ternary a b c iha ihb ihc => exact h _ (by simp [toNode, Node.operands, iha, ihb, ihc])
  | invoke a method args iha ihargs => exact h _ (List.forall_mem_cons.2 ⟨iha, ihargs⟩)
  | _ => exact h _ nofun

/-- A property that a tree has if its root meets a condition and its operands have the property is
the condition, everywhere. -/
theorem iff_everywhere {P Q : Expr → Prop}
    (h : ∀ e, Q e ↔ P e ∧ ∀ a ∈ e.toNode.operands, Q a) (e : Expr) : Q e ↔ e.Everywhere P := by
  induction e using operandInduction with
  | h e ih =>
    rw [h, everywhere_iff]
    exact and_congr_right fun _ => forall₂_congr ih

theorem Everywhere.root {P : Expr → Prop} {e : Expr} (h : e.Everywhere P) : P e :=
  h e .root

theorem Everywhere.occurs {P : Expr → Prop} {e a : Expr} (h : e.Everywhere P)
    (ha : a.Occurs e) : a.Everywhere P := by
  induction ha with
  | root => exact h
  | operand _ hb ih => exact ih ((everywhere_iff.1 h).2 _ hb)

theorem not_everywhere_iff {P : Expr → Prop} {e : Expr} :
    ¬e.Everywhere P ↔ ∃ a : Expr, a.Occurs e ∧ ¬P a := by
  simp only [Everywhere, Classical.not_forall, exists_prop]

theorem Everywhere.operand {P : Expr → Prop} {e a : Expr} (h : e.Everywhere P)
    (ha : a ∈ e.toNode.operands) : a.Everywhere P :=
  (everywhere_iff.1 h).2 a ha

end Expr

end Binding
