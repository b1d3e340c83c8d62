import Binding.Expr.Dump
import Binding.Proofs.Expr.Everywhere
import Binding.Proofs.Json.Equality

/-!
# What the dump of a tree tells

A dump does not keep the numbers of a tree as they are: a decimal with a fraction becomes a double,
and digits that fit no decimal become a string.  So different trees can have the same dump, but they
differ in their constants only.

## What could be confused

Four things are written as `null`: an item left out, a key without a value, a call without a method
and a call without arguments.  The first two stand where an operand could stand, and the document
of an operand is an object, never `null`.  The last stands where a list of arguments could, and an
empty list is written as an empty array.  The constant `null` is none of these, as it has a node of
its own.

Kinds of nodes cannot be confused because the field `type` is looked up by name.  Once the kinds are
the same, both documents have the same names in the same order, and are compared field by field.

## Main results

* `Node.blanked_mapOperands_eq_iff` and `Node.object_fields_iff_shape`: one layer, first for trees
  without their constants and then for documents.
* `Expr.toJson_iff`: the same for whole trees, for every notion of equality of documents.
* `Expr.dump_eq_iff`: its two cases.
-/

namespace Binding

namespace Node

variable {α β γ : Type}

/-! ### Nodes without their operands -/

/-- The constant of the node, if it is one. -/
def literals : Node α → List Literal
  | .literal value => [value]
  | _ => []

/-- The node with `null` for its constant. -/
def blanked : Node α → Node α
  | .literal _ => .literal .null
  | node => node

/-- The node without its operands and its constant. -/
def shape (node : Node α) : Node Unit :=
  node.blanked.mapOperands fun _ => ()

@[simp] theorem kind_blanked (node : Node α) : node.blanked.kind = node.kind := by
  cases node <;> rfl

@[simp] theorem kind_shape (node : Node α) : node.shape.kind = node.kind := by
  rw [shape, kind_mapOperands, kind_blanked]

/-- Two nodes of one kind, kind by kind. -/
@[elab_as_elim]
theorem sameKind {motive : (m : Node α) → (n : Node β) → m.kind = n.kind → Prop}
    (empty : motive .empty .empty rfl)
    (literal : ∀ v w, motive (.literal v) (.literal w) rfl)
    (identifier : ∀ v w, motive (.identifier v) (.identifier w) rfl)
    (unary : ∀ op op' a b, motive (.unary op a) (.unary op' b) rfl)
    (binary : ∀ op op' a a' b b', motive (.binary op a a') (.binary op' b b') rfl)
    (getter : ∀ a b v w, motive (.getter a v) (.getter b w) rfl)
    (invoke : ∀ a b v w as bs, motive (.invoke a v as) (.invoke b w bs) rfl)
    (paren : ∀ a b, motive (.paren a) (.paren b) rfl)
    (index : ∀ a a' b b', motive (.index a a') (.index b b') rfl)
    (ternary : ∀ a a' a'' b b' b'', motive (.ternary a a' a'') (.ternary b b' b'') rfl)
    (map : ∀ as bs, motive (.map as) (.map bs) rfl)
    (list : ∀ as bs, motive (.list as) (.list bs) rfl)
    (m : Node α) (n : Node β) (h : m.kind = n.kind) : motive m n h := by
  have hkind := h
  cases m <;> cases n <;> simp only [kind, String.reduceEq] at hkind
  -- Only the pairs of one kind are left.
  · exact empty
  · exact literal _ _
  · exact identifier _ _
  · exact unary _ _ _ _
  · exact binary _ _ _ _ _ _
  · exact getter _ _ _ _
  · exact invoke _ _ _ _ _ _
  · exact paren _ _
  · exact index _ _ _ _
  · exact ternary _ _ _ _ _ _
  · exact map _ _
  · exact list _ _

/-! ### Nodes with their operands -/

section Holes

variable {R S : α → β → Prop}

theorem forall₂_congr_of_mem {as : List α} {bs : List β}
    (h : ∀ a ∈ as, ∀ b ∈ bs, (R a b ↔ S a b)) : List.Forall₂ R as bs ↔ List.Forall₂ S as bs := by
  induction as generalizing bs with
  | nil => cases bs <;> simp
  | cons a as ih =>
    cases bs with
    | nil => simp
    | cons b bs =>
      rw [List.forall₂_cons, List.forall₂_cons, h a (by simp) b (by simp), ih fun a ha b hb =>
        h a (List.mem_cons_of_mem _ ha) b (List.mem_cons_of_mem _ hb)]

theorem rel_arguments_iff {as : Option (List α)} {bs : Option (List β)} :
    Option.Rel (List.Forall₂ R) as bs ↔
      as.map (·.map fun _ => ()) = bs.map (·.map fun _ => ()) ∧
        List.Forall₂ R (as.getD []) (bs.getD []) := by
  have hlength {as : List α} {bs : List β} (h : List.Forall₂ R as bs) :
      as.map (fun _ => ()) = bs.map (fun _ => ()) := by
    rw [List.map_const', List.map_const', h.length_eq]
  cases as with
  | none => cases bs <;> simp
  | some as =>
    cases bs with
    | none => simp
    | some bs => simpa using hlength

theorem forall₂_items_iff {as : List (Option α)} {bs : List (Option β)} :
    List.Forall₂ (Option.Rel R) as bs ↔
      as.map (·.map fun _ => ()) = bs.map (·.map fun _ => ()) ∧
        List.Forall₂ R (as.filterMap id) (bs.filterMap id) := by
  induction as generalizing bs with
  | nil => cases bs <;> simp
  | cons a as ih =>
    cases bs with
    | nil => simp
    | cons b bs =>
      rw [List.forall₂_cons, ih]
      cases a <;> cases b <;> simp [and_left_comm]

theorem forall₂_entries_iff {as : List (String × Option α)} {bs : List (String × Option β)} :
    List.Forall₂ (fun a b => a.1 = b.1 ∧ Option.Rel R a.2 b.2) as bs ↔
      as.map (fun a => (a.1, a.2.map fun _ => ())) = bs.map (fun b => (b.1, b.2.map fun _ => ())) ∧
        List.Forall₂ R (as.filterMap (·.2)) (bs.filterMap (·.2)) := by
  induction as generalizing bs with
  | nil => cases bs <;> simp
  | cons a as ih =>
    cases bs with
    | nil => simp
    | cons b bs =>
      obtain ⟨key, a⟩ := a
      obtain ⟨key', b⟩ := b
      rw [List.forall₂_cons, ih]
      cases a <;> cases b <;> simp [and_assoc, and_left_comm]

end Holes

theorem map_eq_map_iff {f : α → γ} {g : β → γ} {as : List α} {bs : List β} :
    as.map f = bs.map g ↔ List.Forall₂ (fun a b => f a = g b) as bs := by
  rw [← List.forall₂_eq_eq_eq, List.forall₂_map_left_iff, List.forall₂_map_right_iff]

theorem optionMap_eq_iff {f : α → γ} {g : β → γ} {a : Option α} {b : Option β} :
    a.map f = b.map g ↔ Option.Rel (fun a b => f a = g b) a b := by
  cases a <;> cases b <;> simp

/-- Two nodes without their constants are equal if they have the same shape and equal operands. -/
theorem blanked_mapOperands_eq_iff {f : α → γ} {g : β → γ} {m : Node α} {n : Node β} :
    (m.mapOperands f).blanked = (n.mapOperands g).blanked ↔
      m.shape = n.shape ∧ List.Forall₂ (fun a b => f a = g b) m.operands n.operands := by
  by_cases hkind : m.kind = n.kind
  · induction m, n, hkind using sameKind with
    | invoke a b v w as bs =>
      have hargs : as.map (·.map f) = bs.map (·.map g) ↔
          Option.Rel (List.Forall₂ fun a b => f a = g b) as bs := by
        simp only [optionMap_eq_iff, map_eq_map_iff]
      simp only [mapOperands, blanked, shape, operands, invoke.injEq, hargs, rel_arguments_iff,
        List.forall₂_cons, true_and]
      tauto
    | map as bs =>
      have hentries : as.map (fun a => (a.1, a.2.map f)) = bs.map (fun b => (b.1, b.2.map g)) ↔
          List.Forall₂ (fun a b => a.1 = b.1 ∧ Option.Rel (fun a b => f a = g b) a.2 b.2)
            as bs := by
        simp only [map_eq_map_iff, Prod.mk.injEq, optionMap_eq_iff]
      rw [forall₂_entries_iff] at hentries
      simpa only [mapOperands, blanked, shape, operands, map.injEq] using hentries
    | list as bs =>
      have hitems : as.map (·.map f) = bs.map (·.map g) ↔
          List.Forall₂ (Option.Rel fun a b => f a = g b) as bs := by
        simp only [map_eq_map_iff, optionMap_eq_iff]
      rw [forall₂_items_iff] at hitems
      simpa only [mapOperands, blanked, shape, operands, list.injEq] using hitems
    | _ => simp [mapOperands, blanked, shape, operands, and_comm]
  · refine iff_of_false (fun h => hkind ?_) (fun h => hkind ?_)
    · simpa using congrArg kind h
    · simpa using congrArg kind h.1

/-! ### The document of a node -/

/-- The fields of the document of a node whose operands are documents. -/
def fields : Node Json → List (String × Json)
  | e@.empty => [("type", .string e.kind)]
  | e@(.literal value) => [("type", .string e.kind), ("value", value.toJson)]
  | e@(.identifier name) => [("type", .string e.kind), ("value", .string name)]
  | e@(.unary op operand) =>
    [("child", operand), ("operator", .string op.spelling), ("type", .string e.kind)]
  | e@(.binary op left right) =>
    [("left", left), ("operator", .string op.spelling), ("right", right),
      ("type", .string e.kind)]
  | e@(.getter receiver name) =>
    [("name", .string name), ("receiver", receiver), ("type", .string e.kind)]
  | e@(.invoke receiver method args) =>
    [("arguments", args.elim .null .array), ("method", .ofString? method),
      ("receiver", receiver), ("type", .string e.kind)]
  | e@(.paren child) => [("child", child), ("type", .string e.kind)]
  | e@(.index receiver argument) =>
    [("argument", argument), ("receiver", receiver), ("type", .string e.kind)]
  | e@(.ternary condition whenTrue whenFalse) =>
    [("condition", condition), ("falseExpr", whenFalse), ("trueExpr", whenTrue),
      ("type", .string e.kind)]
  | e@(.map entries) =>
    [("entries", .array (entries.map fun (key, value) =>
      .object [("key", .string key), ("value", value.getD .null)])), ("type", .string e.kind)]
  | e@(.list items) =>
    [("items", .array (items.map (·.getD .null))), ("type", .string e.kind)]

theorem lookup_type_fields (node : Node Json) :
    node.fields.lookup "type" = some (.string node.kind) := by
  cases node <;> rfl

theorem nodup_fields (node : Node Json) : (node.fields.map Prod.fst).Nodup := by
  cases node <;> simp [fields]

/-- The kind decides the names of the fields. -/
theorem names_fields {m n : Node Json} (hkind : m.kind = n.kind) :
    m.fields.map Prod.fst = n.fields.map Prod.fst := by
  induction m, n, hkind using sameKind <;> rfl

section Equality

variable {E : Json → Json → Prop} (h : Json.Equality E)
include h

theorem object_fields_iff {m n : Node Json} :
    E (.object m.fields) (.object n.fields) ↔
      m.kind = n.kind ∧ List.Forall₂ E (m.fields.map Prod.snd) (n.fields.map Prod.snd) := by
  constructor
  · intro heq
    have hkind := h.lookup heq "type"
    rw [lookup_type_fields, lookup_type_fields, Option.rel_some_some, h.string] at hkind
    exact ⟨hkind, (h.object_iff m.nodup_fields (names_fields hkind)).1 heq⟩
  · rintro ⟨hkind, hvalues⟩
    exact (h.object_iff m.nodup_fields (names_fields hkind)).2 hvalues

theorem ofString?_iff {a b : Option String} : E (.ofString? a) (.ofString? b) ↔ a = b := by
  cases a <;> cases b <;> simp [Json.ofString?, h.null_left, h.null_right, h.string]

theorem elim_array_iff {as bs : Option (List Json)} :
    E (as.elim .null .array) (bs.elim .null .array) ↔ Option.Rel (List.Forall₂ E) as bs := by
  cases as <;> cases bs <;> simp [h.null_left, h.null_right, h.array]

/-- No operand is mistaken for a hole. -/
theorem hole_iff {v w : Option Json} (hv : v ≠ some .null) (hw : w ≠ some .null) :
    E (v.getD .null) (w.getD .null) ↔ Option.Rel E v w := by
  cases v <;> cases w <;> simp_all [h.null_left, h.null_right]

theorem entry_iff {a b : String × Option Json} (ha : a.2 ≠ some .null) (hb : b.2 ≠ some .null) :
    E (.object [("key", .string a.1), ("value", a.2.getD .null)])
        (.object [("key", .string b.1), ("value", b.2.getD .null)]) ↔
      a.1 = b.1 ∧ Option.Rel E a.2 b.2 := by
  rw [← hole_iff h ha hb, h.object_iff (by simp) (by simp)]
  simp [h.string]

/-- Two nodes have equal documents if they have the same shape, equal documents of their constants
and equal operands. -/
theorem object_fields_iff_shape {m n : Node Json} (hm : .null ∉ m.operands)
    (hn : .null ∉ n.operands) :
    E (.object m.fields) (.object n.fields) ↔ m.shape = n.shape ∧
      List.Forall₂ (fun v w => E v.toJson w.toJson) m.literals n.literals ∧
      List.Forall₂ E m.operands n.operands := by
  rw [object_fields_iff h]
  by_cases hkind : m.kind = n.kind
  · rw [and_iff_right hkind]
    induction m, n, hkind using sameKind with
    | unary op op' a b =>
      have hspelling : op.spelling = op'.spelling ↔ op = op' := by
        cases op <;> cases op' <;> decide
      simp [fields, kind, shape, blanked, mapOperands, literals, operands, h.string, hspelling,
        and_comm]
    | binary op op' a a' b b' =>
      have hspelling : op.spelling = op'.spelling ↔ op = op' := by
        cases op <;> cases op' <;> decide
      simp [fields, kind, shape, blanked, mapOperands, literals, operands, h.string, hspelling,
        and_left_comm]
    | invoke a b v w as bs =>
      simp only [fields, kind, shape, blanked, mapOperands, literals, operands, List.map_cons,
        List.map_nil, List.forall₂_cons, List.forall₂_nil_left_iff, invoke.injEq,
        elim_array_iff h, ofString?_iff h, rel_arguments_iff, h.string, true_and, and_true]
      tauto
    | map as bs =>
      have hentries := forall₂_congr_of_mem fun a ha b hb => entry_iff h
        (fun hnull => hm (List.mem_filterMap.2 ⟨a, ha, hnull⟩))
        (fun hnull => hn (List.mem_filterMap.2 ⟨b, hb, hnull⟩))
      simp only [fields, kind, shape, blanked, mapOperands, literals, operands, List.map_cons,
        List.map_nil, List.forall₂_cons, List.forall₂_nil_left_iff, map.injEq, h.string, h.array,
        List.forall₂_map_left_iff, List.forall₂_map_right_iff, hentries, forall₂_entries_iff,
        true_and, and_true]
    | list as bs =>
      have hitems := forall₂_congr_of_mem fun a ha b hb => hole_iff h (v := a) (w := b)
        (fun hnull => hm (List.mem_filterMap.2 ⟨a, ha, hnull⟩))
        (fun hnull => hn (List.mem_filterMap.2 ⟨b, hb, hnull⟩))
      simp only [fields, kind, shape, blanked, mapOperands, literals, operands, List.map_cons,
        List.map_nil, List.forall₂_cons, List.forall₂_nil_left_iff, list.injEq, h.string, h.array,
        List.forall₂_map_left_iff, List.forall₂_map_right_iff, hitems, forall₂_items_iff,
        true_and, and_true]
    | _ => simp [fields, kind, shape, blanked, mapOperands, literals, operands, h.string, and_comm]
  · refine iff_of_false (fun heq => hkind heq.1) (fun heq => hkind ?_)
    simpa using congrArg kind heq.1

end Equality

/-! ### What a change of the operands leaves alone -/

@[simp] theorem shape_mapOperands (f : α → β) (node : Node α) :
    (node.mapOperands f).shape = node.shape := by
  cases node <;> simp [mapOperands, shape, blanked, Function.comp_def]

@[simp] theorem literals_mapOperands (f : α → β) (node : Node α) :
    (node.mapOperands f).literals = node.literals := by
  cases node <;> rfl

@[simp] theorem operands_blanked (node : Node α) : node.blanked.operands = node.operands := by
  cases node <;> rfl

theorem length_literals_eq_of_shape {m n : Node α} (h : m.shape = n.shape) :
    m.literals.length = n.literals.length := by
  have hkind : m.kind = n.kind := by simpa using congrArg kind h
  induction m, n, hkind using sameKind <;> rfl

theorem literals_blanked (node : Node α) :
    node.blanked.literals = node.literals.map fun _ => .null := by
  cases node <;> rfl

end Node

namespace Expr

/-! ### The constants of a tree -/

/-- The tree with `null` for each of its constants. -/
def blanked : Expr → Expr :=
  fold fun node => .ofNode node.blanked

/-- The constants of the tree from left to right. -/
def literals : Expr → List Literal :=
  fold fun node => node.literals ++ node.operands.flatten

theorem blanked_eq (e : Expr) : e.blanked = .ofNode (e.toNode.mapOperands blanked).blanked := by
  conv_lhs => rw [← ofNode_toNode e, blanked, fold_ofNode]
  rfl

theorem literals_eq (e : Expr) :
    e.literals = e.toNode.literals ++ e.toNode.operands.flatMap literals := by
  conv_lhs => rw [← ofNode_toNode e, literals, fold_ofNode]
  rw [Node.literals_mapOperands, Node.operands_mapOperands, List.flatMap_def]
  rfl

theorem literals_blanked (e : Expr) : e.blanked.literals = e.literals.map fun _ => .null := by
  induction e using operandInduction with
  | h e ih =>
    rw [blanked_eq, literals_eq, literals_eq, toNode_ofNode, Node.operands_blanked,
      Node.literals_blanked, Node.literals_mapOperands, Node.operands_mapOperands,
      List.flatMap_map, List.map_append, List.map_flatMap]
    exact congrArg _ (List.flatMap_congr ih)

theorem argumentsToJson_eq_map (args : List Expr) : argumentsToJson args = args.map toJson := by
  induction args with
  | nil => rfl
  | cons a rest ih => rw [argumentsToJson, ih, List.map_cons]

theorem entriesToJson_eq_map (entries : List (String × Option Expr)) :
    entriesToJson entries = entries.map fun (key, value) =>
      .object [("key", .string key), ("value", (value.map toJson).getD .null)] := by
  induction entries with
  | nil => rfl
  | cons entry rest ih =>
    obtain ⟨key, value⟩ := entry
    cases value <;> rw [entriesToJson, ih] <;> rfl

theorem itemsToJson_eq_map (items : List (Option Expr)) :
    itemsToJson items = items.map fun item => (item.map toJson).getD .null := by
  induction items with
  | nil => rfl
  | cons item rest ih => cases item <;> rw [itemsToJson, ih] <;> rfl

/-- The document of a tree is that of its root, with the documents of the operands. -/
theorem toJson_eq_fields (e : Expr) : e.toJson = .object (e.toNode.mapOperands toJson).fields := by
  cases e with
  | invoke a method args =>
    cases args with
    | none => rfl
    | some args => rw [toJson, argumentsToJson_eq_map]; rfl
  | map entries =>
    rw [toJson, entriesToJson_eq_map]
    simp [toNode, Node.mapOperands, Node.fields, Function.comp_def]
    rfl
  | list items =>
    rw [toJson, itemsToJson_eq_map]
    simp [toNode, Node.mapOperands, Node.fields, Function.comp_def]
    rfl
  | _ => rfl

/-! ### Equal documents -/

/-- Two trees without their constants are equal if their roots have the same shape and their
operands without their constants are equal. -/
theorem blanked_eq_iff {a b : Expr} :
    a.blanked = b.blanked ↔ a.toNode.shape = b.toNode.shape ∧
      List.Forall₂ (fun a b => a.blanked = b.blanked) a.toNode.operands b.toNode.operands := by
  rw [← Node.blanked_mapOperands_eq_iff, blanked_eq, blanked_eq b]
  exact ⟨fun h => by simpa using congrArg toNode h, congrArg ofNode⟩

theorem length_literals_eq {a b : Expr} (h : a.blanked = b.blanked) :
    a.literals.length = b.literals.length := by
  have hlength := congrArg (fun e => e.literals.length) h
  simpa only [literals_blanked, List.length_map] using hlength

section Lists

variable {α β γ δ : Type} {R : γ → δ → Prop}

theorem forall₂_append_iff {cs cs' : List γ} {ds ds' : List δ} (hlength : cs.length = ds.length) :
    List.Forall₂ R (cs ++ cs') (ds ++ ds') ↔ List.Forall₂ R cs ds ∧ List.Forall₂ R cs' ds' := by
  induction cs generalizing ds with
  | nil =>
    rw [List.length_eq_zero_iff.1 hlength.symm]
    simp
  | cons c cs ih =>
    cases ds with
    | nil => nomatch hlength
    | cons d ds =>
      rw [List.cons_append, List.cons_append, List.forall₂_cons, List.forall₂_cons,
        ih (Nat.succ.inj hlength), and_assoc]

theorem forall₂_flatMap_iff {f : α → List γ} {g : β → List δ} {as : List α} {bs : List β}
    (hlength : List.Forall₂ (fun a b => (f a).length = (g b).length) as bs) :
    List.Forall₂ R (as.flatMap f) (bs.flatMap g) ↔
      List.Forall₂ (fun a b => List.Forall₂ R (f a) (g b)) as bs := by
  induction hlength with
  | nil => simp
  | cons hhead _ ih =>
    rw [List.flatMap_cons, List.flatMap_cons, forall₂_append_iff hhead, List.forall₂_cons, ih]

end Lists

/-- Two documents of trees are equal if the trees differ in their constants only, and the documents
of these are equal one by one. -/
theorem toJson_iff {E : Json → Json → Prop} (h : Json.Equality E) (a b : Expr) :
    E a.toJson b.toJson ↔ a.blanked = b.blanked ∧
      List.Forall₂ (fun v w => E v.toJson w.toJson) a.literals b.literals := by
  induction a using operandInduction generalizing b with
  | h a ih =>
    have hnull (e : Expr) : .null ∉ (e.toNode.mapOperands toJson).operands := by
      rw [Node.operands_mapOperands, List.mem_map]
      rintro ⟨b, -, hb⟩
      rw [toJson_eq_fields] at hb
      nomatch hb
    rw [toJson_eq_fields, toJson_eq_fields, Node.object_fields_iff_shape h (hnull a) (hnull b)]
    simp only [Node.shape_mapOperands, Node.literals_mapOperands, Node.operands_mapOperands,
      List.forall₂_map_left_iff, List.forall₂_map_right_iff]
    rw [Node.forall₂_congr_of_mem fun a' ha b' _ => ih a' ha b', blanked_eq_iff, literals_eq,
      literals_eq b]
    constructor
    · rintro ⟨hshape, hroot, hoperands⟩
      have hblanked := hoperands.imp fun _ _ h => h.1
      have hlength := hblanked.imp fun _ _ => length_literals_eq
      exact ⟨⟨hshape, hblanked⟩, (forall₂_append_iff hroot.length_eq).2
        ⟨hroot, (forall₂_flatMap_iff hlength).2 (hoperands.imp fun _ _ h => h.2)⟩⟩
    · rintro ⟨⟨hshape, hblanked⟩, hliterals⟩
      -- Both lists of constants fall into the same pieces, as there are as many on both sides.
      have hlength := hblanked.imp fun _ _ => length_literals_eq
      rw [forall₂_append_iff (Node.length_literals_eq_of_shape hshape),
        forall₂_flatMap_iff hlength] at hliterals
      exact ⟨hshape, hliterals.1, hblanked.mp (fun _ _ => And.intro) hliterals.2⟩

/-- **What the dump of a tree tells.**  Two trees have the same document, or documents that are
equal as values, if and only if they are the same tree up to their constants and the documents of
corresponding constants are equal in the same sense. -/
theorem dump_eq_iff (a b : Expr) :
    (a.toJson = b.toJson ↔ a.blanked = b.blanked ∧
      List.Forall₂ (fun v w => v.toJson = w.toJson) a.literals b.literals) ∧
    (a.toJson.equal b.toJson = true ↔ a.blanked = b.blanked ∧
      List.Forall₂ (fun v w => v.toJson.equal w.toJson = true) a.literals b.literals) :=
  ⟨toJson_iff Json.equality_eq a b, toJson_iff Json.equality_equal a b⟩

end Expr

end Binding
