import Binding.Json.Basic
import Mathlib.Data.List.Forall2

/-!
# When documents are equal

Two documents can be the same piece of data, or they can be equal *as values*: then doubles are
compared as numbers, so that zero is negative zero, and the fields of an object are looked up by
name, so that their order does not matter.

What tells documents apart is the same for both notions, and `Json.Equality` states it once: the
null document and strings are told apart from everything else, arrays are compared item by item,
and equal objects have equal fields of the same names.  What is proved from these laws holds of
either notion.

## Main results

* `Json.equality_eq` and `Json.equality_equal`: both notions obey the laws.
* `Json.Equality.object_iff`: objects with the same names in the same order are compared value by
  value.
-/

namespace Binding.Json

mutual

/-- Whether the documents are equal as values. -/
def equal : Json → Json → Bool
  | .null, .null => true
  | .boolean a, .boolean b => a == b
  | .integer a, .integer b => a == b
  | .float a, .float b => a == b
  | .string a, .string b => a == b
  | .array as, .array bs => equalItems as bs
  | .object fs, .object gs => equalFields fs gs && gs.all fun g => (fs.lookup g.1).isSome
  | _, _ => false

/-- Whether the items are equal one by one. -/
def equalItems : List Json → List Json → Bool
  | [], [] => true
  | a :: as, b :: bs => equal a b && equalItems as bs
  | _, _ => false

/-- Whether each of the first fields is equal to the field of its name among the others. -/
def equalFields : List (String × Json) → List (String × Json) → Bool
  | [], _ => true
  | (name, a) :: fs, gs =>
    (match gs.lookup name with
      | some b => equal a b
      | none => false) && equalFields fs gs

end

/-- What a notion of equality tells apart, and what it may not. -/
structure Equality (E : Json → Json → Prop) : Prop where
  null_left {b : Json} : E .null b ↔ b = .null
  null_right {a : Json} : E a .null ↔ a = .null
  string {a b : String} : E (.string a) (.string b) ↔ a = b
  array {as bs : List Json} : E (.array as) (.array bs) ↔ List.Forall₂ E as bs
  object {fs gs : List (String × Json)} : (fs.map Prod.fst).Nodup →
    List.Forall₂ (fun f g => f.1 = g.1 ∧ E f.2 g.2) fs gs → E (.object fs) (.object gs)
  lookup {fs gs : List (String × Json)} : E (.object fs) (.object gs) →
    ∀ name, Option.Rel E (fs.lookup name) (gs.lookup name)

/-- If no name occurs twice, every field is found. -/
theorem lookup_of_mem {fs : List (String × Json)} (hnodup : (fs.map Prod.fst).Nodup)
    {f : String × Json} (hf : f ∈ fs) : fs.lookup f.1 = some f.2 := by
  induction fs with
  | nil => nomatch hf
  | cons g fs ih =>
    rw [List.map_cons, List.nodup_cons] at hnodup
    rcases List.mem_cons.1 hf with rfl | hf
    · exact List.lookup_cons_self
    · have hne : (f.1 == g.1) = false :=
        beq_false_of_ne fun heq => hnodup.1 (heq ▸ List.mem_map_of_mem hf)
      rw [List.lookup_cons, hne]
      exact ih hnodup.2 hf

/-- Fields that are related one by one are related however they are looked up. -/
theorem lookup_of_forall₂ {E : Json → Json → Prop} {fs gs : List (String × Json)}
    (h : List.Forall₂ (fun f g => f.1 = g.1 ∧ E f.2 g.2) fs gs) (name : String) :
    Option.Rel E (fs.lookup name) (gs.lookup name) := by
  induction h with
  | nil => exact .none
  | @cons f g fs gs hfg _ ih =>
    rw [List.lookup_cons, List.lookup_cons, hfg.1]
    split
    · exact .some hfg.2
    · exact ih

/-! ### The same data -/

theorem equality_eq : Equality Eq where
  null_left := eq_comm
  null_right := Iff.rfl
  string := by simp
  array {as bs} := by rw [List.forall₂_eq_eq_eq, array.injEq]
  object _ h := by
    have heq : (fun f g : String × Json => f.1 = g.1 ∧ f.2 = g.2) = Eq := by
      funext f g
      exact propext Prod.ext_iff.symm
    rw [heq, List.forall₂_eq_eq_eq] at h
    rw [h]
  lookup {fs gs} h name := by
    rw [object.inj h]
    cases gs.lookup name with
    | none => exact .none
    | some a => exact .some rfl

/-! ### Equality as values -/

theorem equalItems_iff {as bs : List Json} :
    equalItems as bs = true ↔ List.Forall₂ (fun a b => equal a b = true) as bs := by
  induction as generalizing bs with
  | nil => cases bs <;> simp [equalItems]
  | cons a as ih => cases bs <;> simp [equalItems, ih]

theorem equalFields_iff {fs gs : List (String × Json)} :
    equalFields fs gs = true ↔ ∀ f ∈ fs, ∃ b, gs.lookup f.1 = some b ∧ equal f.2 b = true := by
  induction fs with
  | nil => simp [equalFields]
  | cons f fs ih =>
    obtain ⟨name, a⟩ := f
    rw [equalFields, Bool.and_eq_true, ih, List.forall_mem_cons]
    cases gs.lookup name <;> simp

theorem equality_equal : Equality fun a b => equal a b = true where
  null_left {b} := by cases b <;> simp [equal]
  null_right {a} := by cases a <;> simp [equal]
  string := by simp [equal]
  array := by simp [equal, equalItems_iff]
  object {fs gs} hnodup h := by
    have hlookup := lookup_of_forall₂ (E := fun a b => equal a b = true) h
    rw [equal, Bool.and_eq_true, equalFields_iff, List.all_eq_true]
    constructor
    · intro f hf
      have hrel := hlookup f.1
      rw [lookup_of_mem hnodup hf] at hrel
      generalize gs.lookup f.1 = x at hrel ⊢
      cases hrel with
      | some hequal => exact ⟨_, rfl, hequal⟩
    · intro g hg
      have hsome : (gs.lookup g.1).isSome := List.lookup_isSome_iff.2 ⟨g, hg, beq_self_eq_true _⟩
      have hrel := hlookup g.1
      generalize fs.lookup g.1 = x, gs.lookup g.1 = y at hsome hrel
      cases hrel with
      | some _ => rfl
      | none => nomatch hsome
  lookup {fs gs} h name := by
    rw [equal, Bool.and_eq_true, equalFields_iff, List.all_eq_true] at h
    obtain ⟨hfields, hall⟩ := h
    cases ha : fs.lookup name with
    | some a =>
      obtain ⟨before, after, rfl, -⟩ := List.lookup_eq_some_iff.1 ha
      obtain ⟨b, hb, hequal⟩ := hfields (name, a) (by simp)
      rw [hb]
      exact .some hequal
    | none =>
      cases hb : gs.lookup name with
      | none => exact .none
      | some b =>
        obtain ⟨before, after, rfl, -⟩ := List.lookup_eq_some_iff.1 hb
        have hsome := hall (name, b) (by simp)
        simp [ha] at hsome

/-! ### Objects with the same names -/

theorem forall₂_fields_iff {E : Json → Json → Prop} {fs gs : List (String × Json)} :
    List.Forall₂ (fun f g => f.1 = g.1 ∧ E f.2 g.2) fs gs ↔
      fs.map Prod.fst = gs.map Prod.fst ∧ List.Forall₂ E (fs.map Prod.snd) (gs.map Prod.snd) := by
  induction fs generalizing gs with
  | nil => cases gs <;> simp
  | cons f fs ih => cases gs <;> simp [ih]; tauto

/-- Objects with the same names in the same order are compared value by value. -/
theorem Equality.object_iff {E : Json → Json → Prop} (h : Equality E)
    {fs gs : List (String × Json)} (hnodup : (fs.map Prod.fst).Nodup)
    (hnames : fs.map Prod.fst = gs.map Prod.fst) :
    E (.object fs) (.object gs) ↔ List.Forall₂ E (fs.map Prod.snd) (gs.map Prod.snd) := by
  constructor
  · intro heq
    rw [List.forall₂_iff_get]
    have hlength : fs.length = gs.length := by simpa using congrArg List.length hnames
    refine ⟨by simpa using hlength, fun i hi hi' => ?_⟩
    rw [List.length_map] at hi hi'
    have hname : fs[i].1 = gs[i].1 := by
      simpa [hi, hi'] using congrArg (·[i]?) hnames
    have hrel := h.lookup heq fs[i].1
    rw [lookup_of_mem hnodup (List.getElem_mem hi), hname,
      lookup_of_mem (hnames ▸ hnodup) (List.getElem_mem hi')] at hrel
    cases hrel with
    | some hvalue => simpa using hvalue
  · intro hvalues
    exact h.object hnodup (forall₂_fields_iff.2 ⟨hnames, hvalues⟩)

end Binding.Json
