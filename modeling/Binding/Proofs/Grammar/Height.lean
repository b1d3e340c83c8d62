import Binding.Proofs.Grammar.Limit
import Binding.Proofs.Token.Written
import Mathlib.Data.List.MinMax
import Mathlib.Tactic.Ring

/-!
# How tall a tree can be

A limit on nesting also limits the height of a tree, and so how deep anything that walks down the
tree has to go.  But the two are not the same.  The operand that a chain begins with is parsed
before the links of the chain are counted, so it may use up all levels by itself, and the chain may
use up all of them again: a conditional, whose condition is a chain of operators, which begins with
a chain of accesses, which begins with a parenthesis, nests only as deep as the deepest of these,
while their heights add up.  Only what stands in the parenthesis has one level less.  So a level
more makes the tallest tree taller by twice the number of levels and some, and the height is a
quadratic function of the limit.

## Main definitions

* `Expr.height` counts the nodes on the longest way from the root to a leaf; `Expr.Branch` is such a
  way, and `Expr.Branch.length_le_height`, `Expr.exists_branch` say that the height is as stated.
* `Expr.tallest` is the height of the tallest expression.

## Main results

* `Phrase.Expression.height_le`: no expression is taller.
* `Phrase.exists_tallest`: one is as tall.
* `Expr.parseWithin_full_height`: the same of the trees of sources.
-/

namespace Binding

namespace Expr

/-! ### The height of a tree -/

mutual

/-- The number of nodes on the longest way from the root of the tree to a leaf. -/
def height : Expr → Nat
  | .empty => 1
  | .literal _ => 1
  | .identifier _ => 1
  | .unary _ operand => height operand + 1
  | .binary _ left right => max (height left) (height right) + 1
  | .getter receiver _ => height receiver + 1
  | .invoke receiver _ none => height receiver + 1
  | .invoke receiver _ (some args) => max (height receiver) (heightArguments args) + 1
  | .paren child => height child + 1
  | .index receiver argument => max (height receiver) (height argument) + 1
  | .ternary condition whenTrue whenFalse =>
    max (height condition) (max (height whenTrue) (height whenFalse)) + 1
  | .map entries => heightEntries entries + 1
  | .list items => heightItems items + 1

/-- The height of the tallest argument. -/
def heightArguments : List Expr → Nat
  | [] => 0
  | argument :: rest => max (height argument) (heightArguments rest)

/-- The height of the tallest value of an entry. -/
def heightEntries : List (String × Option Expr) → Nat
  | [] => 0
  | (_, none) :: rest => heightEntries rest
  | (_, some value) :: rest => max (height value) (heightEntries rest)

/-- The height of the tallest item. -/
def heightItems : List (Option Expr) → Nat
  | [] => 0
  | none :: rest => heightItems rest
  | some item :: rest => max (height item) (heightItems rest)

end

theorem heightEntries_cons (entry : String × Option Expr) (rest : List (String × Option Expr)) :
    heightEntries (entry :: rest) = max (heightItems [entry.2]) (heightEntries rest) := by
  obtain ⟨key, value⟩ := entry
  cases value <;> simp [heightEntries, heightItems]

theorem heightArguments_eq (args : List Expr) :
    heightArguments args = (args.map height).foldr max 0 := by
  induction args with
  | nil => rfl
  | cons argument rest ih => rw [heightArguments, ih, List.map_cons, List.foldr_cons]

theorem heightEntries_eq (entries : List (String × Option Expr)) :
    heightEntries entries = ((entries.filterMap (·.2)).map height).foldr max 0 := by
  induction entries with
  | nil => rfl
  | cons entry rest ih =>
    obtain ⟨key, value⟩ := entry
    cases value with
    | none => rw [heightEntries, ih, List.filterMap_cons_none rfl]
    | some value =>
      rw [heightEntries, ih]
      rfl

theorem heightItems_eq (items : List (Option Expr)) :
    heightItems items = ((items.filterMap id).map height).foldr max 0 := by
  induction items with
  | nil => rfl
  | cons item rest ih =>
    cases item with
    | none => rw [heightItems, ih, List.filterMap_cons_none rfl]
    | some item =>
      rw [heightItems, ih]
      rfl

/-- A tree is one node taller than its tallest operand. -/
theorem height_eq (e : Expr) :
    e.height = (e.toNode.operands.map height).foldr max 0 + 1 := by
  cases e with
  | invoke receiver method arguments =>
    cases arguments with
    | none => simp [height, toNode, Node.operands]
    | some args => simp [height, toNode, Node.operands, heightArguments_eq]
  | map entries => rw [height, heightEntries_eq]; rfl
  | list items => rw [height, heightItems_eq]; rfl
  | _ => simp [height, toNode, Node.operands]

/-- The trees on a way down from a root to a leaf, each an operand of the one before it. -/
inductive Branch : List Expr → Prop
  | leaf {e : Expr} : e.toNode.operands = [] → Branch [e]
  | down {e b : Expr} {rest : List Expr} :
    b ∈ e.toNode.operands → Branch (b :: rest) → Branch (e :: b :: rest)

/-- No way down is longer than the height. -/
theorem Branch.length_le_height {e : Expr} {rest : List Expr} (h : Branch (e :: rest)) :
    (e :: rest).length ≤ e.height := by
  induction rest generalizing e with
  | nil =>
    rw [height_eq, List.length_singleton]
    omega
  | cons b rest ih =>
    cases h with
    | down hb h =>
      have hlength := ih h
      have hheight : b.height ≤ (e.toNode.operands.map height).foldr max 0 :=
        List.le_max_of_le (List.mem_map_of_mem hb) (Nat.le_refl _)
      rw [height_eq e, List.length_cons]
      omega

/-- Some way down is as long as the height. -/
theorem exists_branch (e : Expr) : ∃ rest, Branch (e :: rest) ∧ (e :: rest).length = e.height := by
  -- By recursion on the height: the tallest operand is shorter than the tree.
  induction hn : e.height using Nat.strongRecOn generalizing e with
  | ind n ih =>
    by_cases hleaf : e.toNode.operands = []
    · exact ⟨[], .leaf hleaf, by simp [← hn, height_eq, hleaf]⟩
    · have hne : e.toNode.operands.map height ≠ [] := by simpa using hleaf
      obtain ⟨b, hb, hheight⟩ :=
        List.mem_map.1 (List.maximum_mem (List.foldr_max_of_ne_nil hne).symm)
      have hsucc : b.height + 1 = n := by rw [hheight, ← hn, height_eq e, Nat.bot_eq_zero]
      obtain ⟨rest, hbranch, hlength⟩ := ih b.height (by omega) b rfl
      exact ⟨b :: rest, .down hb hbranch, by rw [List.length_cons, hlength, hsucc]⟩

/-! ### The tallest tree -/

/-- The height of the tallest expression that needs no more than the given levels of nesting. -/
def tallest (levels : Nat) : Nat :=
  levels * levels + 3 * levels + 1

/-- The height of the tallest operand that needs no more than the given levels of nesting. -/
def tallestOperand : Nat → Nat
  | 0 => 1
  | levels + 1 => tallest levels + 1

theorem tallest_succ (levels : Nat) : tallest (levels + 1) = tallest levels + 2 * levels + 4 := by
  unfold tallest
  ring

theorem one_le_tallestOperand (levels : Nat) : 1 ≤ tallestOperand levels := by
  cases levels with
  | zero => exact Nat.le_refl 1
  | succ levels =>
    rw [tallestOperand]
    omega

/-- An expression that is no conditional: two chains of all the levels around an operand. -/
theorem tallestOperand_add_le (levels : Nat) :
    tallestOperand levels + 2 * levels ≤ tallest levels := by
  cases levels with
  | zero => exact Nat.le_refl 1
  | succ levels =>
    rw [tallestOperand, tallest_succ]
    omega

end Expr

namespace Phrase

open Binding.Expr

mutual

/-- **No expression is taller** than its levels of nesting allow. -/
theorem Expression.height_le {ts : List Token} {e : Expr} (levels : Nat) :
    Expression ts e → e.need ≤ levels → e.height ≤ tallest levels
  | .plain h, hneed => by
    have hheight := h.height_le levels hneed
    have hlinks := e.links_le_need
    have hsum := tallestOperand_add_le levels
    omega
  | @Expression.ternary _ _ _ c t f hc ht hf, hneed => by
    rw [need] at hneed
    obtain ⟨levels, rfl⟩ : ∃ n, levels = n + 1 := ⟨levels - 1, by omega⟩
    have hcond := hc.height_le (levels + 1) (by omega)
    have htrue := ht.height_le levels (by omega)
    have hfalse := hf.height_le levels (by omega)
    have hlinks := c.links_le_need
    rw [tallestOperand] at hcond
    rw [height, tallest_succ]
    omega

theorem Binary.height_le {least : Nat} {ts : List Token} {e : Expr} (levels : Nat) :
    Binary least ts e → e.need ≤ levels → e.height ≤ tallestOperand levels + levels + e.links
  | .unary h, hneed => Nat.le_add_right_of_le (h.height_le levels hneed)
  | @Binary.join _ op _ _ l r _ hl hr, hneed => by
    rw [need] at hneed
    obtain ⟨levels, rfl⟩ : ∃ n, levels = n + 1 := ⟨levels - 1, by omega⟩
    have hleft := hl.height_le (levels + 1) (by omega)
    have hright := hr.height_le levels (by omega)
    have hlinks := r.links_le_need
    have hsum := tallestOperand_add_le levels
    rw [tallestOperand] at hleft ⊢
    rw [height, links]
    omega

theorem Unary.height_le {ts : List Token} {e : Expr} (levels : Nat) :
    Unary ts e → e.need ≤ levels → e.height ≤ tallestOperand levels + levels
  | .apply h, hneed => by
    rw [need] at hneed
    obtain ⟨levels, rfl⟩ : ∃ n, levels = n + 1 := ⟨levels - 1, by omega⟩
    have hoperand := h.height_le levels (by omega)
    have hsum := tallestOperand_add_le levels
    rw [height, tallestOperand]
    omega
  | .access h, hneed => by
    have hheight := h.height_le levels hneed
    have haccesses := e.accesses_le_need
    omega

theorem Access.height_le {ts : List Token} {e : Expr} (levels : Nat) :
    Access ts e → e.need ≤ levels → e.height ≤ tallestOperand levels + e.accesses
  | .operand h, hneed => Nat.le_add_right_of_le (h.height_le levels hneed)
  | .getter h, hneed => by
    rw [need] at hneed
    have hreceiver := h.height_le levels (by omega)
    rw [height, accesses]
    omega
  | .method h hargs, hneed => by
    rw [need] at hneed
    obtain ⟨levels, rfl⟩ : ∃ n, levels = n + 1 := ⟨levels - 1, by omega⟩
    have hreceiver := h.height_le (levels + 1) (by omega)
    have harguments := hargs.height_le levels (by omega)
    rw [tallestOperand] at hreceiver ⊢
    rw [height, accesses]
    omega
  | .call h _ hargs, hneed => by
    rw [need] at hneed
    obtain ⟨levels, rfl⟩ : ∃ n, levels = n + 1 := ⟨levels - 1, by omega⟩
    have hreceiver := h.height_le (levels + 1) (by omega)
    have harguments := hargs.height_le levels (by omega)
    rw [tallestOperand] at hreceiver ⊢
    rw [height, accesses]
    omega
  | .index h hi, hneed => by
    rw [need] at hneed
    obtain ⟨levels, rfl⟩ : ∃ n, levels = n + 1 := ⟨levels - 1, by omega⟩
    have hreceiver := h.height_le (levels + 1) (by omega)
    have hargument := hi.height_le levels (by omega)
    rw [tallestOperand] at hreceiver ⊢
    rw [height, accesses]
    omega

theorem Arguments.height_le {ts : List Token} {args : List Expr} (levels : Nat) :
    Arguments ts args → needArguments args ≤ levels → heightArguments args ≤ tallest levels
  | .empty, _ => Nat.zero_le _
  | .list h, hneed => h.height_le levels hneed

theorem ArgumentList.height_le {ts : List Token} {args : List Expr} (levels : Nat) :
    ArgumentList ts args → needArguments args ≤ levels → heightArguments args ≤ tallest levels
  | .last h, hneed => by
    rw [needArguments, Nat.max_le] at hneed
    rw [heightArguments, Nat.max_le]
    exact ⟨h.height_le levels hneed.1, Nat.zero_le _⟩
  | .more h hrest, hneed => by
    rw [needArguments, Nat.max_le] at hneed
    rw [heightArguments, Nat.max_le]
    exact ⟨h.height_le levels hneed.1, hrest.height_le levels hneed.2⟩

theorem Operand.height_le {ts : List Token} {e : Expr} (levels : Nat) :
    Operand ts e → e.need ≤ levels → e.height ≤ tallestOperand levels
  | .number _, _ | .string _, _ | .boolean _, _ | .null, _ | .identifier _, _ => by
    rw [height]
    exact one_le_tallestOperand levels
  | .paren h, hneed => by
    rw [need] at hneed
    obtain ⟨levels, rfl⟩ : ∃ n, levels = n + 1 := ⟨levels - 1, by omega⟩
    rw [height, tallestOperand]
    exact Nat.succ_le_succ (h.height_le levels (by omega))
  | .list h, hneed => by
    rw [need] at hneed
    obtain ⟨levels, rfl⟩ : ∃ n, levels = n + 1 := ⟨levels - 1, by omega⟩
    rw [height, tallestOperand]
    exact Nat.succ_le_succ (h.height_le levels (by omega))
  | .map h, hneed => by
    rw [need] at hneed
    obtain ⟨levels, rfl⟩ : ∃ n, levels = n + 1 := ⟨levels - 1, by omega⟩
    rw [height, tallestOperand]
    exact Nat.succ_le_succ (h.height_le levels (by omega))

theorem Items.height_le {ts : List Token} {items : List (Option Expr)} (levels : Nat) :
    Items ts items → needItems items ≤ levels → heightItems items ≤ tallest levels
  | .nil, _ => Nat.zero_le _
  | .last h, hneed => by
    rw [needItems, Nat.max_le] at hneed
    rw [heightItems, Nat.max_le]
    exact ⟨h.height_le levels hneed.1, Nat.zero_le _⟩
  | .hole h, hneed => h.height_le levels hneed
  | .item h hrest, hneed => by
    rw [needItems, Nat.max_le] at hneed
    rw [heightItems, Nat.max_le]
    exact ⟨h.height_le levels hneed.1, hrest.height_le levels hneed.2⟩

theorem Entries.height_le {ts : List Token} {entries : List (String × Option Expr)}
    (levels : Nat) :
    Entries ts entries → needEntries entries ≤ levels → heightEntries entries ≤ tallest levels
  | .nil, _ => Nat.zero_le _
  | .last h, hneed => by
    rw [needEntries_cons, Nat.max_le] at hneed
    rw [heightEntries_cons, Nat.max_le]
    exact ⟨h.height_le levels hneed.1, Nat.zero_le _⟩
  | .skip h, hneed => h.height_le levels hneed
  | .entry h hrest, hneed => by
    rw [needEntries_cons, Nat.max_le] at hneed
    rw [heightEntries_cons, Nat.max_le]
    exact ⟨h.height_le levels hneed.1, hrest.height_le levels hneed.2⟩

theorem Entry.height_le {ts : List Token} {entry : String × Option Expr} (levels : Nat) :
    Entry ts entry → needItems [entry.2] ≤ levels → heightItems [entry.2] ≤ tallest levels
  | .key _, _ => Nat.zero_le _
  | .value _ h, hneed => by
    rw [needItems, Nat.max_le] at hneed
    rw [heightItems, Nat.max_le]
    exact ⟨h.height_le levels hneed.1, Nat.zero_le _⟩

end

/-! ### A tallest expression -/

/-- Some tokens that can be read are a phrase whose tree is of the height, within the levels. -/
def Attains (phrase : List Token → Expr → Prop) (levels height : Nat) : Prop :=
  ∃ ts e, phrase ts e ∧ (∀ t ∈ ts, t.Readable) ∧ e.need ≤ levels ∧ e.height = height

theorem Attains.imp {phrase phrase' : List Token → Expr → Prop} {levels height : Nat}
    (h : Attains phrase levels height) (himp : ∀ ts e, phrase ts e → phrase' ts e) :
    Attains phrase' levels height := by
  obtain ⟨ts, e, he, hrest⟩ := h
  exact ⟨ts, e, himp ts e he, hrest⟩

theorem unary_a : Unary [.identifier "a"] (.identifier "a") :=
  .access (.operand (.identifier "a"))

/-- As many accesses as there are levels cost no more levels than their first operand has. -/
theorem Attains.accesses {levels height count : Nat} (h : Attains Operand levels height)
    (hcount : count ≤ levels) :
    Attains (fun ts e => Access ts e ∧ e.accesses = count) levels (height + count) := by
  induction count with
  | zero => exact h.imp fun ts e he => ⟨.operand he, he.accesses_eq_zero⟩
  | succ count ih =>
    obtain ⟨ts, e, ⟨haccess, haccesses⟩, hts, hneed, hheight⟩ := ih (by omega)
    refine ⟨_, .getter e "a", ⟨.getter haccess, ?_⟩, ?_, ?_, ?_⟩
    · rw [Expr.accesses, haccesses]
    · simpa [or_imp, forall_and] using hts
    · rw [need, haccesses]
      omega
    · rw [Expr.height, hheight, Nat.add_assoc]

/-- As many operators as there are levels cost no more levels than their first operand has. -/
theorem Attains.links {levels height count : Nat} (h : Attains Unary levels height)
    (hcount : count ≤ levels) :
    Attains (fun ts e => Binary BinaryOp.add.band ts e ∧ e.links = count) levels
      (height + count) := by
  induction count with
  | zero => exact h.imp fun ts e he => ⟨.unary he, he.links_eq_zero⟩
  | succ count ih =>
    obtain ⟨ts, e, ⟨hbinary, hlinks⟩, hts, hneed, hheight⟩ := ih (by omega)
    have hjoin := Binary.join (Nat.le_refl (BinaryOp.band .add)) hbinary (.unary unary_a)
    refine ⟨_, _, ⟨hjoin, ?_⟩, ?_, ?_, ?_⟩
    · rw [Expr.links, hlinks]
    · simpa [or_imp, forall_and] using hts
    · rw [need, hlinks, need]
      omega
    · have hpos := e.height_eq
      rw [Expr.height, Expr.height, hheight]
      omega

/-- **Some expression is as tall** as the levels of nesting allow. -/
theorem exists_tallest (levels : Nat) : Attains Expression levels (tallest levels) := by
  induction levels with
  | zero => exact ⟨_, _, .plain (.unary unary_a), by simp, by simp [need], rfl⟩
  | succ levels ih =>
    obtain ⟨ts, e, he, hts, hneed, hheight⟩ := ih
    have hoperand : Attains Operand (levels + 1) (tallest levels + 1) := by
      refine ⟨_, .paren e, .paren he, ?_, ?_, by rw [Expr.height, hheight]⟩
      · simpa [or_imp, forall_and] using hts
      · rw [need]
        omega
    have hunary := (hoperand.accesses (Nat.le_refl _)).imp fun ts e he => Unary.access he.1
    obtain ⟨cs, c, ⟨hbinary, -⟩, hcs, hcneed, hcheight⟩ := hunary.links (Nat.le_refl _)
    have hname : Expression [.identifier "a"] (.identifier "a") := .plain (.unary unary_a)
    refine ⟨_, _, .ternary (hbinary.mono (by decide)) hname hname, ?_, ?_, ?_⟩
    · simpa [or_imp, forall_and] using hcs
    · simp only [need]
      omega
    · simp only [Expr.height, hcheight, tallest_succ]
      omega

end Phrase

namespace Expr

open Phrase

/-- **The limit bounds the height of the tree, and no better bound holds.**  Under a limit of `n`
levels of nesting no source has a tree of more than `n * n + 3 * n + 1` nodes from the root to a
leaf, and some source has a tree of just that height. -/
theorem parseWithin_full_height (limit : Nat) :
    (∀ source e, parseWithin (some (.full limit)) source = .ok e →
      e.height ≤ limit * limit + 3 * limit + 1) ∧
    ∃ source e, parseWithin (some (.full limit)) source = .ok e ∧
      e.height = limit * limit + 3 * limit + 1 := by
  constructor
  · intro source e h
    obtain ⟨ts, -, he, hneed⟩ := parseWithin_eq_ok_iff.1 h
    obtain ⟨-, rfl⟩ | he := he
    · rw [height]
      omega
    · exact he.height_le limit (hneed _ rfl)
  · obtain ⟨ts, e, he, hts, hneed, hheight⟩ := exists_tallest limit
    obtain ⟨source, hsource⟩ := exists_tokens_eq hts
    refine ⟨source, e, parseWithin_eq_ok_iff.2 ⟨ts, hsource, .inr he, ?_⟩, hheight⟩
    rintro a ⟨⟩
    exact hneed

/-- A conditional on a sum of a member of a parenthesis is as tall as one level allows. -/
theorem parseWithin_full_height_one :
    parseWithin (some (.full 1)) "(a).a+a?a:a" = .ok (.ternary (.binary .add
        (.getter (.paren (.identifier "a")) "a") (.identifier "a")) (.identifier "a")
        (.identifier "a")) ∧
      (Expr.ternary (.binary .add (.getter (.paren (.identifier "a")) "a") (.identifier "a"))
        (.identifier "a") (.identifier "a")).height ≤ 1 * 1 + 3 * 1 + 1 := by
  have hparse : parseWithin (some (.full 1)) "(a).a+a?a:a" = .ok (.ternary (.binary .add
      (.getter (.paren (.identifier "a")) "a") (.identifier "a")) (.identifier "a")
      (.identifier "a")) := by
    decide +kernel
  exact ⟨hparse, (parseWithin_full_height 1).1 _ _ hparse⟩

end Expr

end Binding
