import Binding.Proofs.Expr.Everywhere
import Binding.Proofs.Grammar.Phrase

/-!
# The parts of an expression

Every tree inside the tree of an expression is the tree of an expression, and its tokens are among
those of the whole.  It is enough to say this of the operands of one node; the phrases that a node
can come from each give their own operands.

## Main results

`Phrase.Expression.occurs`: a tree that occurs in the tree of an expression.
-/

namespace Binding

namespace Phrase

/-- Some of the tokens are an expression with the tree. -/
def Holds (ts : List Token) (e : Expr) : Prop :=
  ∃ us, Expression us e ∧ us ⊆ ts

theorem Holds.mono {ts us : List Token} {e : Expr} (h : Holds ts e) (hsub : ts ⊆ us) :
    Holds us e :=
  h.imp fun _ => And.imp_right fun hts => List.Subset.trans hts hsub

/-! ### Each phrase as an expression -/

theorem Expression.holds {ts : List Token} {e : Expr} (h : Expression ts e) : Holds ts e :=
  ⟨ts, h, fun _ => id⟩

theorem Binary.holds {least : Nat} {ts : List Token} {e : Expr} (h : Binary least ts e)
    (hle : 1 ≤ least) : Holds ts e :=
  (Expression.plain (h.mono hle)).holds

theorem Unary.holds {ts : List Token} {e : Expr} (h : Unary ts e) : Holds ts e :=
  (Expression.plain (.unary h)).holds

theorem Access.holds {ts : List Token} {e : Expr} (h : Access ts e) : Holds ts e :=
  (Unary.access h).holds

/-! ### Lists of expressions -/

theorem ArgumentList.holds {ts : List Token} {args : List Expr} {a : Expr} :
    ArgumentList ts args → a ∈ args → Holds ts a
  | .last h, ha => by
    obtain rfl := List.mem_singleton.1 ha
    exact h.holds
  | .more h hrest, ha => by
    rcases List.mem_cons.1 ha with rfl | ha
    · exact h.holds.mono fun t ht => by simp [ht]
    · exact (hrest.holds ha).mono fun t ht => by simp [ht]

theorem Arguments.holds {ts : List Token} {args : List Expr} {a : Expr} (h : Arguments ts args)
    (ha : a ∈ args) : Holds ts a := by
  cases h with
  | empty => simp at ha
  | list h => exact h.holds ha

theorem Items.holds {ts : List Token} {items : List (Option Expr)} {a : Expr} :
    Items ts items → some a ∈ items → Holds ts a
  | .nil, ha => by simp at ha
  | .last h, ha => by
    obtain rfl : a = _ := by simpa using ha
    exact h.holds
  | .hole h, ha => (h.holds (by simpa using ha)).mono fun t ht => by simp [ht]
  | .item h hrest, ha => by
    rcases List.mem_cons.1 ha with ha | ha
    · obtain rfl := Option.some.inj ha
      exact h.holds.mono fun t ht => by simp [ht]
    · exact (hrest.holds ha).mono fun t ht => by simp [ht]

theorem Entry.holds {ts : List Token} {entry : String × Option Expr} {a : Expr}
    (h : Entry ts entry) (ha : entry.2 = some a) : Holds ts a := by
  cases h with
  | key => simp at ha
  | value _ h =>
    obtain rfl := Option.some.inj ha
    exact h.holds.mono fun t ht => by simp [ht]

theorem Entries.holds {ts : List Token} {entries : List (String × Option Expr)} {a : Expr} :
    Entries ts entries → (∃ entry ∈ entries, entry.2 = some a) → Holds ts a
  | .nil, ha => by simp at ha
  | .last h, ha => h.holds (by simpa using ha)
  | .skip h, ha => (h.holds ha).mono fun t ht => by simp [ht]
  | .entry h hrest, ⟨pair, hpair, ha⟩ => by
    rcases List.mem_cons.1 hpair with rfl | hpair
    · exact (h.holds ha).mono fun t ht => by simp [ht]
    · exact (hrest.holds ⟨pair, hpair, ha⟩).mono fun t ht => by simp [ht]

/-! ### Operands -/

theorem Operand.holds_operand {ts : List Token} {e a : Expr} (h : Operand ts e)
    (ha : a ∈ e.toNode.operands) : Holds ts a := by
  cases h with
  | paren h =>
    obtain rfl := List.mem_singleton.1 ha
    exact h.holds.mono fun t ht => by simp [ht]
  | list h =>
    have hitem := h.holds (by simpa [Expr.toNode, Node.operands] using ha)
    exact hitem.mono fun t ht => by simp [ht]
  | map h =>
    have hvalue := h.holds (by simpa [Expr.toNode, Node.operands] using ha)
    exact hvalue.mono fun t ht => by simp [ht]
  | _ => simp [Expr.toNode, Node.operands] at ha

theorem Access.holds_operand {ts : List Token} {e a : Expr} (h : Access ts e)
    (ha : a ∈ e.toNode.operands) : Holds ts a := by
  cases h with
  | operand h => exact h.holds_operand ha
  | getter h =>
    obtain rfl := List.mem_singleton.1 ha
    exact h.holds.mono fun t ht => by simp [ht]
  | method h hargs =>
    rcases List.mem_cons.1 ha with rfl | ha
    · exact h.holds.mono fun t ht => by simp [ht]
    · exact (hargs.holds ha).mono fun t ht => by simp [ht]
  | call h _ hargs =>
    rcases List.mem_cons.1 ha with rfl | ha
    · exact h.holds.mono fun t ht => by simp [ht]
    · exact (hargs.holds ha).mono fun t ht => by simp [ht]
  | index h hi =>
    rcases List.mem_cons.1 ha with rfl | ha
    · exact h.holds.mono fun t ht => by simp [ht]
    · obtain rfl := List.mem_singleton.1 ha
      exact hi.holds.mono fun t ht => by simp [ht]

theorem Unary.holds_operand {ts : List Token} {e a : Expr} (h : Unary ts e)
    (ha : a ∈ e.toNode.operands) : Holds ts a := by
  cases h with
  | apply h =>
    obtain rfl := List.mem_singleton.1 ha
    exact h.holds.mono fun t ht => by simp [ht]
  | access h => exact h.holds_operand ha

theorem Binary.holds_operand {least : Nat} {ts : List Token} {e a : Expr} (h : Binary least ts e)
    (ha : a ∈ e.toNode.operands) : Holds ts a := by
  cases h with
  | unary h => exact h.holds_operand ha
  | @join _ op _ _ _ _ _ hl hr =>
    rcases List.mem_cons.1 ha with rfl | ha
    · exact (hl.holds op.one_le_band).mono fun t ht => by simp [ht]
    · obtain rfl := List.mem_singleton.1 ha
      exact (hr.holds (Nat.le_add_left 1 _)).mono fun t ht => by simp [ht]

theorem Expression.holds_operand {ts : List Token} {e a : Expr} (h : Expression ts e)
    (ha : a ∈ e.toNode.operands) : Holds ts a := by
  cases h with
  | plain h => exact h.holds_operand ha
  | ternary hc ht hf =>
    simp only [Expr.toNode, Node.operands, List.mem_cons, List.not_mem_nil, or_false] at ha
    rcases ha with rfl | rfl | rfl
    · exact (hc.holds (Nat.le_refl 1)).mono fun t ht => by simp [ht]
    · exact ht.holds.mono fun t ht => by simp [ht]
    · exact hf.holds.mono fun t ht => by simp [ht]

/-- **The parts of an expression are expressions.** -/
theorem Expression.occurs {ts : List Token} {e a : Expr} (h : Expression ts e)
    (ha : a.Occurs e) : Holds ts a := by
  induction ha generalizing ts with
  | root => exact h.holds
  | operand _ hb ih =>
    obtain ⟨us, hus, hsub⟩ := h.holds_operand hb
    exact (ih hus).mono hsub

end Phrase

end Binding
