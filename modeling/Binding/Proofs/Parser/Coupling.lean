import Binding.Parser.Grammar

/-!
# Two parses side by side

The grammar looks at nothing but the current token, and touches its state through a handful of
steps.  So whatever holds of these steps and of steps in a row, when they are run twice side by
side, with two builders and from two states, holds of every phrase.  This module proves it once.

## What is left open

A `Coupling` is a way to compare two runs.  It says

* which *moments* a comparison passes through, and when the two builders have *made* two values that
  belong together between one moment and another;
* when two steps *run* alike from a moment on, so that what they give at the moment when they end
  satisfies a condition;

and that the single steps of a parser do so.  The moments are what makes the comparison exact: a
node is made of operands that were made one after another (`Node.Built`), with nothing in between,
and a comparison may count on that.  One that need not can do with a single moment.

## Main results

`Coupling.phrases` and `Coupling.runs_whole`: every phrase and every whole input runs alike, under
every coupling.

## Implementation notes

The two runs may have different budgets.  A first run that has used up its budget has to run like
anything, so that a coupling speaks of second runs with a larger budget.
-/

namespace Binding

/-- Values that belong together, one after another: each between the moment of the one before it and
the next. -/
inductive Sequence {W β β' : Type} (R : W → W → β → β' → Prop) : W → List β → List β' → W → Prop
  | nil (w : W) : Sequence R w [] [] w
  | cons {u v w : W} {b : β} {b' : β'} {bs : List β} {bs' : List β'} :
    R u v b b' → Sequence R v bs bs' w → Sequence R u (b :: bs) (b' :: bs') w

/-- Two values that belong together, or none on either side. -/
inductive Perhaps {W β β' : Type} (R : W → W → β → β' → Prop) :
    W → W → Option β → Option β' → Prop
  | none (w : W) : Perhaps R w w none none
  | some {v w : W} {b : β} {b' : β'} : R v w b b' → Perhaps R v w (some b) (some b')

/-- Two entries with the same key, whose values belong together if there are any. -/
def Keyed {W β β' : Type} (R : W → W → β → β' → Prop) (v w : W) (entry : String × Option β)
    (entry' : String × Option β') : Prop :=
  entry.1 = entry'.1 ∧ Perhaps R v w entry.2 entry'.2

/-- Two nodes with the same operator, whose operands belong together and were made one after
another, from left to right. -/
inductive Node.Built {W α α' : Type} (R : W → W → α → α' → Prop) : W → Node α → Node α' → W → Prop
  | empty (w : W) : Built R w .empty .empty w
  | literal (w : W) (value : Literal) : Built R w (.literal value) (.literal value) w
  | identifier (w : W) (name : String) : Built R w (.identifier name) (.identifier name) w
  | unary {v w : W} (op : UnaryOp) {a : α} {a' : α'} :
    R v w a a' → Built R v (.unary op a) (.unary op a') w
  | binary {u v w : W} (op : BinaryOp) {a b : α} {a' b' : α'} :
    R u v a a' → R v w b b' → Built R u (.binary op a b) (.binary op a' b') w
  | getter {v w : W} (name : String) {a : α} {a' : α'} :
    R v w a a' → Built R v (.getter a name) (.getter a' name) w
  | invoke {u v w : W} (method : Option String) {a : α} {a' : α'} {args : List α}
    {args' : List α'} : R u v a a' → Sequence R v args args' w →
      Built R u (.invoke a method (some args)) (.invoke a' method (some args')) w
  | paren {v w : W} {a : α} {a' : α'} : R v w a a' → Built R v (.paren a) (.paren a') w
  | index {u v w : W} {a b : α} {a' b' : α'} :
    R u v a a' → R v w b b' → Built R u (.index a b) (.index a' b') w
  | ternary {t u v w : W} {a b c : α} {a' b' c' : α'} :
    R t u a a' → R u v b b' → R v w c c' → Built R t (.ternary a b c) (.ternary a' b' c') w
  | map {v w : W} {entries : List (String × Option α)} {entries' : List (String × Option α')} :
    Sequence (Keyed R) v entries entries' w → Built R v (.map entries) (.map entries') w
  | list {v w : W} {items : List (Option α)} {items' : List (Option α')} :
    Sequence (Perhaps R) v items items' w → Built R v (.list items) (.list items') w

/-- A way to compare two runs of a parser, the one with the first builder and the other with the
second. -/
structure Coupling {σ σ' α α' : Type} (build : Builder σ α) (build' : Builder σ' α') where
  /-- The moments that a comparison passes through. -/
  World : Type
  /-- Between the first moment and the second, the builders have made the values. -/
  Made : World → World → α → α' → Prop
  /-- From the moment on, the two steps run alike, and what they give satisfies the condition at the
  moment when they end. -/
  Runs : {β β' : Type} → World → (World → β → β' → Prop) → Step σ β → Step σ' β' → Prop
  runs_pure {β β' : Type} {w : World} {post : World → β → β' → Prop} {b : β} {b' : β'} :
    post w b b' → Runs w post (pure b) (pure b')
  runs_bind {β β' γ γ' : Type} {w : World} {mid : World → β → β' → Prop}
    {post : World → γ → γ' → Prop} {step : Step σ β} {step' : Step σ' β'}
    {next : β → Step σ γ} {next' : β' → Step σ' γ'} :
    Runs w mid step step' → (∀ v b b', mid v b b' → Runs v post (next b) (next' b')) →
      Runs w post (step >>= next) (step' >>= next')
  runs_exhausted {β β' : Type} {w : World} {post : World → β → β' → Prop} (step' : Step σ' β') :
    Runs w post Step.exhausted step'
  runs_token {w : World} : Runs w (fun v t t' => v = w ∧ t' = t) Step.token Step.token
  runs_unexpected {β β' : Type} {w : World} {post : World → β → β' → Prop}
    (expected : List Expectation) :
    Runs w post (Step.unexpected expected) (Step.unexpected expected)
  runs_advance {w : World} : Runs w (fun v u u' => v = w ∧ u' = u) Step.advance Step.advance
  runs_putToken {w : World} (t : Token) :
    Runs w (fun v u u' => v = w ∧ u' = u) (Step.putToken t) (Step.putToken t)
  runs_spend {w : World} : Runs w (fun v u u' => v = w ∧ u' = u) Step.spend Step.spend
  runs_nested {β β' : Type} {w : World} {post : World → β → β' → Prop} {step : Step σ β}
    {step' : Step σ' β'} :
    Runs w post step step' → Runs w post (Step.nested step) (Step.nested step')
  runs_restoring {β β' : Type} {w : World} {post : World → β → β' → Prop} {step : Step σ β}
    {step' : Step σ' β'} :
    Runs w post step step' → Runs w post (Step.restoring step) (Step.restoring step')
  runs_make {v w : World} {node : Node α} {node' : Node α'} : node.Built Made v node' w →
    Runs w (Made v) (Step.make build node) (Step.make build' node')

namespace Coupling

variable {σ σ' α α' : Type} {build : Builder σ α} {build' : Builder σ' α'}

/-- Every phrase runs alike, with the one budget in the first run and the other in the second. -/
structure Phrases (C : Coupling build build') (budget budget' : Nat) : Prop where
  ternary (w : C.World) :
    C.Runs w (C.Made w) (Grammar.ternary build budget) (Grammar.ternary build' budget')
  binary (least : Nat) (w : C.World) :
    C.Runs w (C.Made w) (Grammar.binary build budget least) (Grammar.binary build' budget' least)
  binaryChain (least : Nat) {v w : C.World} {left : α} {left' : α'} : C.Made v w left left' →
    C.Runs w (C.Made v) (Grammar.binaryChain build budget least left)
      (Grammar.binaryChain build' budget' least left')
  unary (w : C.World) :
    C.Runs w (C.Made w) (Grammar.unary build budget) (Grammar.unary build' budget')
  access (w : C.World) :
    C.Runs w (C.Made w) (Grammar.access build budget) (Grammar.access build' budget')
  accessChain {v w : C.World} {receiver : α} {receiver' : α'} : C.Made v w receiver receiver' →
    C.Runs w (C.Made v) (Grammar.accessChain build budget receiver)
      (Grammar.accessChain build' budget' receiver')
  arguments (w : C.World) : C.Runs w (fun v as bs => Sequence C.Made w as bs v)
    (Grammar.arguments build budget) (Grammar.arguments build' budget')
  argumentList (w : C.World) : C.Runs w (fun v as bs => Sequence C.Made w as bs v)
    (Grammar.argumentList build budget) (Grammar.argumentList build' budget')
  operand (w : C.World) :
    C.Runs w (C.Made w) (Grammar.operand build budget) (Grammar.operand build' budget')
  listItems (w : C.World) : C.Runs w (fun v as bs => Sequence (Perhaps C.Made) w as bs v)
    (Grammar.listItems build budget) (Grammar.listItems build' budget')
  mapEntries (w : C.World) : C.Runs w (fun v as bs => Sequence (Keyed C.Made) w as bs v)
    (Grammar.mapEntries build budget) (Grammar.mapEntries build' budget')
  mapValue (w : C.World) : C.Runs w (Perhaps C.Made w)
    (Grammar.mapValue build budget) (Grammar.mapValue build' budget')

variable {C : Coupling build build'} {w : C.World}

/-! ### Steps that make nothing -/

/-- A step that gives the same on both sides and makes nothing, before another one. -/
theorem still {β γ γ' : Type} {post : C.World → γ → γ' → Prop} {step : Step σ β}
    {step' : Step σ' β} {next : β → Step σ γ} {next' : β → Step σ' γ'}
    (h : C.Runs w (fun v b b' => v = w ∧ b' = b) step step')
    (hnext : ∀ b, C.Runs w post (next b) (next' b)) :
    C.Runs w post (step >>= next) (step' >>= next') := by
  refine C.runs_bind h ?_
  rintro v _ b ⟨rfl, rfl⟩
  exact hnext b

theorem runs_pass (wanted : Expectation) (expected : List Expectation) :
    C.Runs w (fun v u u' => v = w ∧ u' = u) (Step.pass wanted expected)
      (Step.pass wanted expected) := by
  refine still C.runs_token fun t => ?_
  split
  · exact C.runs_advance
  · exact C.runs_unexpected expected

theorem runs_separator (close : Symbol) (expected : List Expectation) :
    C.Runs w (fun v u u' => v = w ∧ u' = u) (Step.separator close expected)
      (Step.separator close expected) := by
  refine still C.runs_token fun t => ?_
  split
  · exact C.runs_pure ⟨rfl, rfl⟩
  · exact runs_pass _ expected

/-- A token taken out and passed, with something said of it. -/
theorem runs_take {β : Type} (standIn : Token) (b : β) :
    C.Runs w (fun v b b' => v = w ∧ b' = b) (do Step.putToken standIn; Step.advance; return b)
      (do Step.putToken standIn; Step.advance; return b) :=
  still (C.runs_putToken standIn) fun _ => still C.runs_advance fun _ => C.runs_pure ⟨rfl, rfl⟩

theorem runs_takeName :
    C.Runs w (fun v b b' => v = w ∧ b' = b) Step.takeName Step.takeName := by
  refine still C.runs_token fun t => ?_
  split
  · exact runs_take _ _
  · exact C.runs_unexpected _

theorem runs_takeKey :
    C.Runs w (fun v b b' => v = w ∧ b' = b) Step.takeKey Step.takeKey := by
  refine still C.runs_token fun t => ?_
  split
  · exact runs_take _ _
  · exact runs_take _ _
  · exact C.runs_unexpected _

theorem runs_leaf {node : Node α} {node' : Node α'} (hnode : node.Built C.Made w node' w) :
    C.Runs w (C.Made w) (Grammar.leaf build node) (Grammar.leaf build' node') := by
  refine still (C.runs_putToken .eof) fun _ => C.runs_bind (C.runs_make hnode) fun v a a' ha => ?_
  exact still C.runs_advance fun _ => C.runs_pure ha

/-! ### Phrases -/

section Phrases

variable {budget budget' : Nat} (ih : C.Phrases budget budget')

include ih

theorem runs_ternary (w : C.World) : C.Runs w (C.Made w) (Grammar.ternary build (budget + 1))
    (Grammar.ternary build' (budget' + 1)) := by
  refine C.runs_bind (ih.binary 1 w) fun v₁ c c' hc => still C.runs_token fun t => ?_
  split
  · refine still C.runs_advance fun _ => ?_
    refine C.runs_bind (C.runs_nested (ih.ternary v₁)) fun v₂ a a' ha => ?_
    refine still (runs_pass _ _) fun _ => ?_
    refine C.runs_bind (C.runs_nested (ih.ternary v₂)) fun v₃ b b' hb => ?_
    exact C.runs_make (.ternary hc ha hb)
  · exact C.runs_pure hc

theorem runs_binary (least : Nat) (w : C.World) :
    C.Runs w (C.Made w) (Grammar.binary build (budget + 1) least)
      (Grammar.binary build' (budget' + 1) least) :=
  C.runs_bind (ih.unary w) fun _ _ _ hfirst => C.runs_restoring (ih.binaryChain least hfirst)

theorem runs_binaryChain (least : Nat) {v w : C.World} {left : α} {left' : α'}
    (hleft : C.Made v w left left') :
    C.Runs w (C.Made v) (Grammar.binaryChain build (budget + 1) least left)
      (Grammar.binaryChain build' (budget' + 1) least left') := by
  refine still C.runs_token fun t => ?_
  split
  · exact C.runs_pure hleft
  · next op _ =>
    split
    · exact C.runs_pure hleft
    · refine still C.runs_spend fun _ => still C.runs_advance fun _ => ?_
      refine C.runs_bind (ih.binary _ w) fun v₁ r r' hr => ?_
      refine C.runs_bind (C.runs_make (.binary op hleft hr)) fun _ _ _ hjoined => ?_
      exact ih.binaryChain least hjoined

theorem runs_unary (w : C.World) : C.Runs w (C.Made w) (Grammar.unary build (budget + 1))
    (Grammar.unary build' (budget' + 1)) := by
  refine still C.runs_token fun t => ?_
  split
  · next op _ =>
    refine still C.runs_advance fun _ => C.runs_bind (C.runs_nested (ih.unary w)) fun _ _ _ ha => ?_
    exact C.runs_make (.unary op ha)
  · exact ih.access w

theorem runs_access (w : C.World) : C.Runs w (C.Made w) (Grammar.access build (budget + 1))
    (Grammar.access build' (budget' + 1)) :=
  C.runs_bind (ih.operand w) fun _ _ _ hfirst => C.runs_restoring (ih.accessChain hfirst)

/-- A call, and the accesses behind it. -/
theorem runs_invoke (method : Option String) {u v w : C.World} {receiver : α} {receiver' : α'}
    (hr : C.Made u v receiver receiver') {args : List α} {args' : List α'}
    (hargs : Sequence C.Made v args args' w) :
    C.Runs w (C.Made u)
      (Step.make build (.invoke receiver method (some args)) >>= Grammar.accessChain build budget)
      (Step.make build' (.invoke receiver' method (some args')) >>=
        Grammar.accessChain build' budget') :=
  C.runs_bind (C.runs_make (.invoke method hr hargs)) fun _ _ _ hmade => ih.accessChain hmade

theorem runs_accessChain {v w : C.World} {receiver : α} {receiver' : α'}
    (hr : C.Made v w receiver receiver') :
    C.Runs w (C.Made v) (Grammar.accessChain build (budget + 1) receiver)
      (Grammar.accessChain build' (budget' + 1) receiver') := by
  refine still C.runs_token fun t => ?_
  split
  · refine still C.runs_spend fun _ => still C.runs_advance fun _ => ?_
    refine still runs_takeName fun name => still C.runs_token fun t' => ?_
    split
    · exact C.runs_bind (ih.arguments w) fun _ _ _ hargs => runs_invoke ih _ hr hargs
    · exact C.runs_bind (C.runs_make (.getter name hr)) fun _ _ _ hmade => ih.accessChain hmade
  · refine still C.runs_spend fun _ => ?_
    exact C.runs_bind (ih.arguments w) fun _ _ _ hargs => runs_invoke ih _ hr hargs
  · refine still C.runs_spend fun _ => still C.runs_advance fun _ => ?_
    refine C.runs_bind (ih.ternary w) fun _ _ _ ha => still (runs_pass _ _) fun _ => ?_
    exact C.runs_bind (C.runs_make (.index hr ha)) fun _ _ _ hmade => ih.accessChain hmade
  · exact C.runs_pure hr

theorem runs_arguments (w : C.World) : C.Runs w (fun v as bs => Sequence C.Made w as bs v)
    (Grammar.arguments build (budget + 1)) (Grammar.arguments build' (budget' + 1)) := by
  refine still (runs_pass _ _) fun _ => still C.runs_token fun t => ?_
  split
  · have hnil : C.Runs w (fun v as bs => Sequence C.Made w as bs v) (pure []) (pure []) :=
      C.runs_pure (.nil w)
    exact C.runs_bind hnil fun _ _ _ hargs => still (runs_pass _ _) fun _ => C.runs_pure hargs
  · refine C.runs_bind (ih.argumentList w) fun _ _ _ hargs => ?_
    exact still (runs_pass _ _) fun _ => C.runs_pure hargs

theorem runs_argumentList (w : C.World) : C.Runs w (fun v as bs => Sequence C.Made w as bs v)
    (Grammar.argumentList build (budget + 1)) (Grammar.argumentList build' (budget' + 1)) := by
  refine C.runs_bind (ih.ternary w) fun v a a' ha => still C.runs_token fun t => ?_
  split
  · refine still C.runs_advance fun _ => C.runs_bind (ih.argumentList v) fun _ _ _ hrest => ?_
    exact C.runs_pure (.cons ha hrest)
  · exact C.runs_pure (.cons ha (.nil v))

theorem runs_operand (w : C.World) : C.Runs w (C.Made w) (Grammar.operand build (budget + 1))
    (Grammar.operand build' (budget' + 1)) := by
  refine still C.runs_token fun t => ?_
  split
  · exact runs_leaf (.literal w _)
  · exact runs_leaf (.literal w _)
  · exact runs_leaf (.literal w _)
  · exact runs_leaf (.literal w _)
  · exact runs_leaf (.identifier w _)
  · refine still (C.runs_putToken _) fun _ => C.runs_nested (still C.runs_advance fun _ => ?_)
    refine C.runs_bind (ih.ternary w) fun _ _ _ ha => still (runs_pass _ _) fun _ => ?_
    exact C.runs_make (.paren ha)
  · refine still (C.runs_putToken _) fun _ => C.runs_nested (still C.runs_advance fun _ => ?_)
    refine C.runs_bind (ih.listItems w) fun _ _ _ hitems => still C.runs_advance fun _ => ?_
    exact C.runs_make (.list hitems)
  · refine still (C.runs_putToken _) fun _ => C.runs_nested (still C.runs_advance fun _ => ?_)
    refine C.runs_bind (ih.mapEntries w) fun _ _ _ hentries => still C.runs_advance fun _ => ?_
    exact C.runs_make (.map hentries)
  · exact C.runs_unexpected _

theorem runs_listItems (w : C.World) :
    C.Runs w (fun v as bs => Sequence (Perhaps C.Made) w as bs v)
      (Grammar.listItems build (budget + 1)) (Grammar.listItems build' (budget' + 1)) := by
  refine still C.runs_token fun t => ?_
  split
  · exact C.runs_pure (.nil w)
  · split
    · refine still C.runs_advance fun _ => C.runs_bind (ih.listItems w) fun _ _ _ hrest => ?_
      exact C.runs_pure (.cons (.none w) hrest)
    · refine C.runs_bind (ih.ternary w) fun v a a' ha => still (runs_separator _ _) fun _ => ?_
      exact C.runs_bind (ih.listItems v) fun _ _ _ hrest => C.runs_pure (.cons (.some ha) hrest)

theorem runs_mapEntries (w : C.World) :
    C.Runs w (fun v as bs => Sequence (Keyed C.Made) w as bs v)
      (Grammar.mapEntries build (budget + 1)) (Grammar.mapEntries build' (budget' + 1)) := by
  refine still C.runs_token fun t => ?_
  split
  · exact C.runs_pure (.nil w)
  · split
    · exact still C.runs_advance fun _ => ih.mapEntries w
    · refine still runs_takeKey fun key => C.runs_bind (ih.mapValue w) fun v a a' ha => ?_
      refine still (runs_separator _ _) fun _ => ?_
      exact C.runs_bind (ih.mapEntries v) fun _ _ _ hrest => C.runs_pure (.cons ⟨rfl, ha⟩ hrest)

theorem runs_mapValue (w : C.World) : C.Runs w (Perhaps C.Made w)
    (Grammar.mapValue build (budget + 1)) (Grammar.mapValue build' (budget' + 1)) := by
  refine still C.runs_token fun t => ?_
  split
  · refine still C.runs_advance fun _ => C.runs_bind (ih.ternary w) fun _ _ _ ha => ?_
    exact C.runs_pure (.some ha)
  · exact C.runs_pure (.none w)

end Phrases

/-- **Every phrase runs alike,** as long as the first budget is no larger than the second. -/
theorem phrases (C : Coupling build build') {budget budget' : Nat} (hle : budget ≤ budget') :
    C.Phrases budget budget' := by
  induction budget generalizing budget' with
  | zero => constructor <;> intros <;> exact C.runs_exhausted _
  | succ budget ih =>
    obtain ⟨budget', rfl⟩ : ∃ n, budget' = n + 1 := ⟨budget' - 1, by omega⟩
    have ih := ih (Nat.le_of_succ_le_succ hle)
    exact {
      ternary := runs_ternary ih
      binary := runs_binary ih
      binaryChain := runs_binaryChain ih
      unary := runs_unary ih
      access := runs_access ih
      accessChain := runs_accessChain ih
      arguments := runs_arguments ih
      argumentList := runs_argumentList ih
      operand := runs_operand ih
      listItems := runs_listItems ih
      mapEntries := runs_mapEntries ih
      mapValue := runs_mapValue ih }

/-- **A whole input runs alike.** -/
theorem runs_whole (C : Coupling build build') {budget budget' : Nat} (hle : budget ≤ budget')
    (w : C.World) :
    C.Runs w (C.Made w) (Grammar.whole build budget) (Grammar.whole build' budget') := by
  refine still C.runs_token fun t => ?_
  split
  · exact C.runs_make (.empty w)
  · refine C.runs_bind ((C.phrases hle).ternary w) fun _ _ _ ha => ?_
    exact still (runs_pass _ _) fun _ => C.runs_pure ha

end Coupling

end Binding
