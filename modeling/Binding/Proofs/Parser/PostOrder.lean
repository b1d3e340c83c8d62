import Binding.Proofs.Expr.Traversal
import Binding.Proofs.Parser.Lockstep

/-!
# The parser as a traversal

The parser never looks at what its builder makes.  So a parse with some builder goes through the
same states as the parse that makes trees, but for the state of the builder, and what the builder
sees of it is a traversal of the tree: its nodes in post-order.

That includes parses that fail.  What has been made until then are the trees of the phrases that
were complete, from left to right, and the builder has been handed these one after another.

## The moments of a parse

The two parses are a `Coupling` whose moments are the states of the builder.  Only states count
that a traversal of some trees can leave, so that every moment, and in particular the last one of a
parse that fails, says what the builder has seen.

## Main results

* `Expr.agree_apply`: a call with any builder ends as the same call with the builder of trees, and
  what it gives is a traversal of the tree.
* `Parser.run_eq_traverse`: a parse with any builder, even one with a state, is a traversal of the
  tree, or, if there is none, of a list of trees.
* `Expr.run_fold_and_log`: a builder without a state makes the fold of the tree, and the log of all
  calls is the post-order of the tree.
-/

namespace Binding

/-- The parser without the state of its builder. -/
def Parser.plain {σ : Type} (p : Parser σ) : Parser Unit :=
  ⟨p.feed, p.current, p.allowance, ()⟩

namespace Expr

variable {σ α β β' γ γ' W : Type} {build : Builder σ α}

/-! ### Nodes whose operands were made one after another -/

/-- Between the two moments, the builder was handed the tree and made the value of it. -/
def Made (build : Builder σ α) (state : W → σ) (v w : W) (a : α) (e : Expr) : Prop :=
  e.traverse build (state v) = (a, state w)

theorem bind_eq {x : StateM σ β} {f : β → StateM σ γ} {s v : σ} {b : β} (h : x s = (b, v)) :
    (x >>= f) s = f b v := by
  show f (x s).1 (x s).2 = f b v
  rw [h]

variable {state : W → σ} {v w : W}

theorem traverseArguments_of_sequence {as : List α} {trees : List Expr}
    (h : Sequence (Made build state) v as trees w) :
    traverseArguments build trees (state v) = (as, state w) := by
  induction h with
  | nil w => rfl
  | cons ha _ ih =>
    rw [traverseArguments, bind_eq ha, bind_eq ih]
    rfl

theorem traverseEntries_of_sequence {as : List (String × Option α)}
    {entries : List (String × Option Expr)}
    (h : Sequence (Keyed (Made build state)) v as entries w) :
    traverseEntries build entries (state v) = (as, state w) := by
  induction h with
  | nil w => rfl
  | @cons _ _ _ entry entry' _ _ ha _ ih =>
    obtain ⟨key, a⟩ := entry
    obtain ⟨_, e⟩ := entry'
    obtain ⟨rfl, ha⟩ := ha
    cases ha with
    | none =>
      rw [traverseEntries, bind_eq ih]
      rfl
    | some ha =>
      rw [traverseEntries, bind_eq ha, bind_eq ih]
      rfl

theorem traverseItems_of_sequence {as : List (Option α)} {items : List (Option Expr)}
    (h : Sequence (Perhaps (Made build state)) v as items w) :
    traverseItems build items (state v) = (as, state w) := by
  induction h with
  | nil w => rfl
  | cons ha _ ih =>
    cases ha with
    | none =>
      rw [traverseItems, bind_eq ih]
      rfl
    | some ha =>
      rw [traverseItems, bind_eq ha, bind_eq ih]
      rfl

/-- A tree is traversed by traversing the operands of its root and then handing over the root. -/
theorem traverse_ofNode {node : Node α} {node' : Node Expr}
    (h : node.Built (Made build state) v node' w) :
    (ofNode node').traverse build (state v) = build node (state w) := by
  cases h with
  | empty | literal | identifier => rfl
  | unary _ ha | getter _ ha | paren ha => rw [ofNode, traverse, bind_eq ha]
  | binary _ ha hb | index ha hb => rw [ofNode, traverse, bind_eq ha, bind_eq hb]
  | invoke _ ha hargs =>
    rw [ofNode, traverse, bind_eq ha, bind_eq (traverseArguments_of_sequence hargs)]
  | ternary ha hb hc => rw [ofNode, traverse, bind_eq ha, bind_eq hb, bind_eq hc]
  | map hentries => rw [ofNode, traverse, bind_eq (traverseEntries_of_sequence hentries)]
  | list hitems => rw [ofNode, traverse, bind_eq (traverseItems_of_sequence hitems)]

/-! ### What a builder has seen -/

/-- Being handed one tree after another has led the builder from the first state to the second. -/
def Seen (build : Builder σ α) (s s' : σ) : Prop :=
  ∃ trees, (traverseArguments build trees s).2 = s'

theorem seen_refl (build : Builder σ α) (s : σ) : Seen build s s :=
  ⟨[], rfl⟩

theorem traverseArguments_append (build : Builder σ α) (trees trees' : List Expr) (s : σ) :
    (traverseArguments build (trees ++ trees') s).2 =
      (traverseArguments build trees' (traverseArguments build trees s).2).2 := by
  induction trees generalizing s with
  | nil => rfl
  | cons e trees ih => exact ih _

theorem Seen.tree {s v w : σ} (h : Seen build s v) {e : Expr} {a : α}
    (he : e.traverse build v = (a, w)) : Seen build s w := by
  obtain ⟨trees, rfl⟩ := h
  refine ⟨trees ++ [e], ?_⟩
  rw [traverseArguments_append, traverseArguments, bind_eq he]
  rfl

/-- What the builder has seen at some moment of a parse that started in the state. -/
abbrev Moment (build : Builder σ α) (s : σ) :=
  { v : σ // Seen build s v }

/-- The two outcomes are the same but for the builder, which has seen trees. -/
inductive Agree (build : Builder σ α) (s : σ) (post : Moment build s → β → β' → Prop) :
    Option (Except ParseError β × Parser σ) → Option (Except ParseError β' × Parser Unit) → Prop
  | exhausted (o : Option (Except ParseError β' × Parser Unit)) : Agree build s post none o
  | error {p : Parser σ} (e : ParseError) : Seen build s p.built →
    Agree build s post (some (.error e, p)) (some (.error e, p.plain))
  | ok {p : Parser σ} {b : β} {b' : β'} (h : Seen build s p.built) : post ⟨p.built, h⟩ b b' →
    Agree build s post (some (.ok b, p)) (some (.ok b', p.plain))

/-- From the moment on, the two steps have outcomes that agree. -/
def Observes (build : Builder σ α) (s : σ) (w : Moment build s)
    (post : Moment build s → β → β' → Prop) (step : Step σ β) (step' : Step Unit β') : Prop :=
  ∀ p, p.built = w.1 → Agree build s post (step.outcome p) (step'.outcome p.plain)

variable {s : σ} {m : Moment build s} {post : Moment build s → β → β' → Prop}

theorem observes_pure {b : β} {b' : β'} (h : post m b b') :
    Observes build s m post (pure b) (pure b') := by
  intro p hp
  obtain ⟨v, hv⟩ := m
  obtain rfl : p.built = v := hp
  exact .ok hv h

theorem Observes.bind {next : β → Step σ γ} {next' : β' → Step Unit γ'}
    {post' : Moment build s → γ → γ' → Prop} {step : Step σ β} {step' : Step Unit β'}
    (h : Observes build s m post step step')
    (hnext : ∀ v b b', post v b b' → Observes build s v post' (next b) (next' b')) :
    Observes build s m post' (step >>= next) (step' >>= next') := by
  intro p hp
  rw [Step.outcome_bind, Step.outcome_bind]
  have hagree := h p hp
  generalize step.outcome p = o, step'.outcome p.plain = o' at hagree ⊢
  cases hagree with
  | exhausted o => exact .exhausted _
  | error e hq => exact .error e hq
  | ok hq hb => exact hnext _ _ _ hb _ rfl

/-- The builder has no part in a step that does not touch its state. -/
theorem observes_still {step : Step σ β} {step' : Step Unit β}
    (h : ∀ p : Parser σ, ∃ result q, step.outcome p = some (result, q) ∧ q.built = p.built ∧
      step'.outcome p.plain = some (result, q.plain)) :
    Observes build s m (fun v b b' => v = m ∧ b' = b) step step' := by
  intro p hp
  obtain ⟨result, q, hstep, hq, hstep'⟩ := h p
  have hseen : q.built = m.1 := hq.trans hp
  rw [hstep, hstep']
  cases result with
  | error e => exact .error e (hseen ▸ m.2)
  | ok b => exact .ok (hseen ▸ m.2) ⟨Subtype.ext hseen, rfl⟩

theorem observes_advance :
    Observes build s m (fun v u u' => v = m ∧ u' = u) Step.advance Step.advance := by
  refine observes_still fun p => ?_
  rw [Step.outcome_advance, Step.outcome_advance, Parser.plain]
  cases p.feed.next with
  | mk item feed => cases item <;> exact ⟨_, _, rfl, rfl, rfl⟩

theorem outcome_spend_plain (p : Parser σ) : ∃ result q, Step.spend.outcome p = some (result, q) ∧
    q.built = p.built ∧ Step.spend.outcome p.plain = some (result, q.plain) := by
  rw [Step.outcome_spend, Step.outcome_spend, Parser.plain]
  obtain ⟨feed, current, allowance, built⟩ := p
  cases allowance with
  | none => exact ⟨_, _, rfl, rfl, rfl⟩
  | some a =>
    by_cases h : a.remaining = 0
    · simp only [h, if_true]
      exact ⟨_, _, rfl, rfl, rfl⟩
    · simp only [h, if_false]
      exact ⟨_, _, rfl, rfl, rfl⟩

theorem observes_nested {step : Step σ β} {step' : Step Unit β'}
    (h : Observes build s m post step step') :
    Observes build s m post (Step.nested step) (Step.nested step') := by
  intro p hp
  rw [Step.outcome_nested, Step.outcome_nested]
  obtain ⟨result, q, hspend, hq, hspend'⟩ := outcome_spend_plain p
  have hseen : q.built = m.1 := hq.trans hp
  rw [hspend, hspend']
  cases result with
  | error e => exact .error e (hseen ▸ m.2)
  | ok u =>
    have hagree := h q hseen
    dsimp only
    generalize step.outcome q = o, step'.outcome q.plain = o' at hagree ⊢
    cases hagree with
    | exhausted o => exact .exhausted _
    | error e hr => exact .error (p := Step.refund _) e hr
    | ok hr hb => exact .ok (p := Step.refund _) hr hb

theorem observes_restoring {step : Step σ β} {step' : Step Unit β'}
    (h : Observes build s m post step step') :
    Observes build s m post (Step.restoring step) (Step.restoring step') := by
  intro p hp
  rw [Step.outcome_restoring, Step.outcome_restoring]
  have hagree := h p hp
  generalize step.outcome p = o, step'.outcome p.plain = o' at hagree ⊢
  cases hagree with
  | exhausted o => exact .exhausted _
  | error e hq => exact .error e hq
  | @ok q _ _ hq hb => exact .ok (p := q.within p.allowance) hq hb

theorem observes_make {v : Moment build s} {node : Node α} {node' : Node Expr}
    (h : node.Built (Made build Subtype.val) v node' m) :
    Observes build s m (Made build Subtype.val v) (Step.make build node)
      (Step.make builder node') := by
  intro p hp
  have hmade : (ofNode node').traverse build v.1 = build node p.built := by
    rw [traverse_ofNode h, hp]
  exact .ok (p := { p with built := (build node p.built).2 }) (v.2.tree hmade) hmade

/-- Any parse is a traversal of the trees that the parser of trees makes. -/
def observation (build : Builder σ α) (s : σ) : Coupling build builder where
  World := Moment build s
  Made := Made build Subtype.val
  Runs := Observes build s
  runs_pure hpost := observes_pure hpost
  runs_bind h hnext := h.bind hnext
  runs_exhausted _ := fun _ _ => .exhausted _
  runs_token := observes_still fun p => ⟨_, p, rfl, rfl, rfl⟩
  runs_unexpected _ := fun _ hp => .error _ (hp ▸ Subtype.property _)
  runs_advance := observes_advance
  runs_putToken _ := observes_still fun _ => ⟨_, _, rfl, rfl, rfl⟩
  runs_spend := observes_still outcome_spend_plain
  runs_nested h := observes_nested h
  runs_restoring h := observes_restoring h
  runs_make h := observes_make h

/-- **A call, with the builder and with that of trees.** -/
theorem agree_apply (build : Builder σ α) (call : Call) (p : Parser σ) :
    Agree build p.built (fun w a e => e.traverse build p.built = (a, w.1))
      (some (call.apply build p)) (some (call.apply builder p.plain)) := by
  have hagree := Call.runs_step (observation build p.built) call
    (Nat.le_refl (max (Grammar.budget p) (Grammar.budget p.plain))) ⟨p.built, seen_refl _ _⟩ p rfl
  rwa [Call.outcome_step build call p (Nat.le_max_left _ _),
    Call.outcome_step builder call p.plain (Nat.le_max_right _ _)] at hagree

end Expr

/-- **A parse hands its builder the nodes of the tree in post-order.**  If there is no tree, it ends
with the same error whatever the builder, which has been handed some trees one after another. -/
theorem Parser.run_eq_traverse {σ α : Type} (build : Builder σ α) (allowance : Option Allowance)
    (s : σ) (source : String) :
    match Expr.parseWithin allowance source with
    | .ok e =>
      run build allowance s source = (.ok (e.traverse build s).1, (e.traverse build s).2)
    | .error error => ∃ trees,
      run build allowance s source = (.error error, (Expr.traverseArguments build trees s).2) := by
  simp only [Expr.parseWithin, run, ofSource, ofFeed]
  cases (Feed.ofSource source).next with
  | mk item feed =>
    cases item with
    | error e => exact ⟨[], rfl⟩
    | ok lexeme =>
      have hagree := Expr.agree_apply build .parse ⟨feed, lexeme, allowance, s⟩
      dsimp only [Call.apply, plain] at hagree ⊢
      generalize parse build _ = r, parse Expr.builder _ = r' at hagree ⊢
      cases hagree with
      | error e hseen =>
        obtain ⟨trees, htrees⟩ := hseen
        exact ⟨trees, by rw [htrees]⟩
      | ok hseen he =>
        dsimp only
        rw [he]

namespace Expr

/-- **What any builder makes of a source.**

A builder without a state makes of every source the fold of its tree, and if there is none, it fails
with the same error.

The log of all calls is the post-order of the tree, and its last node, the root, is what the builder
makes of the source.  If there is no tree, every operand in the log is the place of an earlier node,
and none is used twice. -/
theorem run_fold_and_log (allowance : Option Allowance) (source : String) :
    (∀ (α : Type) (f : Node α → α),
      (Parser.run (.ofFunction f) allowance () source).1 =
        (parseWithin allowance source).map (fold f)) ∧
    match parseWithin allowance source with
    | .ok e =>
      Parser.run .log allowance #[] source = (.ok (e.place 0), (e.calls 0).toArray) ∧
        (e.calls 0).length = e.place 0 + 1
    | .error error => ∃ log,
      Parser.run .log allowance #[] source = (.error error, log) ∧
        (∀ i (hi : i < log.size), ∀ j ∈ log[i].operands, j < i) ∧
        (log.toList.flatMap Node.operands).Nodup := by
  constructor
  · intro α f
    have hrun := Parser.run_eq_traverse (.ofFunction f) allowance () source
    revert hrun
    cases parseWithin allowance source with
    | error e =>
      rintro ⟨trees, hrun⟩
      rw [hrun]
      rfl
    | ok e =>
      intro hrun
      rw [hrun, traverse_ofFunction]
      rfl
  · have hrun := Parser.run_eq_traverse .log allowance #[] source
    revert hrun
    cases parseWithin allowance source with
    | error e =>
      rintro ⟨trees, hrun⟩
      have hlinked := turns_traverseArguments uses_log trees #[] [] linked_empty
      exact ⟨_, hrun, hlinked.earlier, hlinked.once.sublist (List.sublist_append_left _ _)⟩
    | ok e =>
      intro hrun
      obtain ⟨htraverse, hsize⟩ := records_traverse 0 e #[] rfl
      rw [Array.empty_append] at htraverse hsize
      refine ⟨?_, hsize⟩
      rw [hrun, htraverse]

/-- A call that is not closed: its arguments are in the log, and the sum and the negation point to
their operands. -/
theorem run_log_unclosed_call :
    ∃ log, Parser.run .log none #[] "f(a+b,-c" =
        (.error (.unexpected .eof ⟨8, 1, 9⟩ [.symbol .comma, .symbol .parenClose]), log) ∧
      log = #[.identifier "f", .identifier "a", .identifier "b", .binary .add 1 2,
        .identifier "c", .unary .negate 4] ∧
      (∀ i (hi : i < log.size), ∀ j ∈ log[i].operands, j < i) ∧
      (log.toList.flatMap Node.operands).Nodup := by
  have hparse : parseWithin none "f(a+b,-c" =
      .error (.unexpected .eof ⟨8, 1, 9⟩ [.symbol .comma, .symbol .parenClose]) := by
    decide +kernel
  have hlog : (Parser.run .log none #[] "f(a+b,-c").2 =
      #[.identifier "f", .identifier "a", .identifier "b", .binary .add 1 2,
        .identifier "c", .unary .negate 4] := by
    decide +kernel
  have h := (run_fold_and_log none "f(a+b,-c").2
  rw [hparse] at h
  obtain ⟨log, hrun, hearlier, honce⟩ := h
  rw [hrun] at hlog
  exact ⟨log, hrun, hlog, hearlier, honce⟩

end Expr

end Binding
