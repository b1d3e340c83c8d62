import Binding.Expr.Basic

/-!
# Walking through a tree

A builder can be handed the nodes of a tree that exists already.  `Expr.traverse` does so in
post-order: first the nodes of the operands, from left to right, and the root last.  The builder
need not know that there is a tree; it sees one call after another.

A builder without a state sees only the operands of each call.  What it makes of a tree is the
*fold* of the tree, in which every constructor is replaced by what the builder makes of it.

The other extreme is `Builder.log`, which makes nothing of a node but its place in the order of the
calls.  `Expr.calls` is what it is called with, written down from the tree alone.

## Main results

* `Expr.traverse_ofFunction`: a traversal without a state is a fold.
* `Expr.records_traverse`: the calls of a traversal.
* `Expr.turns_traverse`: what every call keeps, a traversal keeps.  Such an invariant may speak of
  the values that are *held*, that is, made already and not yet used in a node.
-/

namespace Binding

namespace Expr

variable {σ α : Type}

/-! ### Folds -/

mutual

/-- The tree with each of its constructors replaced by what the function makes of it. -/
def fold (f : Node α → α) : Expr → α
  | .empty => f .empty
  | .literal value => f (.literal value)
  | .identifier name => f (.identifier name)
  | .unary op operand => f (.unary op (fold f operand))
  | .binary op left right => f (.binary op (fold f left) (fold f right))
  | .getter receiver name => f (.getter (fold f receiver) name)
  | .invoke receiver method none => f (.invoke (fold f receiver) method none)
  | .invoke receiver method (some args) =>
    f (.invoke (fold f receiver) method (some (foldArguments f args)))
  | .paren child => f (.paren (fold f child))
  | .index receiver argument => f (.index (fold f receiver) (fold f argument))
  | .ternary condition whenTrue whenFalse =>
    f (.ternary (fold f condition) (fold f whenTrue) (fold f whenFalse))
  | .map entries => f (.map (foldEntries f entries))
  | .list items => f (.list (foldItems f items))

/-- The fold of each argument. -/
def foldArguments (f : Node α → α) : List Expr → List α
  | [] => []
  | argument :: rest => fold f argument :: foldArguments f rest

/-- The fold of each value of an entry. -/
def foldEntries (f : Node α → α) : List (String × Option Expr) → List (String × Option α)
  | [] => []
  | (key, none) :: rest => (key, none) :: foldEntries f rest
  | (key, some value) :: rest => (key, some (fold f value)) :: foldEntries f rest

/-- The fold of each item. -/
def foldItems (f : Node α → α) : List (Option Expr) → List (Option α)
  | [] => []
  | none :: rest => none :: foldItems f rest
  | some item :: rest => some (fold f item) :: foldItems f rest

end

/-! ### Traversals -/

mutual

/-- Hands the nodes of the tree to the builder: those of the operands from left to right, and the
root last. -/
def traverse (build : Builder σ α) : Expr → StateM σ α
  | .empty => build .empty
  | .literal value => build (.literal value)
  | .identifier name => build (.identifier name)
  | .unary op operand => do
    let operand ← traverse build operand
    build (.unary op operand)
  | .binary op left right => do
    let left ← traverse build left
    let right ← traverse build right
    build (.binary op left right)
  | .getter receiver name => do
    let receiver ← traverse build receiver
    build (.getter receiver name)
  | .invoke receiver method none => do
    let receiver ← traverse build receiver
    build (.invoke receiver method none)
  | .invoke receiver method (some args) => do
    let receiver ← traverse build receiver
    let args ← traverseArguments build args
    build (.invoke receiver method (some args))
  | .paren child => do
    let child ← traverse build child
    build (.paren child)
  | .index receiver argument => do
    let receiver ← traverse build receiver
    let argument ← traverse build argument
    build (.index receiver argument)
  | .ternary condition whenTrue whenFalse => do
    let condition ← traverse build condition
    let whenTrue ← traverse build whenTrue
    let whenFalse ← traverse build whenFalse
    build (.ternary condition whenTrue whenFalse)
  | .map entries => do
    let entries ← traverseEntries build entries
    build (.map entries)
  | .list items => do
    let items ← traverseItems build items
    build (.list items)

/-- Hands the nodes of one tree after another to the builder. -/
def traverseArguments (build : Builder σ α) : List Expr → StateM σ (List α)
  | [] => return []
  | argument :: rest => do
    let argument ← traverse build argument
    let rest ← traverseArguments build rest
    return argument :: rest

/-- Hands the nodes of one value of an entry after another to the builder. -/
def traverseEntries (build : Builder σ α) :
    List (String × Option Expr) → StateM σ (List (String × Option α))
  | [] => return []
  | (key, none) :: rest => do
    let rest ← traverseEntries build rest
    return (key, none) :: rest
  | (key, some value) :: rest => do
    let value ← traverse build value
    let rest ← traverseEntries build rest
    return (key, some value) :: rest

/-- Hands the nodes of one item after another to the builder. -/
def traverseItems (build : Builder σ α) : List (Option Expr) → StateM σ (List (Option α))
  | [] => return []
  | none :: rest => do
    let rest ← traverseItems build rest
    return none :: rest
  | some item :: rest => do
    let item ← traverse build item
    let rest ← traverseItems build rest
    return some item :: rest

end

mutual

/-- A traversal without a state is a fold. -/
theorem traverse_ofFunction (f : Node α → α) :
    (e : Expr) → traverse (.ofFunction f) e = pure (fold f e)
  | .empty | .literal _ | .identifier _ => rfl
  | .unary _ a | .getter a _ | .invoke a _ none | .paren a => by
    simp only [traverse, fold, traverse_ofFunction f a]
    rfl
  | .binary _ a b | .index a b => by
    simp only [traverse, fold, traverse_ofFunction f a, traverse_ofFunction f b]
    rfl
  | .invoke a _ (some args) => by
    simp only [traverse, fold, traverse_ofFunction f a, traverseArguments_ofFunction f args]
    rfl
  | .ternary a b c => by
    simp only [traverse, fold, traverse_ofFunction f a, traverse_ofFunction f b,
      traverse_ofFunction f c]
    rfl
  | .map entries => by
    simp only [traverse, fold, traverseEntries_ofFunction f entries]
    rfl
  | .list items => by
    simp only [traverse, fold, traverseItems_ofFunction f items]
    rfl

theorem traverseArguments_ofFunction (f : Node α → α) :
    (args : List Expr) → traverseArguments (.ofFunction f) args = pure (foldArguments f args)
  | [] => rfl
  | a :: rest => by
    simp only [traverseArguments, foldArguments, traverse_ofFunction f a,
      traverseArguments_ofFunction f rest]
    rfl

theorem traverseEntries_ofFunction (f : Node α → α) : (entries : List (String × Option Expr)) →
    traverseEntries (.ofFunction f) entries = pure (foldEntries f entries)
  | [] => rfl
  | (_, none) :: rest => by
    simp only [traverseEntries, foldEntries, traverseEntries_ofFunction f rest]
    rfl
  | (_, some a) :: rest => by
    simp only [traverseEntries, foldEntries, traverse_ofFunction f a,
      traverseEntries_ofFunction f rest]
    rfl

theorem traverseItems_ofFunction (f : Node α → α) : (items : List (Option Expr)) →
    traverseItems (.ofFunction f) items = pure (foldItems f items)
  | [] => rfl
  | none :: rest => by
    simp only [traverseItems, foldItems, traverseItems_ofFunction f rest]
    rfl
  | some a :: rest => by
    simp only [traverseItems, foldItems, traverse_ofFunction f a, traverseItems_ofFunction f rest]
    rfl

end

/-! ### The calls of a traversal -/

mutual

/-- The place of the root in the post-order of the nodes, if the first of them has the place
`start`. -/
def place (start : Nat) : Expr → Nat
  | .empty | .literal _ | .identifier _ => start
  | .unary _ operand => place start operand + 1
  | .binary _ left right => place (place start left + 1) right + 1
  | .getter receiver _ => place start receiver + 1
  | .invoke receiver _ none => place start receiver + 1
  | .invoke receiver _ (some args) => afterArguments (place start receiver + 1) args
  | .paren child => place start child + 1
  | .index receiver argument => place (place start receiver + 1) argument + 1
  | .ternary condition whenTrue whenFalse =>
    place (place (place start condition + 1) whenTrue + 1) whenFalse + 1
  | .map entries => afterEntries start entries
  | .list items => afterItems start items

/-- The first place after the nodes of the arguments. -/
def afterArguments (start : Nat) : List Expr → Nat
  | [] => start
  | argument :: rest => afterArguments (place start argument + 1) rest

/-- The first place after the nodes of the values. -/
def afterEntries (start : Nat) : List (String × Option Expr) → Nat
  | [] => start
  | (_, none) :: rest => afterEntries start rest
  | (_, some value) :: rest => afterEntries (place start value + 1) rest

/-- The first place after the nodes of the items. -/
def afterItems (start : Nat) : List (Option Expr) → Nat
  | [] => start
  | none :: rest => afterItems start rest
  | some item :: rest => afterItems (place start item + 1) rest

end

/-- The place of the root of each argument. -/
def placeArguments (start : Nat) : List Expr → List Nat
  | [] => []
  | argument :: rest => argument.place start :: placeArguments (argument.place start + 1) rest

/-- The place of the root of each value. -/
def placeEntries (start : Nat) : List (String × Option Expr) → List (String × Option Nat)
  | [] => []
  | (key, none) :: rest => (key, none) :: placeEntries start rest
  | (key, some value) :: rest =>
    (key, some (value.place start)) :: placeEntries (value.place start + 1) rest

/-- The place of the root of each item. -/
def placeItems (start : Nat) : List (Option Expr) → List (Option Nat)
  | [] => []
  | none :: rest => none :: placeItems start rest
  | some item :: rest => some (item.place start) :: placeItems (item.place start + 1) rest

mutual

/-- The nodes of the tree in post-order, if the first of them has the place `start`.  The operands
of a node are given by their places. -/
def calls (start : Nat) : Expr → List (Node Nat)
  | .empty => [.empty]
  | .literal value => [.literal value]
  | .identifier name => [.identifier name]
  | .unary op operand => calls start operand ++ [.unary op (operand.place start)]
  | .binary op left right =>
    let next := left.place start + 1
    calls start left ++ (calls next right ++ [.binary op (left.place start) (right.place next)])
  | .getter receiver name => calls start receiver ++ [.getter (receiver.place start) name]
  | .invoke receiver method none =>
    calls start receiver ++ [.invoke (receiver.place start) method none]
  | .invoke receiver method (some args) =>
    let next := receiver.place start + 1
    calls start receiver ++ (callsArguments next args ++
      [.invoke (receiver.place start) method (some (placeArguments next args))])
  | .paren child => calls start child ++ [.paren (child.place start)]
  | .index receiver argument =>
    let next := receiver.place start + 1
    calls start receiver ++ (calls next argument ++
      [.index (receiver.place start) (argument.place next)])
  | .ternary condition whenTrue whenFalse =>
    let next := condition.place start + 1
    let last := whenTrue.place next + 1
    calls start condition ++ (calls next whenTrue ++ (calls last whenFalse ++
      [.ternary (condition.place start) (whenTrue.place next) (whenFalse.place last)]))
  | .map entries => callsEntries start entries ++ [.map (placeEntries start entries)]
  | .list items => callsItems start items ++ [.list (placeItems start items)]

/-- The nodes of one argument after another. -/
def callsArguments (start : Nat) : List Expr → List (Node Nat)
  | [] => []
  | argument :: rest => calls start argument ++ callsArguments (argument.place start + 1) rest

/-- The nodes of one value after another. -/
def callsEntries (start : Nat) : List (String × Option Expr) → List (Node Nat)
  | [] => []
  | (_, none) :: rest => callsEntries start rest
  | (_, some value) :: rest => calls start value ++ callsEntries (value.place start + 1) rest

/-- The nodes of one item after another. -/
def callsItems (start : Nat) : List (Option Expr) → List (Node Nat)
  | [] => []
  | none :: rest => callsItems start rest
  | some item :: rest => calls start item ++ callsItems (item.place start + 1) rest

end

/-- With a log of `start` nodes, the computation gives the result, adds the nodes to the log and
leaves `stop` of them there. -/
def Records {β : Type} (start : Nat) (x : StateM (Array (Node Nat)) β) (b : β)
    (nodes : List (Node Nat)) (stop : Nat) : Prop :=
  ∀ log, log.size = start →
    x log = (b, log ++ nodes.toArray) ∧ (log ++ nodes.toArray).size = stop

theorem records_pure {β : Type} (start : Nat) (b : β) : Records start (pure b) b [] start := by
  intro log hsize
  rw [show log ++ [].toArray = log from Array.append_empty]
  exact ⟨rfl, hsize⟩

theorem records_log (start : Nat) (node : Node Nat) :
    Records start (Builder.log node) start [node] (start + 1) := by
  rintro log rfl
  simp [Builder.log]

theorem Records.bind {β γ : Type} {start next stop : Nat} {x : StateM (Array (Node Nat)) β}
    {f : β → StateM (Array (Node Nat)) γ} {b : β} {c : γ} {nodes nodes' : List (Node Nat)}
    (hx : Records start x b nodes next) (hf : Records next (f b) c nodes' stop) :
    Records start (x >>= f) c (nodes ++ nodes') stop := by
  intro log hsize
  obtain ⟨hx, hnext⟩ := hx log hsize
  obtain ⟨hf, hstop⟩ := hf _ hnext
  have hassoc : log ++ nodes.toArray ++ nodes'.toArray = log ++ (nodes ++ nodes').toArray := by
    simp
  rw [hassoc] at hf hstop
  refine ⟨?_, hstop⟩
  show f (x log).1 (x log).2 = _
  rw [hx, hf]

/-- A computation that goes on with its result and logs nothing more. -/
theorem Records.map {β γ : Type} {start stop : Nat} {x : StateM (Array (Node Nat)) β} {b : β}
    {nodes : List (Node Nat)} (hx : Records start x b nodes stop) (f : β → γ) :
    Records start (x >>= fun b => pure (f b)) (f b) nodes stop := by
  have h := Records.bind hx (f := fun b => pure (f b)) (records_pure stop (f b))
  rwa [List.append_nil] at h

mutual

/-- A traversal logs the nodes in post-order, and makes of the tree the place of its root. -/
theorem records_traverse (start : Nat) : (e : Expr) →
    Records start (traverse .log e) (e.place start) (e.calls start) (e.place start + 1)
  | .empty | .literal _ | .identifier _ => records_log start _
  | .unary _ a | .getter a _ | .invoke a _ none | .paren a =>
    (records_traverse start a).bind (records_log _ _)
  | .binary _ a b | .index a b =>
    (records_traverse start a).bind ((records_traverse _ b).bind (records_log _ _))
  | .invoke a _ (some args) =>
    (records_traverse start a).bind ((records_traverseArguments _ args).bind (records_log _ _))
  | .ternary a b c =>
    (records_traverse start a).bind ((records_traverse _ b).bind
      ((records_traverse _ c).bind (records_log _ _)))
  | .map entries => (records_traverseEntries start entries).bind (records_log _ _)
  | .list items => (records_traverseItems start items).bind (records_log _ _)

theorem records_traverseArguments (start : Nat) : (args : List Expr) →
    Records start (traverseArguments .log args) (placeArguments start args)
      (callsArguments start args) (afterArguments start args)
  | [] => records_pure start []
  | a :: rest => (records_traverse start a).bind ((records_traverseArguments _ rest).map _)

theorem records_traverseEntries (start : Nat) : (entries : List (String × Option Expr)) →
    Records start (traverseEntries .log entries) (placeEntries start entries)
      (callsEntries start entries) (afterEntries start entries)
  | [] => records_pure start []
  | (_, none) :: rest => (records_traverseEntries start rest).map _
  | (_, some a) :: rest => (records_traverse start a).bind ((records_traverseEntries _ rest).map _)

theorem records_traverseItems (start : Nat) : (items : List (Option Expr)) →
    Records start (traverseItems .log items) (placeItems start items)
      (callsItems start items) (afterItems start items)
  | [] => records_pure start []
  | none :: rest => (records_traverseItems start rest).map _
  | some a :: rest => (records_traverse start a).bind ((records_traverseItems _ rest).map _)

end

/-! ### What a traversal keeps -/

section Keeps

/-- The condition speaks of the state and of the values that are held, that is, made already and not
yet used in a node.  If it holds with the values `before` held last, then it holds after the
computation with those in `after` instead. -/
def Turns {β : Type} (P : σ → List α → Prop) (before : List α) (x : StateM σ β)
    (after : β → List α) : Prop :=
  ∀ s held, P s (held ++ before) → P (x s).2 (held ++ after (x s).1)

variable {P : σ → List α → Prop} {β γ : Type}

theorem turns_pure {before : List α} {after : β → List α} {b : β} (h : after b = before) :
    Turns P before (pure b) after :=
  fun _ _ hP => h ▸ hP

theorem Turns.bind {before : List α} {mid : β → List α} {after : γ → List α} {x : StateM σ β}
    {f : β → StateM σ γ} (hx : Turns P before x mid) (hf : ∀ b, Turns P (mid b) (f b) after) :
    Turns P before (x >>= f) after :=
  fun s held h => hf _ _ held (hx s held h)

/-- What is held besides does not matter. -/
theorem Turns.frame {before : List α} {after : β → List α} {x : StateM σ β}
    (hx : Turns P before x after) (besides : List α) :
    Turns P (besides ++ before) x (fun b => besides ++ after b) := by
  intro s held h
  rw [← List.append_assoc] at h ⊢
  exact hx s _ h

/-- What a computation makes of nothing, it makes with other values held. -/
theorem Turns.beside {after : β → List α} {x : StateM σ β} (hx : Turns P [] x after)
    (besides : List α) : Turns P besides x (fun b => besides ++ after b) := by
  have h := hx.frame besides
  rwa [List.append_nil] at h

/-- Every call of the builder puts the node in the place of its operands. -/
def Uses (build : Builder σ α) (P : σ → List α → Prop) : Prop :=
  ∀ node, Turns P node.operands (build node) fun a => [a]

theorem Uses.turns {build : Builder σ α} (huses : Uses build P) {node : Node α} {before : List α}
    (h : node.operands = before) : Turns P before (build node) fun a => [a] :=
  h ▸ huses node

variable {build : Builder σ α}

mutual

/-- What every call keeps, a traversal keeps. -/
theorem turns_traverse (huses : Uses build P) :
    (e : Expr) → Turns P [] (traverse build e) fun a => [a]
  | .empty | .literal _ | .identifier _ => huses.turns rfl
  | .unary _ a | .getter a _ | .invoke a _ none | .paren a =>
    (turns_traverse huses a).bind fun _ => huses.turns rfl
  | .binary _ a b | .index a b =>
    (turns_traverse huses a).bind fun _ =>
      ((turns_traverse huses b).beside _).bind fun _ => huses.turns rfl
  | .invoke a _ (some args) =>
    (turns_traverse huses a).bind fun _ =>
      ((turns_traverseArguments huses args).beside _).bind fun _ => huses.turns rfl
  | .ternary a b c =>
    (turns_traverse huses a).bind fun _ => ((turns_traverse huses b).beside _).bind fun _ =>
      ((turns_traverse huses c).beside _).bind fun _ => huses.turns rfl
  | .map entries => (turns_traverseEntries huses entries).bind fun _ => huses.turns rfl
  | .list items => (turns_traverseItems huses items).bind fun _ => huses.turns rfl

theorem turns_traverseArguments (huses : Uses build P) :
    (args : List Expr) → Turns P [] (traverseArguments build args) fun as => as
  | [] => turns_pure rfl
  | a :: rest =>
    (turns_traverse huses a).bind fun _ =>
      ((turns_traverseArguments huses rest).beside _).bind fun _ => turns_pure rfl

theorem turns_traverseEntries (huses : Uses build P) : (entries : List (String × Option Expr)) →
    Turns P [] (traverseEntries build entries) fun as => as.filterMap (·.2)
  | [] => turns_pure rfl
  | (_, none) :: rest => (turns_traverseEntries huses rest).bind fun _ => turns_pure rfl
  | (_, some a) :: rest =>
    (turns_traverse huses a).bind fun _ =>
      ((turns_traverseEntries huses rest).beside _).bind fun _ => turns_pure rfl

theorem turns_traverseItems (huses : Uses build P) : (items : List (Option Expr)) →
    Turns P [] (traverseItems build items) fun as => as.filterMap id
  | [] => turns_pure rfl
  | none :: rest => (turns_traverseItems huses rest).bind fun _ => turns_pure rfl
  | some a :: rest =>
    (turns_traverse huses a).bind fun _ =>
      ((turns_traverseItems huses rest).beside _).bind fun _ => turns_pure rfl

end

end Keeps

/-- A log in which every operand is the place of an earlier node and none is used twice, with some
places held that are not used yet. -/
structure Linked (log : Array (Node Nat)) (held : List Nat) : Prop where
  earlier (i : Nat) (hi : i < log.size) : ∀ j ∈ log[i].operands, j < i
  held_lt : ∀ j ∈ held, j < log.size
  once : (log.toList.flatMap Node.operands ++ held).Nodup

theorem linked_empty : Linked #[] [] :=
  ⟨fun i hi => by simp at hi, by simp, by simp⟩

/-- Every operand is the place of a node in the log. -/
theorem Linked.used_lt {log : Array (Node Nat)} {held : List Nat} (h : Linked log held) :
    ∀ j ∈ log.toList.flatMap Node.operands, j < log.size := by
  intro j hj
  obtain ⟨node, hnode, hj⟩ := List.mem_flatMap.1 hj
  obtain ⟨i, hi, rfl⟩ := List.getElem_of_mem hnode
  rw [Array.length_toList] at hi
  have hlt := h.earlier i hi j (by simpa using hj)
  omega

/-- Logging a node uses its operands and makes a new place to hold. -/
theorem linked_push {log : Array (Node Nat)} {held : List Nat} {node : Node Nat}
    (h : Linked log (held ++ node.operands)) : Linked (log.push node) (held ++ [log.size]) where
  earlier i hi j hj := by
    rw [Array.getElem_push] at hj
    split at hj
    · exact h.earlier i _ j hj
    · have hlt := h.held_lt j (List.mem_append_right _ hj)
      rw [Array.size_push] at hi
      omega
  held_lt j hj := by
    rw [Array.size_push]
    rcases List.mem_append.1 hj with hj | hj
    · have hlt := h.held_lt j (List.mem_append_left _ hj)
      omega
    · rw [List.mem_singleton.1 hj]
      omega
  once := by
    have hfresh : log.size ∉ log.toList.flatMap Node.operands ++ (held ++ node.operands) := by
      intro hmem
      rcases List.mem_append.1 hmem with hmem | hmem
      · exact Nat.lt_irrefl _ (h.used_lt _ hmem)
      · exact Nat.lt_irrefl _ (h.held_lt _ hmem)
    have hnodup := (List.nodup_cons.2 ⟨hfresh, h.once⟩)
    refine (List.Perm.nodup_iff ?_).1 hnodup
    rw [Array.toList_push, List.flatMap_append, List.flatMap_singleton]
    grind

theorem uses_log : Uses Builder.log Linked :=
  fun _ _ _ h => linked_push h

end Expr

end Binding
