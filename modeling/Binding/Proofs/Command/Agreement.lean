import Binding.Command
import Binding.Proofs.Expr.Everywhere
import Binding.Proofs.Parser.PostOrder

/-!
# The commands agree

Two of the commands parse with the builder of trees, and the third one with the builder of code
nodes.  Code nodes carry trees, and their builder takes these out of the operands and makes the same
tree of them again; so the root that it ends with carries the tree that the other builder makes
(`Code.fold_builder`).  And what a parse fails with does not depend on the builder at all.

A request is therefore refused for the same reason whatever the command is, and if it is not
refused, the commands are three views of one tree.

## Main results

* `Code.run_builder`: a parse with the builder of code nodes, under any limit.
* `compile_eq`: the code of a source is that of its tree.
* `Request.execute_agree`: what the three commands make of one request.
-/

namespace Binding

namespace Code

/-- What the builder of code nodes makes of a node. -/
def ofNode (context : String) (node : Node Code) : Code :=
  ⟨.ofNode (node.mapOperands Code.expr), context⟩

theorem builder_eq (context : Context) : builder context = .ofFunction (ofNode context.name) := rfl

/-- **The builder of code nodes makes the same tree,** with the context next to it. -/
theorem fold_ofNode (context : String) (e : Expr) : e.fold (ofNode context) = ⟨e, context⟩ := by
  induction e using Expr.operandInduction with
  | h e ih =>
    have hsame : e.toNode.mapOperands (Code.expr ∘ Expr.fold (ofNode context)) = e.toNode :=
      Node.mapOperands_eq_self fun a ha => congrArg Code.expr (ih a ha)
    calc e.fold (ofNode context)
        = ofNode context (e.toNode.mapOperands (Expr.fold (ofNode context))) := by
          rw [← Expr.fold_ofNode (ofNode context), Expr.ofNode_toNode]
      _ = ⟨e, context⟩ := by
          rw [ofNode, Node.mapOperands_mapOperands, hsame, Expr.ofNode_toNode]

/-- A parse with the builder of code nodes ends as a parse with the builder of trees does. -/
theorem run_builder (context : Context) (allowance : Option Allowance) (source : String) :
    (Parser.run (builder context) allowance () source).1 =
      (Expr.parseWithin allowance source).map (⟨·, context.name⟩) := by
  have hrun := Parser.run_eq_traverse (builder context) allowance () source
  revert hrun
  cases Expr.parseWithin allowance source with
  | error e =>
    rintro ⟨trees, hrun⟩
    rw [hrun]
    rfl
  | ok e =>
    intro hrun
    rw [hrun, builder_eq, Expr.traverse_ofFunction, fold_ofNode]
    rfl

end Code

/-- **The code of a source is that of its tree.** -/
theorem compile_eq (context : Context) (source : String) :
    compile context source = (Expr.parse source).map (Expr.render context.name) := by
  rw [compile, Code.run_builder, Expr.parse]
  cases Expr.parseWithin (some .default) source <;> rfl

/-- The context in force has the name that was chosen, or that of the default one. -/
theorem Context.name_of_choose {name : Option String} {context : Context}
    (h : choose name = .ok context) : context.name = name.getD "model" := by
  cases name with
  | none =>
    obtain rfl := Except.ok.inj h
    rfl
  | some name =>
    rw [choose, ofName] at h
    split at h
    · obtain rfl := Except.ok.inj h
      rfl
    · cases h

/-- An expression that cannot be parsed fails in the same way whatever the command is. -/
theorem Command.apply_of_error (command : Command) (json : Bool) (context : Context)
    {source : String} {e : ParseError} (h : Expr.parse source = .error e) :
    command.apply json context source = .error e := by
  cases command <;> simp [apply, compile_eq, h, Except.map]

namespace Request

/-- **The three commands agree.**  A request without an expression is refused first, then one with
a name that is no context, then one with an expression that cannot be parsed under the default
limit; which command it is makes no difference.  Otherwise there is a tree, and the commands say
that it exists, dump it, and write its code in the context in force: by itself, or in a document
next to the expression as it was given. -/
theorem execute_agree (expression name : Option String) (json : Bool) :
    match expression with
    | none => ∀ command, execute ⟨command, none, name, json⟩ = .error .noInput
    | some source =>
      match Context.choose name with
      | .error e => ∀ command, execute ⟨command, some source, name, json⟩ = .error (.context e)
      | .ok context =>
        context.name = name.getD "model" ∧
        match Expr.parse source with
        | .error e => ∀ command, execute ⟨command, some source, name, json⟩ = .error (.parse e)
        | .ok tree =>
          execute ⟨.check, some source, name, json⟩ = .ok .valid ∧
          execute ⟨.ast, some source, name, json⟩ = .ok (.json tree.toJson) ∧
          execute ⟨.compile, some source, name, json⟩ =
            .ok (if json then .json (.object [("code", .string (tree.render context.name)),
                ("expression", .string source)])
              else .code (tree.render context.name)) := by
  cases expression with
  | none => exact fun _ => rfl
  | some source =>
    dsimp only
    cases hname : Context.choose name with
    | error e =>
      intro command
      simp [execute, hname, bind, Except.bind, Except.mapError]
    | ok context =>
      have hexecute (command : Command) : execute ⟨command, some source, name, json⟩ =
          (command.apply json context source).mapError .parse := by
        simp [execute, hname, bind, Except.bind, Except.mapError]
      refine ⟨Context.name_of_choose hname, ?_⟩
      cases hparse : Expr.parse source with
      | error e =>
        intro command
        rw [hexecute, Command.apply_of_error command json context hparse]
        rfl
      | ok tree =>
        simp only [hexecute, Command.apply, compile_eq, hparse]
        exact ⟨rfl, rfl, rfl⟩

end Request

end Binding
