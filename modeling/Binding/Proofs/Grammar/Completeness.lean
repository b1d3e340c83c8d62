import Binding.Proofs.Grammar.Soundness
import Mathlib.Order.Filter.AtTopBot.Basic

/-!
# What is a phrase is parsed

Where the tokens of a phrase come next, and are followed by a token that cannot prolong it, the
step for the phrase succeeds, passes exactly these tokens, and gives the tree that the declared
grammar gives them, provided there are as many levels of nesting as the tree needs.

`Grammar.Yields` says that a step succeeds with every budget that is large enough.  No amount is
named, and none has to be added up.

## Chains

The declared grammar builds a chain from its last link, the parser from its first operand.  So the
statement about a chain (`Binary.chain`, `Access.chain`) is about what remains to be done: if the
loop goes on to succeed from the chain as its left operand, then it succeeds from the operand that
the chain begins with.  The levels that the links have spent by then are those counted by
`Expr.links` and `Expr.accesses`.

## Main results

`Phrase.Expression.yields`, and its counterparts for the other phrases.
-/

namespace Binding

open Filter

namespace Token

/-- No chain of accesses goes on with the token. -/
structure EndsAccess (t : Token) : Prop where
  ne_dot : t ≠ .symbol .dot
  ne_parenOpen : t ≠ .symbol .parenOpen
  ne_bracketOpen : t ≠ .symbol .bracketOpen

/-- No expression goes on with the token. -/
structure EndsExpression (t : Token) : Prop extends EndsAccess t where
  binary?_eq_none : t.binary? = none
  ne_question : t ≠ .symbol .question

/-- The tokens that can follow a whole expression. -/
theorem endsExpression_of_mem {t : Token}
    (h : t ∈ [.eof, .symbol .colon, .symbol .comma, .symbol .parenClose, .symbol .bracketClose,
      .symbol .braceClose]) : t.EndsExpression := by
  simp only [List.mem_cons, List.not_mem_nil, or_false] at h
  rcases h with rfl | rfl | rfl | rfl | rfl | rfl <;>
    exact { ne_dot := nofun, ne_parenOpen := nofun, ne_bracketOpen := nofun,
            binary?_eq_none := rfl, ne_question := nofun }

theorem endsAccess_binary (op : BinaryOp) : (Token.symbol op.symbol).EndsAccess := by
  cases op <;> exact ⟨nofun, nofun, nofun⟩

/-- An operand begins with the token. -/
def beginsOperand : Token → Bool
  | .number _ | .string _ | .boolean _ | .null | .identifier _ => true
  | .symbol s => s = .parenOpen ∨ s = .bracketOpen ∨ s = .braceOpen
  | .eof => false

/-- An expression begins with the token. -/
def begins (t : Token) : Bool :=
  t.beginsOperand || t.unary?.isSome

theorem unary?_of_beginsOperand {t : Token} (h : t.beginsOperand = true) : t.unary? = none := by
  cases t with
  | symbol s => cases s <;> first | rfl | simp [beginsOperand] at h
  | _ => rfl

theorem ne_symbol_of_begins {t : Token} {s : Symbol} (h : t.begins = true)
    (hs : (Token.symbol s).begins = false) : t ≠ .symbol s := by
  rintro rfl
  rw [hs] at h
  exact Bool.false_ne_true h

end Token

namespace Phrase

/-! ### First tokens -/

theorem Operand.head {ts : List Token} {e : Expr} (h : Operand ts e) :
    ∃ t us, ts = t :: us ∧ t.beginsOperand = true := by
  cases h <;> exact ⟨_, _, rfl, rfl⟩

theorem Access.head {ts : List Token} {e : Expr} :
    Access ts e → ∃ t us, ts = t :: us ∧ t.beginsOperand = true
  | .operand h => h.head
  | .getter h | .method h _ | .call h _ _ | .index h _ => by
    obtain ⟨t, us, rfl, ht⟩ := h.head
    exact ⟨t, _, rfl, ht⟩

theorem Unary.head {ts : List Token} {e : Expr} (h : Unary ts e) :
    ∃ t us, ts = t :: us ∧ t.begins = true := by
  cases h with
  | @apply op _ _ h => exact ⟨_, _, rfl, by cases op <;> rfl⟩
  | access h =>
    obtain ⟨t, us, rfl, ht⟩ := h.head
    exact ⟨t, us, rfl, by simp [Token.begins, ht]⟩

theorem Binary.head {least : Nat} {ts : List Token} {e : Expr} :
    Binary least ts e → ∃ t us, ts = t :: us ∧ t.begins = true
  | .unary h => h.head
  | .join _ h _ => by
    obtain ⟨t, us, rfl, ht⟩ := h.head
    exact ⟨t, _, rfl, ht⟩

theorem Expression.head {ts : List Token} {e : Expr} (h : Expression ts e) :
    ∃ t us, ts = t :: us ∧ t.begins = true := by
  cases h with
  | plain h => exact h.head
  | ternary h _ _ =>
    obtain ⟨t, us, rfl, ht⟩ := h.head
    exact ⟨t, _, rfl, ht⟩

/-- What a parser meets where an operand with its accesses comes next. -/
theorem Access.beginsOperand {ts : List Token} {e : Expr} {p q : Parser Unit} (h : Access ts e)
    (hts : p.Reads ts q) : p.current.token.beginsOperand = true := by
  obtain ⟨t, us, rfl, ht⟩ := h.head
  rwa [(Parser.reads_cons.1 hts).1.1]

/-- What a parser meets where an expression comes next. -/
theorem Expression.begins {ts : List Token} {e : Expr} {p q : Parser Unit} (h : Expression ts e)
    (hts : p.Reads ts q) : p.current.token.begins = true := by
  obtain ⟨t, us, rfl, ht⟩ := h.head
  rwa [(Parser.reads_cons.1 hts).1.1]

theorem ArgumentList.begins {ts : List Token} {args : List Expr} {p q : Parser Unit}
    (h : ArgumentList ts args) (hts : p.Reads ts q) : p.current.token.begins = true := by
  cases h with
  | last h => exact h.begins hts
  | more h _ =>
    obtain ⟨r, hts, -⟩ := Parser.reads_append.1 hts
    exact h.begins hts

end Phrase

namespace Grammar

open Step Phrase

variable {β : Type} {p q r : Parser Unit}

/-- With every budget that is large enough, the step succeeds. -/
def Yields (phrase : Nat → Step Unit β) (p : Parser Unit) (b : β) (q : Parser Unit) : Prop :=
  ∀ᶠ budget in atTop, (phrase budget).Gives p b q

theorem Yields.of_succ {phrase : Nat → Step Unit β} {b : β}
    (h : ∀ᶠ budget in atTop, (phrase (budget + 1)).Gives p b q) : Yields phrase p b q := by
  obtain ⟨least, hleast⟩ := eventually_atTop.1 h
  refine eventually_atTop.2 ⟨least + 1, fun budget hbudget => ?_⟩
  obtain ⟨budget, rfl⟩ : ∃ n, budget = n + 1 := ⟨budget - 1, by omega⟩
  exact hleast budget (Nat.le_of_succ_le_succ hbudget)

theorem Yields.nested {phrase : Nat → Step Unit β} {b : β} {ts : List Token} (hone : p.Affords 1)
    (hts : p.Reads ts q) (h : Yields phrase (p.spent 1) b (q.spent 1)) :
    Yields (fun budget => nested (phrase budget)) p b q := by
  filter_upwards [h] with budget h
  exact gives_nested.2 ⟨hone, _, h, (Parser.refund_spent (hts.affords.2 hone)).symm⟩

/-! ### One round of a loop -/

theorem gives_spend_advance {b : β} {next : Step Unit β} (hone : p.Affords 1)
    (hnext : p.next? = some q) (h : next.Gives (q.spent 1) b r) :
    (do spend; advance; next : Step Unit β).Gives p b r := by
  refine gives_bind.2 ⟨(), _, gives_spend.2 ⟨hone, rfl⟩, gives_bind.2 ⟨(), q.spent 1, ?_, h⟩⟩
  rw [gives_advance, Parser.next?_spent, hnext, Option.map_some]

theorem yields_binaryChain_stop {least : Nat} {left : Expr}
    (h : p.current.token.Looser least) :
    Yields (binaryChain Expr.builder · least left) p left p := by
  refine .of_succ (.of_forall fun budget => gives_token_bind.2 ?_)
  split
  · exact gives_pure.2 ⟨rfl, rfl⟩
  · next op hop =>
    rw [op.precedence_eq_band, if_pos (h op hop)]
    exact gives_pure.2 ⟨rfl, rfl⟩

theorem yields_binaryChain_join {least : Nat} {op : BinaryOp} {left right e : Expr}
    {s : Parser Unit} (hop : p.Reads [.symbol op.symbol] q) (hle : least ≤ op.band)
    (hone : p.Affords 1)
    (hright : Yields (binary Expr.builder · (op.band + 1)) (q.spent 1) right r)
    (hrest : Yields (binaryChain Expr.builder · least (.binary op left right)) r e s) :
    Yields (binaryChain Expr.builder · least left) p e s := by
  obtain ⟨⟨htoken, -⟩, hnext⟩ := Parser.reads_singleton.1 hop
  refine .of_succ ?_
  filter_upwards [hright, hrest] with budget hright hrest
  refine gives_token_bind.2 ?_
  rw [htoken, Token.binary?_eq_some_iff.2 rfl]
  dsimp only
  rw [op.precedence_eq_band, if_neg (Nat.not_lt.2 hle)]
  refine gives_spend_advance hone hnext ?_
  exact gives_bind.2 ⟨_, _, hright, gives_bind.2 ⟨_, _, gives_make.2 ⟨rfl, rfl⟩, hrest⟩⟩

theorem yields_accessChain_stop {receiver : Expr} (h : p.current.token.EndsAccess) :
    Yields (accessChain Expr.builder · receiver) p receiver p := by
  refine .of_succ (.of_forall fun budget => gives_token_bind.2 ?_)
  split
  · next htoken => exact absurd htoken h.ne_dot
  · next htoken => exact absurd htoken h.ne_parenOpen
  · next htoken => exact absurd htoken h.ne_bracketOpen
  · exact gives_pure.2 ⟨rfl, rfl⟩

theorem yields_accessChain_getter {receiver e : Expr} {name : String} {s : Parser Unit}
    (hname : p.Reads [.symbol .dot, .identifier name] q) (hone : p.Affords 1)
    (hparen : q.current.token ≠ .symbol .parenOpen)
    (hrest : Yields (accessChain Expr.builder · (.getter receiver name)) (q.spent 1) e s) :
    Yields (accessChain Expr.builder · receiver) p e s := by
  obtain ⟨⟨htoken, -⟩, p₁, hnext, hp₁⟩ := Parser.reads_cons.1 hname
  refine .of_succ ?_
  filter_upwards [hrest] with budget hrest
  refine gives_token_bind.2 ?_
  rw [htoken]
  refine gives_spend_advance hone hnext ?_
  refine gives_bind.2 ⟨name, q.spent 1, gives_takeName.2 (hp₁.spent 1), gives_token_bind.2 ?_⟩
  rw [Parser.current_spent, if_neg hparen]
  exact gives_bind.2 ⟨_, _, gives_make.2 ⟨rfl, rfl⟩, hrest⟩

theorem yields_accessChain_method {receiver e : Expr} {name : String} {args : List Expr}
    {s : Parser Unit} (hname : p.Reads [.symbol .dot, .identifier name] q) (hone : p.Affords 1)
    (hparen : q.current.token = .symbol .parenOpen)
    (hargs : Yields (arguments Expr.builder) (q.spent 1) args r)
    (hrest : Yields (accessChain Expr.builder · (.invoke receiver (some name) (some args))) r e s) :
    Yields (accessChain Expr.builder · receiver) p e s := by
  obtain ⟨⟨htoken, -⟩, p₁, hnext, hp₁⟩ := Parser.reads_cons.1 hname
  refine .of_succ ?_
  filter_upwards [hargs, hrest] with budget hargs hrest
  refine gives_token_bind.2 ?_
  rw [htoken]
  refine gives_spend_advance hone hnext ?_
  refine gives_bind.2 ⟨name, q.spent 1, gives_takeName.2 (hp₁.spent 1), gives_token_bind.2 ?_⟩
  rw [Parser.current_spent, if_pos hparen]
  exact gives_bind.2 ⟨_, _, hargs, gives_bind.2 ⟨_, _, gives_make.2 ⟨rfl, rfl⟩, hrest⟩⟩

theorem yields_accessChain_call {receiver e : Expr} {args : List Expr}
    (htoken : p.current.token = .symbol .parenOpen) (hone : p.Affords 1)
    (hargs : Yields (arguments Expr.builder) (p.spent 1) args q)
    (hrest : Yields (accessChain Expr.builder · (.invoke receiver none (some args))) q e r) :
    Yields (accessChain Expr.builder · receiver) p e r := by
  refine .of_succ ?_
  filter_upwards [hargs, hrest] with budget hargs hrest
  refine gives_token_bind.2 ?_
  rw [htoken]
  refine gives_bind.2 ⟨(), _, gives_spend.2 ⟨hone, rfl⟩, ?_⟩
  exact gives_bind.2 ⟨_, _, hargs, gives_bind.2 ⟨_, _, gives_make.2 ⟨rfl, rfl⟩, hrest⟩⟩

theorem yields_accessChain_index {receiver i e : Expr} {s p₁ : Parser Unit}
    (hopen : p.Reads [.symbol .bracketOpen] p₁) (hone : p.Affords 1)
    (hi : Yields (ternary Expr.builder) (p₁.spent 1) i q)
    (hclose : q.Reads [.symbol .bracketClose] r)
    (hrest : Yields (accessChain Expr.builder · (.index receiver i)) r e s) :
    Yields (accessChain Expr.builder · receiver) p e s := by
  obtain ⟨⟨htoken, -⟩, hnext⟩ := Parser.reads_singleton.1 hopen
  refine .of_succ ?_
  filter_upwards [hi, hrest] with budget hi hrest
  refine gives_token_bind.2 ?_
  rw [htoken]
  refine gives_spend_advance hone hnext ?_
  refine gives_bind.2 ⟨_, _, hi, gives_bind.2 ⟨(), _, gives_pass_symbol.2 hclose, ?_⟩⟩
  exact gives_bind.2 ⟨_, _, gives_make.2 ⟨rfl, rfl⟩, hrest⟩

/-! ### From the first operand of a chain -/

/-- The operand that a chain of operators begins with, and how the loop gets from there to the
whole chain `e` as its left operand, in the state `q`. -/
def BinaryReached (least : Nat) (p : Parser Unit) (e : Expr) (q : Parser Unit) : Prop :=
  ∃ first us p₁, p.Reads us p₁ ∧ Yields (unary Expr.builder) p first p₁ ∧
    ∀ e' r, Yields (binaryChain Expr.builder · least e) (q.spent e.links) e' r →
      Yields (binaryChain Expr.builder · least first) p₁ e' r

/-- The operand that a chain of accesses begins with, and how the loop gets from there to the
whole chain `e` as its receiver, in the state `q`. -/
def AccessReached (p : Parser Unit) (e : Expr) (q : Parser Unit) : Prop :=
  ∃ first us p₁, p.Reads us p₁ ∧ Yields (operand Expr.builder) p first p₁ ∧
    ∀ e' r, Yields (accessChain Expr.builder · e) (q.spent e.accesses) e' r →
      Yields (accessChain Expr.builder · first) p₁ e' r

theorem BinaryReached.yields {least : Nat} {e : Expr} {ts : List Token}
    (h : BinaryReached least p e q) (hts : p.Reads ts q) (hlooser : q.current.token.Looser least) :
    Yields (binary Expr.builder · least) p e q := by
  obtain ⟨first, us, p₁, hus, hfirst, hchain⟩ := h
  refine .of_succ ?_
  filter_upwards [hfirst, hchain e _ (yields_binaryChain_stop hlooser)] with budget hfirst hchain
  refine gives_bind.2 ⟨_, _, hfirst, gives_restoring.2 ⟨_, hchain, ?_⟩⟩
  rw [Parser.within_spent, hus.allowance_eq, ← hts.allowance_eq, Parser.within_self]

theorem AccessReached.yields {e : Expr} {ts : List Token} (h : AccessReached p e q)
    (hts : p.Reads ts q) (hends : q.current.token.EndsAccess) :
    Yields (access Expr.builder) p e q := by
  obtain ⟨first, us, p₁, hus, hfirst, hchain⟩ := h
  refine .of_succ ?_
  filter_upwards [hfirst, hchain e _ (yields_accessChain_stop hends)] with budget hfirst hchain
  refine gives_bind.2 ⟨_, _, hfirst, gives_restoring.2 ⟨_, hchain, ?_⟩⟩
  rw [Parser.within_spent, hus.allowance_eq, ← hts.allowance_eq, Parser.within_self]

/-! ### Phrases put together from their parts -/

theorem yields_ternary_plain {e : Expr} (h : Yields (binary Expr.builder · 1) p e q)
    (hends : q.current.token ≠ .symbol .question) : Yields (ternary Expr.builder) p e q := by
  refine .of_succ ?_
  filter_upwards [h] with budget h
  refine gives_bind.2 ⟨_, _, h, gives_token_bind.2 ?_⟩
  rw [if_neg hends]
  exact gives_pure.2 ⟨rfl, rfl⟩

theorem yields_ternary {c t f : Expr} {p₁ p₂ p₃ p₄ : Parser Unit}
    (hc : Yields (binary Expr.builder · 1) p c p₁) (hquestion : p₁.Reads [.symbol .question] p₂)
    (ht : Yields (fun budget => nested (ternary Expr.builder budget)) p₂ t p₃)
    (hcolon : p₃.Reads [.symbol .colon] p₄)
    (hf : Yields (fun budget => nested (ternary Expr.builder budget)) p₄ f q) :
    Yields (ternary Expr.builder) p (.ternary c t f) q := by
  obtain ⟨⟨htoken, -⟩, hnext⟩ := Parser.reads_singleton.1 hquestion
  refine .of_succ ?_
  filter_upwards [hc, ht, hf] with budget hc ht hf
  refine gives_bind.2 ⟨_, _, hc, gives_token_bind.2 ?_⟩
  rw [if_pos htoken]
  refine gives_bind.2 ⟨(), _, gives_advance.2 hnext, gives_bind.2 ⟨_, _, ht, ?_⟩⟩
  refine gives_bind.2 ⟨(), _, gives_pass_symbol.2 hcolon, gives_bind.2 ⟨_, _, hf, ?_⟩⟩
  exact gives_make.2 ⟨rfl, rfl⟩

theorem yields_unary_apply {op : UnaryOp} {e : Expr} {p₁ : Parser Unit}
    (hop : p.Reads [.symbol op.symbol] p₁)
    (he : Yields (fun budget => nested (unary Expr.builder budget)) p₁ e q) :
    Yields (unary Expr.builder) p (.unary op e) q := by
  obtain ⟨⟨htoken, -⟩, hnext⟩ := Parser.reads_singleton.1 hop
  refine .of_succ ?_
  filter_upwards [he] with budget he
  refine gives_token_bind.2 ?_
  rw [htoken, Token.unary?_eq_some_iff.2 rfl]
  refine gives_bind.2 ⟨(), _, gives_advance.2 hnext, gives_bind.2 ⟨_, _, he, ?_⟩⟩
  exact gives_make.2 ⟨rfl, rfl⟩

theorem yields_unary_access {e : Expr} (htoken : p.current.token.unary? = none)
    (h : Yields (access Expr.builder) p e q) : Yields (unary Expr.builder) p e q := by
  refine .of_succ ?_
  filter_upwards [h] with budget h
  refine gives_token_bind.2 ?_
  rwa [htoken]

theorem yields_arguments_empty {p₁ : Parser Unit} (hopen : p.Reads [.symbol .parenOpen] p₁)
    (hclose : p₁.Reads [.symbol .parenClose] q) : Yields (arguments Expr.builder) p [] q := by
  refine .of_succ (.of_forall fun budget => ?_)
  refine gives_bind.2 ⟨(), _, gives_pass_symbol.2 hopen, gives_token_bind.2 ?_⟩
  rw [if_pos (Parser.reads_singleton.1 hclose).1.1]
  refine gives_bind.2 ⟨[], _, gives_pure.2 ⟨rfl, rfl⟩, ?_⟩
  exact gives_bind.2 ⟨(), _, gives_pass_symbol.2 hclose, gives_pure.2 ⟨rfl, rfl⟩⟩

theorem yields_arguments_list {args : List Expr} {p₁ p₂ : Parser Unit}
    (hopen : p.Reads [.symbol .parenOpen] p₁) (hne : p₁.current.token ≠ .symbol .parenClose)
    (hargs : Yields (argumentList Expr.builder) p₁ args p₂)
    (hclose : p₂.Reads [.symbol .parenClose] q) : Yields (arguments Expr.builder) p args q := by
  refine .of_succ ?_
  filter_upwards [hargs] with budget hargs
  refine gives_bind.2 ⟨(), _, gives_pass_symbol.2 hopen, gives_token_bind.2 ?_⟩
  rw [if_neg hne]
  refine gives_bind.2 ⟨_, _, hargs, ?_⟩
  exact gives_bind.2 ⟨(), _, gives_pass_symbol.2 hclose, gives_pure.2 ⟨rfl, rfl⟩⟩

theorem yields_argumentList_last {e : Expr} (he : Yields (ternary Expr.builder) p e q)
    (hends : q.current.token ≠ .symbol .comma) : Yields (argumentList Expr.builder) p [e] q := by
  refine .of_succ ?_
  filter_upwards [he] with budget he
  refine gives_bind.2 ⟨_, _, he, gives_token_bind.2 ?_⟩
  rw [if_neg hends]
  exact gives_pure.2 ⟨rfl, rfl⟩

theorem yields_argumentList_more {e : Expr} {args : List Expr} {p₁ p₂ : Parser Unit}
    (he : Yields (ternary Expr.builder) p e p₁) (hcomma : p₁.Reads [.symbol .comma] p₂)
    (hargs : Yields (argumentList Expr.builder) p₂ args q) :
    Yields (argumentList Expr.builder) p (e :: args) q := by
  obtain ⟨⟨htoken, -⟩, hnext⟩ := Parser.reads_singleton.1 hcomma
  refine .of_succ ?_
  filter_upwards [he, hargs] with budget he hargs
  refine gives_bind.2 ⟨_, _, he, gives_token_bind.2 ?_⟩
  rw [if_pos htoken]
  refine gives_bind.2 ⟨(), _, gives_advance.2 hnext, gives_bind.2 ⟨_, _, hargs, ?_⟩⟩
  exact gives_pure.2 ⟨rfl, rfl⟩

theorem gives_brackets {step : Step Unit β} {s : Symbol} {b : β} {ts : List Token}
    {p₁ : Parser Unit} (hopen : p.Reads [.symbol s] p₁) (hone : p.Affords 1) (hts : p.Reads ts q)
    (hstep : step.Gives (p₁.spent 1) b (q.spent 1)) :
    (do takeOperand; nested (do advance; step) : Step Unit β).Gives p b q := by
  obtain ⟨-, hnext⟩ := Parser.reads_singleton.1 hopen
  exact gives_bracketed.2
    ⟨hone, p₁, _, hnext, hstep, (Parser.refund_spent (hts.affords.2 hone)).symm⟩

theorem yields_operand_leaf {t : Token} {e : Expr} (hoperand : Operand [t] e)
    (h : p.Reads [t] q) : Yields (operand Expr.builder) p e q := by
  obtain ⟨⟨htoken, -⟩, hnext⟩ := Parser.reads_singleton.1 h
  refine .of_succ (.of_forall fun budget => gives_token_bind.2 ?_)
  rw [htoken]
  generalize hts : [t] = ts at hoperand
  cases hoperand with
  | paren | list | map => simp at hts
  | _ =>
    obtain rfl := List.singleton_inj.1 hts
    exact gives_leaf.2 ⟨rfl, hnext⟩

theorem yields_operand_paren {e : Expr} {ts : List Token} {p₁ p₂ : Parser Unit}
    (hone : p.Affords 1) (hts : p.Reads ts q) (hopen : p.Reads [.symbol .parenOpen] p₁)
    (he : Yields (ternary Expr.builder) (p₁.spent 1) e (p₂.spent 1))
    (hclose : p₂.Reads [.symbol .parenClose] q) :
    Yields (operand Expr.builder) p (.paren e) q := by
  refine .of_succ ?_
  filter_upwards [he] with budget he
  refine gives_token_bind.2 ?_
  rw [(Parser.reads_singleton.1 hopen).1.1]
  refine gives_brackets hopen hone hts (gives_bind.2 ⟨_, _, he, ?_⟩)
  refine gives_bind.2 ⟨(), _, gives_pass_symbol.2 (hclose.spent 1), ?_⟩
  exact gives_make.2 ⟨rfl, rfl⟩

theorem yields_operand_list {items : List (Option Expr)} {ts : List Token} {p₁ p₂ : Parser Unit}
    (hone : p.Affords 1) (hts : p.Reads ts q) (hopen : p.Reads [.symbol .bracketOpen] p₁)
    (hitems : Yields (listItems Expr.builder) (p₁.spent 1) items (p₂.spent 1))
    (hclose : p₂.Reads [.symbol .bracketClose] q) :
    Yields (operand Expr.builder) p (.list items) q := by
  refine .of_succ ?_
  filter_upwards [hitems] with budget hitems
  refine gives_token_bind.2 ?_
  rw [(Parser.reads_singleton.1 hopen).1.1]
  refine gives_brackets hopen hone hts (gives_bind.2 ⟨_, _, hitems, ?_⟩)
  refine gives_bind.2 ⟨(), _, gives_advance.2 (Parser.reads_singleton.1 (hclose.spent 1)).2, ?_⟩
  exact gives_make.2 ⟨rfl, rfl⟩

theorem yields_operand_map {entries : List (String × Option Expr)} {ts : List Token}
    {p₁ p₂ : Parser Unit} (hone : p.Affords 1) (hts : p.Reads ts q)
    (hopen : p.Reads [.symbol .braceOpen] p₁)
    (hentries : Yields (mapEntries Expr.builder) (p₁.spent 1) entries (p₂.spent 1))
    (hclose : p₂.Reads [.symbol .braceClose] q) :
    Yields (operand Expr.builder) p (.map entries) q := by
  refine .of_succ ?_
  filter_upwards [hentries] with budget hentries
  refine gives_token_bind.2 ?_
  rw [(Parser.reads_singleton.1 hopen).1.1]
  refine gives_brackets hopen hone hts (gives_bind.2 ⟨_, _, hentries, ?_⟩)
  refine gives_bind.2 ⟨(), _, gives_advance.2 (Parser.reads_singleton.1 (hclose.spent 1)).2, ?_⟩
  exact gives_make.2 ⟨rfl, rfl⟩

theorem yields_listItems_nil (hclose : p.current.token = .symbol .bracketClose) :
    Yields (listItems Expr.builder) p [] p := by
  refine .of_succ (.of_forall fun budget => gives_token_bind.2 ?_)
  rw [if_pos hclose]
  exact gives_pure.2 ⟨rfl, rfl⟩

theorem yields_listItems_hole {items : List (Option Expr)} {p₁ : Parser Unit}
    (hcomma : p.Reads [.symbol .comma] p₁) (hitems : Yields (listItems Expr.builder) p₁ items q) :
    Yields (listItems Expr.builder) p (none :: items) q := by
  obtain ⟨⟨htoken, -⟩, hnext⟩ := Parser.reads_singleton.1 hcomma
  refine .of_succ ?_
  filter_upwards [hitems] with budget hitems
  refine gives_token_bind.2 ?_
  rw [htoken, if_neg nofun, if_pos rfl]
  refine gives_bind.2 ⟨(), _, gives_advance.2 hnext, gives_bind.2 ⟨_, _, hitems, ?_⟩⟩
  exact gives_pure.2 ⟨rfl, rfl⟩

theorem yields_listItems_item {e : Expr} {items : List (Option Expr)} {p₁ p₂ : Parser Unit}
    (hbegins : p.current.token.begins = true) (he : Yields (ternary Expr.builder) p e p₁)
    (hseparator : if p₁.current.token = .symbol .bracketClose then p₂ = p₁
      else p₁.Reads [.symbol .comma] p₂)
    (hitems : Yields (listItems Expr.builder) p₂ items q) :
    Yields (listItems Expr.builder) p (some e :: items) q := by
  refine .of_succ ?_
  filter_upwards [he, hitems] with budget he hitems
  refine gives_token_bind.2 ?_
  rw [if_neg (Token.ne_symbol_of_begins hbegins rfl),
    if_neg (Token.ne_symbol_of_begins hbegins rfl)]
  refine gives_bind.2 ⟨_, _, he, gives_bind.2 ⟨(), _, gives_separator.2 hseparator, ?_⟩⟩
  exact gives_bind.2 ⟨_, _, hitems, gives_pure.2 ⟨rfl, rfl⟩⟩

theorem yields_mapValue_none (hcolon : p.current.token ≠ .symbol .colon) :
    Yields (mapValue Expr.builder) p none p := by
  refine .of_succ (.of_forall fun budget => gives_token_bind.2 ?_)
  rw [if_neg hcolon]
  exact gives_pure.2 ⟨rfl, rfl⟩

theorem yields_mapValue_some {e : Expr} {p₁ : Parser Unit} (hcolon : p.Reads [.symbol .colon] p₁)
    (he : Yields (ternary Expr.builder) p₁ e q) :
    Yields (mapValue Expr.builder) p (some e) q := by
  obtain ⟨⟨htoken, -⟩, hnext⟩ := Parser.reads_singleton.1 hcolon
  refine .of_succ ?_
  filter_upwards [he] with budget he
  refine gives_token_bind.2 ?_
  rw [if_pos htoken]
  refine gives_bind.2 ⟨(), _, gives_advance.2 hnext, gives_bind.2 ⟨_, _, he, ?_⟩⟩
  exact gives_pure.2 ⟨rfl, rfl⟩

theorem yields_mapEntries_nil (hclose : p.current.token = .symbol .braceClose) :
    Yields (mapEntries Expr.builder) p [] p := by
  refine .of_succ (.of_forall fun budget => gives_token_bind.2 ?_)
  rw [if_pos hclose]
  exact gives_pure.2 ⟨rfl, rfl⟩

theorem yields_mapEntries_skip {entries : List (String × Option Expr)} {p₁ : Parser Unit}
    (hcomma : p.Reads [.symbol .comma] p₁)
    (hentries : Yields (mapEntries Expr.builder) p₁ entries q) :
    Yields (mapEntries Expr.builder) p entries q := by
  obtain ⟨⟨htoken, -⟩, hnext⟩ := Parser.reads_singleton.1 hcomma
  refine .of_succ ?_
  filter_upwards [hentries] with budget hentries
  refine gives_token_bind.2 ?_
  rw [htoken, if_neg nofun, if_pos rfl]
  exact gives_bind.2 ⟨(), _, gives_advance.2 hnext, hentries⟩

theorem yields_mapEntries_entry {t : Token} {key : String} {value : Option Expr}
    {entries : List (String × Option Expr)} {p₁ p₂ p₃ : Parser Unit}
    (hkey : t = .identifier key ∨ t = .string key) (ht : p.Reads [t] p₁)
    (hvalue : Yields (mapValue Expr.builder) p₁ value p₂)
    (hseparator : if p₂.current.token = .symbol .braceClose then p₃ = p₂
      else p₂.Reads [.symbol .comma] p₃)
    (hentries : Yields (mapEntries Expr.builder) p₃ entries q) :
    Yields (mapEntries Expr.builder) p ((key, value) :: entries) q := by
  have htoken := (Parser.reads_singleton.1 ht).1.1
  refine .of_succ ?_
  filter_upwards [hvalue, hentries] with budget hvalue hentries
  refine gives_token_bind.2 ?_
  rw [if_neg (by rcases hkey with rfl | rfl <;> simp [htoken]),
    if_neg (by rcases hkey with rfl | rfl <;> simp [htoken])]
  refine gives_bind.2 ⟨key, p₁, gives_takeKey.2 ?_, gives_bind.2 ⟨_, _, hvalue, ?_⟩⟩
  · rcases hkey with rfl | rfl
    · exact .inl ht
    · exact .inr ht
  · refine gives_bind.2 ⟨(), _, gives_separator.2 hseparator, ?_⟩
    exact gives_bind.2 ⟨_, _, hentries, gives_pure.2 ⟨rfl, rfl⟩⟩

end Grammar

namespace Phrase

open Grammar

/-! ### Every phrase -/

mutual

theorem Expression.yields {ts : List Token} {e : Expr} {p q : Parser Unit} :
    Expression ts e → p.Reads ts q → p.Affords e.need → q.current.token.EndsExpression →
      Yields (ternary Expr.builder) p e q
  | .plain h, hts, hneed, hends => by
    have hlooser : q.current.token.Looser 1 := by simp [Token.Looser, hends.binary?_eq_none]
    have hreached := h.reached (Nat.le_refl 1) hts hneed hends.toEndsAccess
      (hlooser.mono (Nat.le_succ 1))
    exact yields_ternary_plain (hreached.yields hts hlooser) hends.ne_question
  | .ternary hc ht hf, hts, hneed, hends => by
    obtain ⟨p₁, hcs, hts⟩ := Parser.reads_append.1 hts
    obtain ⟨p₂, hquestion, hts⟩ := Parser.reads_cons_iff.1 hts
    obtain ⟨p₃, hts, hfs⟩ := Parser.reads_append.1 hts
    obtain ⟨p₄, hcolon, hfs⟩ := Parser.reads_cons_iff.1 hfs
    rw [Expr.need, Parser.affords_max, Parser.affords_max] at hneed
    obtain ⟨hcneed, htneed, hfneed⟩ := hneed
    have hone := htneed.mono (Nat.le_add_right 1 _)
    have hp₂ := hcs.append hquestion
    have hp₄ := hp₂.append (hts.append hcolon)
    have hquestionToken := (Parser.reads_singleton.1 hquestion).1.1
    have hcolonToken := (Parser.reads_singleton.1 hcolon).1.1
    have hlooser : p₁.current.token.Looser 1 := by
      rw [hquestionToken]
      exact nofun
    have hreached := hc.reached (Nat.le_refl 1) hcs hcneed
      (hquestionToken ▸ ⟨nofun, nofun, nofun⟩) (hlooser.mono (Nat.le_succ 1))
    refine yields_ternary (hreached.yields hcs hlooser) hquestion ?_ hcolon ?_
    · have hone₂ := hp₂.affords.2 hone
      refine Yields.nested hone₂ hts (ht.yields (hts.spent 1) ?_ ?_)
      · exact (Parser.affords_spent hone₂).2 (hp₂.affords.2 htneed)
      · exact Token.endsExpression_of_mem (by simp [hcolonToken])
    · have hone₄ := hp₄.affords.2 hone
      refine Yields.nested hone₄ hfs (hf.yields (hfs.spent 1) ?_ hends)
      exact (Parser.affords_spent hone₄).2 (hp₄.affords.2 hfneed)

theorem Binary.reached {band least : Nat} {ts : List Token} {e : Expr} {p q : Parser Unit} :
    Binary band ts e → least ≤ band → p.Reads ts q → p.Affords e.need →
      q.current.token.EndsAccess → q.current.token.Looser (band + 1) →
        BinaryReached least p e q
  | .unary h, _, hts, hneed, hends, _ => by
    refine ⟨e, ts, q, hts, h.yields hts hneed hends, fun e' r hchain => ?_⟩
    rwa [h.links_eq_zero, Parser.spent_zero] at hchain
  | @Binary.join _ op ls rs l r hop hl hr, hle, hts, hneed, hends, hlooser => by
    obtain ⟨p₁, hls, hts⟩ := Parser.reads_append.1 hts
    obtain ⟨p₂, hsymbol, hrs⟩ := Parser.reads_cons_iff.1 hts
    rw [Expr.need, Parser.affords_max] at hneed
    obtain ⟨hlneed, hrneed⟩ := hneed
    have htoken := (Parser.reads_singleton.1 hsymbol).1.1
    have hopLooser : p₁.current.token.Looser (op.band + 1) := fun op' hop' => by
      rw [htoken, Token.binary?_eq_some_iff.2 rfl, Option.some.injEq] at hop'
      rw [hop']
      exact Nat.lt_succ_self _
    obtain ⟨first, us, p₀, hus, hfirst, hchain⟩ := hl.reached (Nat.le_trans hle hop) hls hlneed
      (htoken ▸ Token.endsAccess_binary op) hopLooser
    refine ⟨first, us, p₀, hus, hfirst, fun e' s hrest => hchain e' s ?_⟩
    -- The links of the left operand have been spent, and one more for this operator.
    have hone := (Parser.affords_link (hls.affords.2 hrneed)).1
    have hright := hr.reached (Nat.le_refl _) (hrs.spent (l.links + 1))
      (Parser.affords_link ((hls.append hsymbol).affords.2 hrneed)).2 hends
      (hlooser.mono (by omega))
    refine yields_binaryChain_join (hsymbol.spent _) (Nat.le_trans hle hop) hone ?_ hrest
    rw [Parser.spent_spent]
    exact hright.yields (hrs.spent _) (hlooser.mono (Nat.succ_le_succ hop))

theorem Unary.yields {ts : List Token} {e : Expr} {p q : Parser Unit} :
    Unary ts e → p.Reads ts q → p.Affords e.need → q.current.token.EndsAccess →
      Yields (unary Expr.builder) p e q
  | .apply h, hts, hneed, hends => by
    obtain ⟨p₁, hop, hts⟩ := Parser.reads_cons_iff.1 hts
    rw [Expr.need] at hneed
    have hone := hop.affords.2 (hneed.mono (Nat.le_add_right 1 _))
    refine yields_unary_apply hop (Yields.nested hone hts (h.yields (hts.spent 1) ?_ hends))
    exact (Parser.affords_spent hone).2 (hop.affords.2 hneed)
  | .access h, hts, hneed, hends => by
    refine yields_unary_access (Token.unary?_of_beginsOperand (h.beginsOperand hts)) ?_
    exact (h.reached hts hneed fun hparen => absurd hparen hends.ne_parenOpen).yields hts hends

theorem Access.reached {ts : List Token} {e : Expr} {p q : Parser Unit} :
    Access ts e → p.Reads ts q → p.Affords e.need →
      (q.current.token = .symbol .parenOpen → e.isGetter = false) → AccessReached p e q
  | .operand h, hts, hneed, _ => by
    refine ⟨e, ts, q, hts, h.yields hts hneed, fun e' r hchain => ?_⟩
    rwa [h.accesses_eq_zero, Parser.spent_zero] at hchain
  | .getter h, hts, hneed, hparen => by
    obtain ⟨p₁, hrs, hts⟩ := Parser.reads_append.1 hts
    rw [Expr.need, Parser.affords_max] at hneed
    have hdot := (Parser.reads_cons.1 hts).1.1
    obtain ⟨first, us, p₀, hus, hfirst, hchain⟩ :=
      h.reached hrs hneed.1 fun hopen => absurd (hdot.symm.trans hopen) nofun
    refine ⟨first, us, p₀, hus, hfirst, fun e' s hrest => hchain e' s ?_⟩
    refine yields_accessChain_getter (hts.spent _) ?_ (fun hopen => nomatch hparen hopen) ?_
    · have hlink : p₁.Affords (_ + 1 + 0) := hrs.affords.2 hneed.2
      exact (Parser.affords_link hlink).1
    · rwa [Parser.spent_spent]
  | .method h hargs, hts, hneed, _ => by
    obtain ⟨p₁, hrs, hts⟩ := Parser.reads_append.1 hts
    obtain ⟨p₂, hdot, hts⟩ := Parser.reads_cons_iff.1 hts
    obtain ⟨p₃, hname, hts⟩ := Parser.reads_cons_iff.1 hts
    rw [Expr.need, Parser.affords_max] at hneed
    have hdotToken := (Parser.reads_singleton.1 hdot).1.1
    obtain ⟨first, us, p₀, hus, hfirst, hchain⟩ :=
      h.reached hrs hneed.1 fun hopen => absurd (hdotToken.symm.trans hopen) nofun
    refine ⟨first, us, p₀, hus, hfirst, fun e' s hrest => hchain e' s ?_⟩
    have hp₃ := hdot.append hname
    refine yields_accessChain_method (hp₃.spent _) ?_ (Parser.reads_cons.1 hts).1.1 ?_ hrest
    · exact (Parser.affords_link (hrs.affords.2 hneed.2)).1
    · rw [Parser.spent_spent]
      refine hargs.yields (hts.spent _) ?_
      exact (Parser.affords_link ((hrs.append hp₃).affords.2 hneed.2)).2
  | .call h hgetter hargs, hts, hneed, _ => by
    obtain ⟨p₁, hrs, hts⟩ := Parser.reads_append.1 hts
    rw [Expr.need, Parser.affords_max] at hneed
    obtain ⟨first, us, p₀, hus, hfirst, hchain⟩ := h.reached hrs hneed.1 fun _ => hgetter
    refine ⟨first, us, p₀, hus, hfirst, fun e' s hrest => hchain e' s ?_⟩
    have hlink := Parser.affords_link (hrs.affords.2 hneed.2)
    refine yields_accessChain_call (Parser.reads_cons.1 hts).1.1 hlink.1 ?_ hrest
    rw [Parser.spent_spent]
    exact hargs.yields (hts.spent _) hlink.2
  | .index h hi, hts, hneed, _ => by
    obtain ⟨p₁, hrs, hts⟩ := Parser.reads_append.1 hts
    obtain ⟨p₂, hopen, hts⟩ := Parser.reads_cons_iff.1 hts
    obtain ⟨p₃, hus, hclose⟩ := Parser.reads_append.1 hts
    rw [Expr.need, Parser.affords_max] at hneed
    have hopenToken := (Parser.reads_singleton.1 hopen).1.1
    obtain ⟨first, us, p₀, hus', hfirst, hchain⟩ :=
      h.reached hrs hneed.1 fun hparen => absurd (hopenToken.symm.trans hparen) nofun
    refine ⟨first, us, p₀, hus', hfirst, fun e' s hrest => hchain e' s ?_⟩
    have hlink := Parser.affords_link (hrs.affords.2 hneed.2)
    refine yields_accessChain_index (hopen.spent _) hlink.1 ?_ (hclose.spent _) hrest
    rw [Parser.spent_spent]
    refine hi.yields (hus.spent _) ?_ (Token.endsExpression_of_mem ?_)
    · exact (Parser.affords_link ((hrs.append hopen).affords.2 hneed.2)).2
    · simp [(Parser.reads_singleton.1 hclose).1.1]

theorem Operand.yields {ts : List Token} {e : Expr} {p q : Parser Unit} :
    Operand ts e → p.Reads ts q → p.Affords e.need → Yields (operand Expr.builder) p e q
  | .number value, hts, _ => yields_operand_leaf (.number value) hts
  | .string value, hts, _ => yields_operand_leaf (.string value) hts
  | .boolean value, hts, _ => yields_operand_leaf (.boolean value) hts
  | .null, hts, _ => yields_operand_leaf .null hts
  | .identifier name, hts, _ => yields_operand_leaf (.identifier name) hts
  | .paren h, hts, hneed => by
    obtain ⟨p₁, hopen, hts'⟩ := Parser.reads_cons_iff.1 hts
    obtain ⟨p₂, hes, hclose⟩ := Parser.reads_append.1 hts'
    rw [Expr.need] at hneed
    have hone := hneed.mono (Nat.le_add_right 1 _)
    refine yields_operand_paren hone hts hopen ?_ hclose
    refine h.yields (hes.spent 1) ?_ (Token.endsExpression_of_mem ?_)
    · exact (Parser.affords_spent (hopen.affords.2 hone)).2 (hopen.affords.2 hneed)
    · simp [(Parser.reads_singleton.1 hclose).1.1]
  | .list h, hts, hneed => by
    obtain ⟨p₁, hopen, hts'⟩ := Parser.reads_cons_iff.1 hts
    obtain ⟨p₂, hitems, hclose⟩ := Parser.reads_append.1 hts'
    rw [Expr.need] at hneed
    have hone := hneed.mono (Nat.le_add_right 1 _)
    refine yields_operand_list hone hts hopen ?_ hclose
    refine h.yields (hitems.spent 1) ?_ (Parser.reads_singleton.1 hclose).1.1
    exact (Parser.affords_spent (hopen.affords.2 hone)).2 (hopen.affords.2 hneed)
  | .map h, hts, hneed => by
    obtain ⟨p₁, hopen, hts'⟩ := Parser.reads_cons_iff.1 hts
    obtain ⟨p₂, hentries, hclose⟩ := Parser.reads_append.1 hts'
    rw [Expr.need] at hneed
    have hone := hneed.mono (Nat.le_add_right 1 _)
    refine yields_operand_map hone hts hopen ?_ hclose
    refine h.yields (hentries.spent 1) ?_ (Parser.reads_singleton.1 hclose).1.1
    exact (Parser.affords_spent (hopen.affords.2 hone)).2 (hopen.affords.2 hneed)

theorem Arguments.yields {ts : List Token} {args : List Expr} {p q : Parser Unit} :
    Arguments ts args → p.Reads (.symbol .parenOpen :: (ts ++ [.symbol .parenClose])) q →
      p.Affords (Expr.needArguments args) → Yields (arguments Expr.builder) p args q
  | .empty, hts, _ => by
    obtain ⟨p₁, hopen, hclose⟩ := Parser.reads_cons_iff.1 hts
    exact yields_arguments_empty hopen hclose
  | .list h, hts, hneed => by
    obtain ⟨p₁, hopen, hts⟩ := Parser.reads_cons_iff.1 hts
    obtain ⟨p₂, hargs, hclose⟩ := Parser.reads_append.1 hts
    refine yields_arguments_list hopen (Token.ne_symbol_of_begins (h.begins hargs) rfl) ?_ hclose
    exact h.yields hargs (hopen.affords.2 hneed) (Parser.reads_singleton.1 hclose).1.1

theorem ArgumentList.yields {ts : List Token} {args : List Expr} {p q : Parser Unit} :
    ArgumentList ts args → p.Reads ts q → p.Affords (Expr.needArguments args) →
      q.current.token = .symbol .parenClose → Yields (argumentList Expr.builder) p args q
  | .last h, hts, hneed, hclose => by
    rw [Expr.needArguments, Parser.affords_max] at hneed
    refine yields_argumentList_last (h.yields hts hneed.1 ?_) (by simp [hclose])
    exact Token.endsExpression_of_mem (by simp [hclose])
  | .more h hrest, hts, hneed, hclose => by
    obtain ⟨p₁, hes, hts⟩ := Parser.reads_append.1 hts
    obtain ⟨p₂, hcomma, hus⟩ := Parser.reads_cons_iff.1 hts
    rw [Expr.needArguments, Parser.affords_max] at hneed
    have hends := (Parser.reads_singleton.1 hcomma).1.1
    refine yields_argumentList_more (h.yields hes hneed.1 ?_) hcomma ?_
    · exact Token.endsExpression_of_mem (by simp [hends])
    · exact hrest.yields hus ((hes.append hcomma).affords.2 hneed.2) hclose

theorem Items.yields {ts : List Token} {items : List (Option Expr)} {p q : Parser Unit} :
    Items ts items → p.Reads ts q → p.Affords (Expr.needItems items) →
      q.current.token = .symbol .bracketClose → Yields (listItems Expr.builder) p items q
  | .nil, hts, _, hclose => by
    obtain rfl := Parser.reads_nil.1 hts
    exact yields_listItems_nil hclose
  | .last h, hts, hneed, hclose => by
    rw [Expr.needItems, Parser.affords_max] at hneed
    have hitem := h.yields hts hneed.1 (Token.endsExpression_of_mem (by simp [hclose]))
    refine yields_listItems_item (h.begins hts) hitem ?_ (yields_listItems_nil hclose)
    rw [if_pos hclose]
  | .hole h, hts, hneed, hclose => by
    obtain ⟨p₁, hcomma, hts⟩ := Parser.reads_cons_iff.1 hts
    exact yields_listItems_hole hcomma (h.yields hts (hcomma.affords.2 hneed) hclose)
  | .item h hrest, hts, hneed, hclose => by
    obtain ⟨p₁, hes, hts⟩ := Parser.reads_append.1 hts
    obtain ⟨p₂, hcomma, hus⟩ := Parser.reads_cons_iff.1 hts
    rw [Expr.needItems, Parser.affords_max] at hneed
    have hends := (Parser.reads_singleton.1 hcomma).1.1
    have hitem := h.yields hes hneed.1 (Token.endsExpression_of_mem (by simp [hends]))
    have hseparator : if p₁.current.token = .symbol .bracketClose then p₂ = p₁
        else p₁.Reads [.symbol .comma] p₂ := by rwa [if_neg (by simp [hends])]
    refine yields_listItems_item (h.begins hes) hitem hseparator ?_
    exact hrest.yields hus ((hes.append hcomma).affords.2 hneed.2) hclose

theorem Entries.yields {ts : List Token} {entries : List (String × Option Expr)}
    {p q : Parser Unit} :
    Entries ts entries → p.Reads ts q → p.Affords (Expr.needEntries entries) →
      q.current.token = .symbol .braceClose → Yields (mapEntries Expr.builder) p entries q
  | .nil, hts, _, hclose => by
    obtain rfl := Parser.reads_nil.1 hts
    exact yields_mapEntries_nil hclose
  | .last h, hts, hneed, hclose => by
    rw [Expr.needEntries_cons, Parser.affords_max] at hneed
    obtain ⟨t, p₁, ht, hp₁, hvalue⟩ := h.yields hts hneed.1
      (Token.endsExpression_of_mem (by simp [hclose])) (by simp [hclose])
    refine yields_mapEntries_entry ht hp₁ hvalue ?_ (yields_mapEntries_nil hclose)
    rw [if_pos hclose]
  | .skip h, hts, hneed, hclose => by
    obtain ⟨p₁, hcomma, hts⟩ := Parser.reads_cons_iff.1 hts
    exact yields_mapEntries_skip hcomma (h.yields hts (hcomma.affords.2 hneed) hclose)
  | .entry h hrest, hts, hneed, hclose => by
    obtain ⟨p₁, hes, hts⟩ := Parser.reads_append.1 hts
    obtain ⟨p₂, hcomma, hus⟩ := Parser.reads_cons_iff.1 hts
    rw [Expr.needEntries_cons, Parser.affords_max] at hneed
    have hends := (Parser.reads_singleton.1 hcomma).1.1
    obtain ⟨t, p₃, ht, hp₃, hvalue⟩ := h.yields hes hneed.1
      (Token.endsExpression_of_mem (by simp [hends])) (by simp [hends])
    have hseparator : if p₁.current.token = .symbol .braceClose then p₂ = p₁
        else p₁.Reads [.symbol .comma] p₂ := by rwa [if_neg (by simp [hends])]
    refine yields_mapEntries_entry ht hp₃ hvalue hseparator ?_
    exact hrest.yields hus ((hes.append hcomma).affords.2 hneed.2) hclose

theorem Entry.yields {ts : List Token} {entry : String × Option Expr} {p q : Parser Unit} :
    Entry ts entry → p.Reads ts q → p.Affords (Expr.needItems [entry.2]) →
      q.current.token.EndsExpression → q.current.token ≠ .symbol .colon →
        ∃ t p₁, (t = .identifier entry.1 ∨ t = .string entry.1) ∧ p.Reads [t] p₁ ∧
          Yields (mapValue Expr.builder) p₁ entry.2 q
  | .key ht, hts, _, _, hcolon => ⟨_, q, ht, hts, yields_mapValue_none hcolon⟩
  | .value ht h, hts, hneed, hends, _ => by
    obtain ⟨p₁, hkey, hts⟩ := Parser.reads_cons_iff.1 hts
    obtain ⟨p₂, hcolon, hes⟩ := Parser.reads_cons_iff.1 hts
    rw [Expr.needItems, Parser.affords_max] at hneed
    refine ⟨_, p₁, ht, hkey, yields_mapValue_some hcolon (h.yields hes ?_ hends)⟩
    exact (hkey.append hcolon).affords.2 hneed.1

end

end Phrase

end Binding
