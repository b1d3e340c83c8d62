import Binding.Code.Render
import Binding.Proofs.Code.Meaning
import Binding.Proofs.Grammar.Acceptance
import Binding.Proofs.Token.Written

/-!
# Generated code is read back

The code of a tree that has been parsed is an expression, and its tree is the one that
`Expr.resolved` gives.

The proof goes along the derivation of the tree.  `Writes` says of a text that it is written for the
tokens of some phrase; every phrase of the source is taken to such a text, one band looser at most:
a bare name is an operand, and its code is an operand with accesses.  Names and numbers come from
the tokens of the source, so that they can be read again.

## Main results

* `Phrase.Expression.writes`: the code of an expression, as tokens.
* `Expr.parseWithin_render`: the code of a source, as a tree.
-/

namespace Binding

/-- The text is written for the tokens of a phrase. -/
def Writes (text : String) (phrase : List Token → Prop) : Prop :=
  ∃ ts, phrase ts ∧ Written text.toList ts

namespace Writes

variable {text : String} {phrase phrase' : List Token → Prop}

theorem imp (h : Writes text phrase) (himp : ∀ ts, phrase ts → phrase' ts) : Writes text phrase' :=
  Exists.imp (fun ts => And.imp_left (himp ts)) h

/-- Texts joined by commas are written for phrases joined by commas. -/
theorem intercalate {β : Type} (one : List Token → β → Prop) (many : List Token → List β → Prop)
    (hnil : many [] []) (hlast : ∀ ts b, one ts b → many ts [b])
    (hmore : ∀ ts us b bs, one ts b → bs ≠ [] → many us bs →
      many (ts ++ .symbol .comma :: us) (b :: bs))
    {separator : String} (hseparator : separator = "," ∨ separator = ", ")
    {texts : List String} {bs : List β}
    (h : List.Forall₂ (fun text b => Writes text (one · b)) texts bs) :
    Writes (separator.intercalate texts) (many · bs) := by
  induction h with
  | nil => exact ⟨[], hnil, written_nil⟩
  | @cons text b texts bs hfirst hrest ih =>
    obtain ⟨ts, hts, hwritten⟩ := hfirst
    cases hrest with
    | nil => exact ⟨ts, hlast ts b hts, by simpa using hwritten⟩
    | @cons text' b' texts bs _ _ =>
      obtain ⟨us, hus, hwritten'⟩ := ih
      refine ⟨_, hmore ts us b _ hts (by simp) hus, ?_⟩
      rw [String.toList_intercalate] at hwritten' ⊢
      rw [List.map_cons, List.map_cons, List.intercalate_cons_cons, List.append_assoc]
      rcases hseparator with rfl | rfl
      · exact hwritten.punctuated .comma (by decide) hwritten'
      · exact hwritten.punctuated .comma (by decide) hwritten'.blank

end Writes

namespace Phrase

open Binding.Expr

theorem writes_arguments {texts : List String} {args : List Expr}
    (h : List.Forall₂ (fun text e => Writes text (Expression · e)) texts args) :
    Writes (",".intercalate texts) (Arguments · args) := by
  refine Writes.intercalate Expression Arguments .empty (fun _ _ h => .list (.last h)) ?_
    (.inl rfl) h
  intro ts us e args he hne hargs
  cases hargs with
  | empty => exact absurd rfl hne
  | list hargs => exact .list (.more he hargs)

theorem writes_items {texts : List String} {items : List Expr}
    (h : List.Forall₂ (fun text e => Writes text (Expression · e)) texts items) :
    Writes (", ".intercalate texts) (Items · (items.map some)) :=
  Writes.intercalate Expression (fun ts items => Items ts (items.map some)) .nil
    (fun _ _ h => .last h) (fun _ _ _ _ h _ hrest => .item h hrest) (.inr rfl) h

theorem writes_entries {texts : List String} {entries : List (String × Expr)}
    (h : List.Forall₂ (fun text entry => Writes text (Entry · (Prod.map id some entry))) texts
      entries) :
    Writes (", ".intercalate texts) (Entries · (entries.map (Prod.map id some))) :=
  Writes.intercalate (fun ts entry => Entry ts (Prod.map id some entry))
    (fun ts entries => Entries ts (entries.map (Prod.map id some))) .nil
    (fun _ _ h => .last h) (fun _ _ _ _ h _ hrest => .entry h hrest) (.inr rfl) h

theorem writes_null : Writes "null" (Expression · (.literal .null)) :=
  ⟨[.null], .plain (.unary (.access (.operand .null))), written_null⟩

theorem writes_entry {text : String} {e : Expr} (key : String)
    (h : Writes text (Expression · e)) :
    Writes (Text.doubleQuoted key ++ ": " ++ text) (Entry · (key, some e)) := by
  obtain ⟨ts, hts, hwritten⟩ := h
  refine ⟨_, .value (.inr rfl) hts, ?_⟩
  simpa [Symbol.chars] using (written_string key).punctuated .colon (by decide) hwritten.blank

/-- A key without a value is written with the value `null`. -/
theorem writes_key (key : String) :
    Writes (Text.doubleQuoted key ++ ": null") (Entry · (key, some (.literal .null))) := by
  have htext : Text.doubleQuoted key ++ ": null" = Text.doubleQuoted key ++ ": " ++ "null" := by
    rw [String.append_assoc]
    rfl
  rw [htext]
  exact writes_entry key writes_null

/-! ### One rule for each phrase -/

section Rules

variable {text text' text'' : String} {e e' e'' : Expr}

theorem writes_getter {name : String} (h : Writes text (Access · e))
    (hname : (Token.identifier name).Readable) :
    Writes (text ++ "." ++ name) (Access · (.getter e name)) := by
  obtain ⟨ts, hts, hwritten⟩ := h
  exact ⟨_, .getter hts, by simpa using hwritten.member hname⟩

theorem writes_call {args : List Expr} (h : Writes text (Access · e))
    (hargs : Writes text' (Arguments · args)) :
    Writes (text ++ "(" ++ text' ++ ")") (Access · (e.call args)) := by
  obtain ⟨ts, hts, hwritten⟩ := h
  obtain ⟨us, hus, hwritten'⟩ := hargs
  refine ⟨_, hts.called hus, ?_⟩
  simpa [Symbol.chars] using
    hwritten.grouped .parenOpen .parenClose (by decide) (by decide) hwritten'

theorem writes_index (h : Writes text (Access · e)) (h' : Writes text' (Expression · e')) :
    Writes (text ++ "[" ++ text' ++ "]") (Access · (.index e e')) := by
  obtain ⟨ts, hts, hwritten⟩ := h
  obtain ⟨us, hus, hwritten'⟩ := h'
  refine ⟨_, .index hts hus, ?_⟩
  simpa [Symbol.chars] using
    hwritten.grouped .bracketOpen .bracketClose (by decide) (by decide) hwritten'

theorem writes_paren (h : Writes text (Expression · e)) :
    Writes ("(" ++ text ++ ")") (Access · (.paren e)) := by
  obtain ⟨ts, hts, hwritten⟩ := h
  refine ⟨_, .operand (.paren hts), ?_⟩
  simpa [Symbol.chars] using
    written_nil.grouped .parenOpen .parenClose (by decide) (by decide) hwritten

theorem writes_list {items : List (Option Expr)} (h : Writes text (Items · items)) :
    Writes ("[" ++ text ++ "]") (Access · (.list items)) := by
  obtain ⟨ts, hts, hwritten⟩ := h
  refine ⟨_, .operand (.list hts), ?_⟩
  simpa [Symbol.chars] using
    written_nil.grouped .bracketOpen .bracketClose (by decide) (by decide) hwritten

theorem writes_map {entries : List (String × Option Expr)} (h : Writes text (Entries · entries)) :
    Writes ("\x7b" ++ text ++ "\x7d") (Access · (.map entries)) := by
  obtain ⟨ts, hts, hwritten⟩ := h
  refine ⟨_, .operand (.map hts), ?_⟩
  simpa [Symbol.chars] using
    written_nil.grouped .braceOpen .braceClose (by decide) (by decide) hwritten

theorem writes_apply (op : UnaryOp) (h : Writes text (Unary · e)) :
    Writes (op.spelling ++ text) (Unary · (.unary op e)) := by
  obtain ⟨ts, hts, hwritten⟩ := h
  -- No operand begins with an equals sign, which `!` would take.
  obtain ⟨t, us, rfl, ht⟩ := hts.head
  refine ⟨_, .apply hts, ?_⟩
  simpa [UnaryOp.spelling] using hwritten.unary op (Token.ne_symbol_of_begins ht rfl)

theorem writes_join {least : Nat} {op : BinaryOp} (hop : least ≤ op.band)
    (h : Writes text (Binary op.band · e))
    (h' : Writes text' (Binary (op.band + 1) · e')) :
    Writes (text ++ " " ++ op.spelling ++ " " ++ text') (Binary least · (.binary op e e')) := by
  obtain ⟨ts, hts, hwritten⟩ := h
  obtain ⟨us, hus, hwritten'⟩ := h'
  exact ⟨_, .join hop hts hus,
    by simpa [BinaryOp.spelling] using hwritten.operator op.symbol hwritten'⟩

/-- The code of a pipe: the left operand is an argument behind the right one. -/
theorem writes_attach {least : Nat} (h : Writes text (Binary least · e))
    (h' : Writes text' (Expression · e')) :
    Writes (text ++ "(" ++ text' ++ ")") (Binary least · (e.attach e')) := by
  obtain ⟨ts, hts, hwritten⟩ := h
  obtain ⟨us, hus, hwritten'⟩ := h'
  refine ⟨_, hts.attach hus, ?_⟩
  simpa [Symbol.chars] using
    hwritten.grouped .parenOpen .parenClose (by decide) (by decide) hwritten'

theorem writes_ternary (h : Writes text (Binary 1 · e)) (h' : Writes text' (Expression · e'))
    (h'' : Writes text'' (Expression · e'')) :
    Writes (text ++ " ? " ++ text' ++ " : " ++ text'') (Expression · (.ternary e e' e'')) := by
  obtain ⟨ts, hts, hwritten⟩ := h
  obtain ⟨us, hus, hwritten'⟩ := h'
  obtain ⟨vs, hvs, hwritten''⟩ := h''
  refine ⟨_, .ternary hts hus hvs, ?_⟩
  simpa [Symbol.chars] using hwritten.operator .question (hwritten'.operator .colon hwritten'')

end Rules

variable {context : String} {path : Expr}

theorem writes_identifier (hcontext : Writes context (Access · path)) {name : String}
    (h : (Token.identifier name).Readable) :
    Writes ((identifier name).render context) (Access · (resolved path (.identifier name))) := by
  rw [render, resolved]
  split
  · exact hcontext
  · exact writes_getter hcontext h

/-! ### The code of a phrase -/

mutual

theorem Expression.writes (hcontext : Writes context (Access · path)) {ts : List Token} {e : Expr} :
    Expression ts e → (∀ t ∈ ts, t.Readable) →
      Writes (e.render context) (Expression · (resolved path e))
  | .plain h, hts => (h.writes hcontext hts).imp fun _ => .plain
  | .ternary hc ht hf, hts => by
    have hcondition := hc.writes hcontext fun t ht => hts t (by simp [ht])
    have htrue := ht.writes hcontext fun t ht => hts t (by simp [ht])
    have hfalse := hf.writes hcontext fun t ht => hts t (by simp [ht])
    rw [render, resolved]
    exact writes_ternary hcondition htrue hfalse

theorem Binary.writes (hcontext : Writes context (Access · path)) {least : Nat} {ts : List Token}
    {e : Expr} :
    Binary least ts e → (∀ t ∈ ts, t.Readable) →
      Writes (e.render context) (Binary least · (resolved path e))
  | .unary h, hts => (h.writes hcontext hts).imp fun _ => .unary
  | @Binary.join _ op _ _ l r hop hl hr, hts => by
    have hleft := hl.writes hcontext fun t ht => hts t (by simp [ht])
    have hright := hr.writes hcontext fun t ht => hts t (by simp [ht])
    rw [render, resolved]
    split
    · next hpipe =>
      subst hpipe
      have hargument := hleft.imp fun _ => Expression.plain
      exact (writes_attach hright hargument).imp fun _ h => h.mono (Nat.le_succ_of_le hop)
    · exact writes_join hop hleft hright

theorem Unary.writes (hcontext : Writes context (Access · path)) {ts : List Token} {e : Expr} :
    Unary ts e → (∀ t ∈ ts, t.Readable) →
      Writes (e.render context) (Unary · (resolved path e))
  | @Unary.apply op _ _ h, hts => by
    have hoperand := h.writes hcontext fun t ht => hts t (by simp [ht])
    rw [render, resolved]
    exact writes_apply op hoperand
  | .access h, hts => (h.writes hcontext hts).imp fun _ => .access

theorem Access.writes (hcontext : Writes context (Access · path)) {ts : List Token} {e : Expr} :
    Access ts e → (∀ t ∈ ts, t.Readable) →
      Writes (e.render context) (Access · (resolved path e))
  | .operand h, hts => h.writes hcontext hts
  | .getter h, hts => by
    have hreceiver := h.writes hcontext fun t ht => hts t (by simp [ht])
    rw [render, resolved]
    exact writes_getter hreceiver (hts _ (by simp))
  | @Access.method _ _ _ name _ h hargs, hts => by
    have hreceiver := h.writes hcontext fun t ht => hts t (by simp [ht])
    have harguments := hargs.writes hcontext fun t ht => hts t (by simp [ht])
    have hmember := writes_getter hreceiver (hts (.identifier name) (by simp))
    rw [render, resolved, renderMethod, ← String.append_assoc]
    exact writes_call hmember (writes_arguments harguments)
  | .call h _ hargs, hts => by
    have hreceiver := h.writes hcontext fun t ht => hts t (by simp [ht])
    have harguments := hargs.writes hcontext fun t ht => hts t (by simp [ht])
    rw [render, resolved, renderMethod, String.append_empty]
    exact writes_call hreceiver (writes_arguments harguments)
  | .index h hi, hts => by
    have hreceiver := h.writes hcontext fun t ht => hts t (by simp [ht])
    have hargument := hi.writes hcontext fun t ht => hts t (by simp [ht])
    rw [render, resolved]
    exact writes_index hreceiver hargument

theorem Arguments.writes (hcontext : Writes context (Access · path)) {ts : List Token}
    {args : List Expr} :
    Arguments ts args → (∀ t ∈ ts, t.Readable) →
      List.Forall₂ (fun text e => Writes text (Expression · e)) (renderArguments context args)
        (resolvedArguments path args)
  | .empty, _ => .nil
  | .list h, hts => h.writes hcontext hts

theorem ArgumentList.writes (hcontext : Writes context (Access · path)) {ts : List Token}
    {args : List Expr} :
    ArgumentList ts args → (∀ t ∈ ts, t.Readable) →
      List.Forall₂ (fun text e => Writes text (Expression · e)) (renderArguments context args)
        (resolvedArguments path args)
  | .last h, hts => .cons (h.writes hcontext hts) .nil
  | .more h hrest, hts => .cons (h.writes hcontext fun t ht => hts t (by simp [ht]))
    (hrest.writes hcontext fun t ht => hts t (by simp [ht]))

theorem Operand.writes (hcontext : Writes context (Access · path)) {ts : List Token} {e : Expr} :
    Operand ts e → (∀ t ∈ ts, t.Readable) →
      Writes (e.render context) (Access · (resolved path e))
  | .number value, hts => ⟨_, .operand (.number value), written_number (hts _ (by simp))⟩
  | .string value, _ => ⟨_, .operand (.string value), written_string value⟩
  | .boolean value, _ => ⟨_, .operand (.boolean value), written_boolean value⟩
  | .null, _ => ⟨_, .operand .null, written_null⟩
  | .identifier name, hts => writes_identifier hcontext (hts _ (by simp))
  | .paren h, hts => by
    have hchild := h.writes hcontext fun t ht => hts t (by simp [ht])
    rw [render, resolved]
    exact writes_paren hchild
  | .list h, hts => by
    have hitems := h.writes hcontext fun t ht => hts t (by simp [ht])
    rw [render, resolved]
    exact writes_list (writes_items hitems)
  | .map h, hts => by
    have hentries := h.writes hcontext fun t ht => hts t (by simp [ht])
    rw [render, resolved]
    exact writes_map (writes_entries hentries)

theorem Items.writes (hcontext : Writes context (Access · path)) {ts : List Token}
    {items : List (Option Expr)} :
    Items ts items → (∀ t ∈ ts, t.Readable) →
      List.Forall₂ (fun text e => Writes text (Expression · e)) (renderItems context items)
        (resolvedItems path items)
  | .nil, _ => .nil
  | .last h, hts => .cons (h.writes hcontext hts) .nil
  | .hole h, hts => .cons writes_null (h.writes hcontext fun t ht => hts t (by simp [ht]))
  | .item h hrest, hts => .cons (h.writes hcontext fun t ht => hts t (by simp [ht]))
    (hrest.writes hcontext fun t ht => hts t (by simp [ht]))

theorem Entries.writes (hcontext : Writes context (Access · path)) {ts : List Token}
    {entries : List (String × Option Expr)} :
    Entries ts entries → (∀ t ∈ ts, t.Readable) →
      List.Forall₂ (fun text entry => Writes text (Entry · (Prod.map id some entry)))
        (renderEntries context entries) (resolvedEntries path entries)
  | .nil, _ => by
    rw [renderEntries, resolvedEntries]
    exact .nil
  | .last (.key _), _ => by
    rw [renderEntries, resolvedEntries, renderEntries, resolvedEntries]
    exact .cons (writes_key _) .nil
  | .last (.value _ h), hts => by
    have hvalue := h.writes hcontext fun t ht => hts t (by simp [ht])
    rw [renderEntries, resolvedEntries, renderEntries, resolvedEntries]
    exact .cons (writes_entry _ hvalue) .nil
  | .skip h, hts => h.writes hcontext fun t ht => hts t (by simp [ht])
  | .entry (.key _) hrest, hts => by
    have hentries := hrest.writes hcontext fun t ht => hts t (by simp [ht])
    rw [renderEntries, resolvedEntries]
    exact .cons (writes_key _) hentries
  | .entry (.value _ h) hrest, hts => by
    have hvalue := h.writes hcontext fun t ht => hts t (by simp [ht])
    have hentries := hrest.writes hcontext fun t ht => hts t (by simp [ht])
    rw [renderEntries, resolvedEntries]
    exact .cons (writes_entry _ hvalue) hentries

end

theorem Access.members {ts : List Token} {e : Expr} (h : Access ts e) (members : List String) :
    Access (ts ++ members.flatMap fun name => [.symbol .dot, .identifier name])
      (members.foldl .getter e) := by
  induction members generalizing ts e with
  | nil => simpa using h
  | cons name members ih => simpa using ih (@Access.getter _ _ name h)

/-- A source of names with points between them is written for the chain of members. -/
theorem writes_path {head : String} {members : List String}
    (h : tokens context = .ok (pathTokens head members)) :
    Writes context (Access · (members.foldl .getter (.identifier head))) :=
  ⟨_, Access.members (.operand (.identifier head)) members, written_path (tokens_eq_ok_iff.1 h)⟩

end Phrase

theorem tokens_of_written {text : String} {ts : List Token} (h : Written text.toList ts) :
    tokens text = .ok ts := by
  rw [tokens_eq_ok_iff]
  simpa using h [] Scan.stops_nil

namespace Expr

open Phrase

theorem parseWithin_of_writes {text : String} {e : Expr} (h : Writes text (Expression · e)) :
    parseWithin none text = .ok e := by
  obtain ⟨ts, he, hts⟩ := h
  exact parseWithin_eq_ok_iff.2 ⟨ts, tokens_of_written hts, .inr he, nofun⟩

/-- **What generated code stands for.**  If a source has a tree, and the context is a name with
members of it, then the code of the tree is an expression, and its tree is the resolved one. -/
theorem parseWithin_render {source : String} {e : Expr} (h : parseWithin none source = .ok e)
    {context head : String} {members : List String}
    (hcontext : tokens context = .ok (pathTokens head members)) :
    parseWithin none (e.render context) =
      .ok (resolved (members.foldl .getter (.identifier head)) e) := by
  obtain ⟨ts, hts, he, -⟩ := parseWithin_eq_ok_iff.1 h
  obtain ⟨rfl, rfl⟩ | he := he
  · rw [render, resolved]
    exact parseWithin_eq_ok_iff.2 ⟨[], tokens_of_written written_nil, .inl ⟨rfl, rfl⟩, nofun⟩
  · exact parseWithin_of_writes (he.writes (writes_path hcontext) (readable_of_tokens hts))

/-- A hole, and a pipe into an operator expression: the call goes to the last operand. -/
theorem parseWithin_render_pipe_negated :
    parseWithin none "[,a|-f]" = .ok (.list [none,
        some (.binary .pipe (.identifier "a") (.unary .negate (.identifier "f")))]) ∧
      tokens "this.m" = .ok (pathTokens "this" ["m"]) ∧
      parseWithin none "[null, -this.m.f(this.m.a)]" = .ok (.list [some (.literal .null),
        some (.unary .negate (.invoke (.getter (.identifier "this") "m") (some "f")
          (some [.getter (.getter (.identifier "this") "m") "a"])))]) := by
  have hparse : parseWithin none "[,a|-f]" = .ok (.list [none,
      some (.binary .pipe (.identifier "a") (.unary .negate (.identifier "f")))]) := by
    decide +kernel
  have htokens : tokens "this.m" = .ok (pathTokens "this" ["m"]) := by decide +kernel
  have hrender : (list [none,
      some (.binary .pipe (.identifier "a") (.unary .negate (.identifier "f")))]).render "this.m" =
      "[null, -this.m.f(this.m.a)]" := by
    decide +kernel
  refine ⟨hparse, htokens, ?_⟩
  rw [← hrender, parseWithin_render hparse htokens]
  decide +kernel

end Expr

end Binding
