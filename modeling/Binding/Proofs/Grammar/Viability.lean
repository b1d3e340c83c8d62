import Binding.Proofs.Grammar.Acceptance
import Binding.Proofs.Grammar.Failure

/-!
# Every failure comes as late as possible

What a parse has passed when it fails is the beginning of some input that is accepted, and what the
error lists could have come next.  So the token that it fails at is the first one that cannot be
right.

The proof goes through the phrases as soundness does, with one judgement for each of them
(`Grammar.Viable`).  For every place where a phrase can fail, it gives the shortest completion: an
operand that is missing is `null`, and every bracket that is open gets closed.  The chains carry
their left operand along, because it is the chain as a whole that has to be completed.

## The colon behind a value

Behind an entry of a map, the error lists a colon whether or not the entry has a value.  If it has
one, the colon is refused (`Grammar.mapValue_refuses`).  This is the one place that needs the
completeness of the parser: before the colon, the value is parsed as a whole once more.  If it has
none, the colon is accepted, and then the tokens before it do not look like a value either: a key
stands behind a brace or a comma, and no expression ends like this (`Phrase.EndsInKey`).

## Main results

* `Grammar.viable`: every phrase fails as late as possible.
* `Grammar.whole_viable`: the same for a whole input.
-/

namespace Binding

namespace Phrase

/-! ### The shortest phrases -/

theorem unary_null : Unary [.null] (.literal .null) :=
  .access (.operand .null)

theorem binary_null (least : Nat) : Binary least [.null] (.literal .null) :=
  .unary unary_null

theorem expression_null : Expression [.null] (.literal .null) :=
  .plain (binary_null 1)

/-- One more argument behind the others. -/
theorem ArgumentList.snoc {us : List Token} {args : List Expr} :
    ArgumentList us args →
      ArgumentList (us ++ [.symbol .comma, .null]) (args ++ [.literal .null])
  | .last h => .more h (.last expression_null)
  | .more h hrest => by
    rw [List.append_assoc]
    exact .more h hrest.snoc

/-! ### A key is no value -/

/-- A key comes last, and before it what an entry of a map begins behind. -/
def EndsInKey (us : List Token) : Prop :=
  ∃ pre s t key, us = pre ++ [.symbol s, t] ∧ (s = .braceOpen ∨ s = .comma) ∧
    (t = .identifier key ∨ t = .string key)

theorem not_endsInKey_singleton (t : Token) : ¬EndsInKey [t] := by
  rintro ⟨pre, s, t', key, heq, -⟩
  have hlength := congrArg List.length heq
  simp at hlength

theorem not_endsInKey_close (us : List Token) (s : Symbol) : ¬EndsInKey (us ++ [.symbol s]) := by
  rintro ⟨pre, s', t, key, heq, -, ht⟩
  have hlast : .symbol s = t := by simpa using congrArg List.getLast? heq
  rcases ht with rfl | rfl <;> nomatch hlast

/-- Behind a symbol that no entry begins behind, it is the rest that ends in a key. -/
theorem EndsInKey.of_cons {us vs : List Token} {s : Symbol} (h : EndsInKey (us ++ .symbol s :: vs))
    (hne : vs ≠ []) (hbrace : s ≠ .braceOpen) (hcomma : s ≠ .comma) : EndsInKey vs := by
  obtain ⟨pre, s', t, key, heq, hs, ht⟩ := h
  obtain ⟨vs, b, rfl⟩ := (List.eq_nil_or_concat vs).resolve_left hne
  have hsplit : (us ++ .symbol s :: vs) ++ [b] = (pre ++ [.symbol s']) ++ [t] := by simpa using heq
  obtain ⟨hrest, hb⟩ := List.append_inj' hsplit rfl
  rcases List.eq_nil_or_concat vs with rfl | ⟨vs, c, rfl⟩
  · have hsymbol := List.append_inj_right' hrest rfl
    simp_all
  · have hsplit' : (us ++ .symbol s :: vs) ++ [c] = pre ++ [.symbol s'] := by simpa using hrest
    obtain rfl : c = .symbol s' := by simpa using List.append_inj_right' hsplit' rfl
    exact ⟨vs, s', t, key, by simpa using hb, hs, ht⟩

theorem Operand.not_endsInKey {ts : List Token} {e : Expr} (h : Operand ts e) : ¬EndsInKey ts := by
  cases h with
  | paren => exact not_endsInKey_close (.symbol .parenOpen :: _) .parenClose
  | list => exact not_endsInKey_close (.symbol .bracketOpen :: _) .bracketClose
  | map => exact not_endsInKey_close (.symbol .braceOpen :: _) .braceClose
  | _ => exact not_endsInKey_singleton _

theorem Access.not_endsInKey {ts : List Token} {e : Expr} (h : Access ts e) : ¬EndsInKey ts := by
  cases h with
  | operand h => exact h.not_endsInKey
  | getter h => exact fun hkey => not_endsInKey_singleton _ (hkey.of_cons nofun nofun nofun)
  | @method us vs _ name =>
    simpa using not_endsInKey_close
      (us ++ .symbol .dot :: .identifier name :: .symbol .parenOpen :: vs) .parenClose
  | @call us vs => simpa using not_endsInKey_close (us ++ .symbol .parenOpen :: vs) .parenClose
  | @index us vs => simpa using not_endsInKey_close (us ++ .symbol .bracketOpen :: vs) .bracketClose

theorem Unary.not_endsInKey {ts : List Token} {e : Expr} : Unary ts e → ¬EndsInKey ts
  | @Unary.apply op ts _ h => fun hkey => by
    have hcons : EndsInKey ([] ++ .symbol op.symbol :: ts) := hkey
    have hne : ts ≠ [] := by
      obtain ⟨t, us, rfl, -⟩ := h.head
      nofun
    exact h.not_endsInKey (hcons.of_cons hne (by cases op <;> nofun) (by cases op <;> nofun))
  | .access h => h.not_endsInKey

theorem Binary.not_endsInKey {least : Nat} {ts : List Token} {e : Expr} :
    Binary least ts e → ¬EndsInKey ts
  | .unary h => h.not_endsInKey
  | @Binary.join _ op _ rs _ _ _ _ hr => fun hkey => by
    have hne : rs ≠ [] := by
      obtain ⟨t, us, rfl, -⟩ := hr.head
      nofun
    exact hr.not_endsInKey (hkey.of_cons hne (by cases op <;> nofun) (by cases op <;> nofun))

theorem Expression.ne_nil {ts : List Token} {e : Expr} (h : Expression ts e) : ts ≠ [] := by
  obtain ⟨t, us, rfl, -⟩ := h.head
  nofun

theorem Expression.not_endsInKey {ts : List Token} {e : Expr} : Expression ts e → ¬EndsInKey ts
  | .plain h => h.not_endsInKey
  | @Expression.ternary cs ts fs _ _ _ _ _ hf => fun hkey => by
    have hcolon : EndsInKey ((cs ++ .symbol .question :: ts) ++ .symbol .colon :: fs) := by
      simpa using hkey
    exact hf.not_endsInKey (hcolon.of_cons hf.ne_nil nofun nofun)

/-- **A key is no value:** what ends in the key of an entry does not end in a value. -/
theorem EndsInKey.not_endsInValue {us : List Token} (h : EndsInKey us) : ¬EndsInValue us := by
  rintro ⟨pre, vs, v, rfl, hv⟩
  exact hv.not_endsInKey (h.of_cons hv.ne_nil nofun nofun)

end Phrase

namespace Grammar

open Step Phrase

/-- Every phrase that is parsed within the budget fails as late as possible. -/
structure Viable (budget : Nat) : Prop where
  ternary {pre : List Token} {p : Parser Unit} : p.Bounded →
    Stuck pre (fun ts => ∃ e, Expression ts e) (ternary Expr.builder budget) p
  binary (least : Nat) {pre : List Token} {p : Parser Unit} : p.Bounded →
    Stuck pre (fun ts => ∃ e, Binary least ts e) (binary Expr.builder budget least) p
  binaryChain {least band : Nat} {pre ls : List Token} {p : Parser Unit} {left : Expr} :
    p.Bounded →
    Binary band ls left → p.current.token.Looser (band + 1) →
      Stuck pre (fun ts => ∃ e, Binary least (ls ++ ts) e)
        (binaryChain Expr.builder budget least left) p
  unary {pre : List Token} {p : Parser Unit} : p.Bounded →
    Stuck pre (fun ts => ∃ e, Unary ts e) (unary Expr.builder budget) p
  access {pre : List Token} {p : Parser Unit} : p.Bounded →
    Stuck pre (fun ts => ∃ e, Unary ts e) (access Expr.builder budget) p
  accessChain {pre : List Token} {p : Parser Unit} {receiver : Expr} {ls : List Token} : p.Bounded →
    Access ls receiver →
      (p.current.token = .symbol .parenOpen → receiver.isGetter = false) →
        Stuck pre (fun ts => ∃ e, Access (ls ++ ts) e) (accessChain Expr.builder budget receiver) p
  arguments {pre : List Token} {p : Parser Unit} : p.Bounded →
    Stuck pre (fun ts => ∃ us args, ts = .symbol .parenOpen :: (us ++ [.symbol .parenClose]) ∧
      Arguments us args) (arguments Expr.builder budget) p
  argumentList {pre : List Token} {p : Parser Unit} : p.Bounded →
    Stuck pre (fun ts => ∃ args, ArgumentList ts args) (argumentList Expr.builder budget) p
  operand {pre : List Token} {p : Parser Unit} : p.Bounded →
    Stuck pre (fun ts => ∃ e, Unary ts e) (operand Expr.builder budget) p
  listItems {pre : List Token} {p : Parser Unit} : p.Bounded →
    Stuck pre (fun ts => ∃ us items, ts = us ++ [.symbol .bracketClose] ∧ Items us items)
      (listItems Expr.builder budget) p
  mapEntries {pre : List Token} {s : Symbol} {p : Parser Unit} : p.Bounded →
    s = .braceOpen ∨ s = .comma → Stuck (pre ++ [.symbol s])
      (fun ts => ∃ us entries, ts = us ++ [.symbol .braceClose] ∧ Entries us entries)
      (mapEntries Expr.builder budget) p
  mapValue {pre : List Token} {p : Parser Unit} : p.Bounded →
    Stuck pre (fun ts => ∀ t key, t = .identifier key ∨ t = .string key →
      ∃ value, Entry (t :: ts) (key, value)) (mapValue Expr.builder budget) p

section Phrases

variable {budget : Nat} (ih : Viable budget) {pre : List Token} {p : Parser Unit} (hp : p.Bounded)

include ih hp

theorem nested_ternary_viable {β : Type} {phrase : List Token → Prop} {next : Expr → Step Unit β}
    (himp : ∀ ts e, Expression ts e → Opens phrase ts)
    (hnext : ∀ ts e r, p.Reads ts r → r.Bounded → Expression ts e →
      Stuck (pre ++ ts) (fun ws => phrase (ts ++ ws)) (next e) r) :
    Stuck pre phrase (nested (ternary Expr.builder budget) >>= next) p := by
  refine Stuck.bind hp (local_ternary budget).nested ((ih.ternary hp).nested hp.allowance) ?_ ?_
  · rintro ts ⟨e, he⟩
    exact himp ts e he
  · intro e r hr
    obtain ⟨ts, hts, he, -⟩ := nested_ternary_sound (sound budget) hr
    exact ⟨ts, hts, hnext ts e r hts (hp.of_reads hts) he⟩

theorem ternary_viable_bind {β : Type} {phrase : List Token → Prop} {next : Expr → Step Unit β}
    (himp : ∀ ts e, Expression ts e → Opens phrase ts)
    (hnext : ∀ ts e r, p.Reads ts r → r.Bounded → Expression ts e →
      Stuck (pre ++ ts) (fun ws => phrase (ts ++ ws)) (next e) r) :
    Stuck pre phrase (ternary Expr.builder budget >>= next) p := by
  refine Stuck.bind hp (local_ternary budget) (ih.ternary hp) ?_ ?_
  · rintro ts ⟨e, he⟩
    exact himp ts e he
  · intro e r hr
    obtain ⟨ts, hts, he, -⟩ := (sound budget).ternary hr
    exact ⟨ts, hts, hnext ts e r hts (hp.of_reads hts) he⟩

theorem ternary_viable :
    Stuck pre (fun ts => ∃ e, Expression ts e) (ternary Expr.builder (budget + 1)) p := by
  refine Stuck.bind hp (local_binary budget 1) (ih.binary 1 hp) ?_ ?_
  · rintro ts ⟨e, he⟩
    exact opens_self ⟨e, .plain he⟩
  · intro c p₁ hc
    obtain ⟨⟨cs, hcs, hc, -⟩, -⟩ := (sound budget).binary hc
    have hp₁ := hp.of_reads hcs
    refine ⟨cs, hcs, stuck_token ?_⟩
    split
    · next hquestion =>
      refine stuck_advance_bind hp₁ hquestion nofun ?_ fun p₂ _ hp₂ => ?_
      · exact ⟨[.null, .symbol .colon, .null], by simp, _,
          .ternary hc expression_null expression_null⟩
      refine nested_ternary_viable ih hp₂ (fun ts t ht => ?_) fun ts t p₃ _ hp₃ ht => ?_
      · exact ⟨[.symbol .colon, .null], by simp, _, .ternary hc ht expression_null⟩
      refine stuck_expect_bind hp₃ ?_ fun p₄ _ hp₄ => ?_
      · exact ⟨[.null], by simp, _, .ternary hc ht expression_null⟩
      refine Stuck.map (((ih.ternary hp₄).nested hp₄.allowance).imp ?_)
      rintro fs ⟨f, hf⟩
      exact opens_self ⟨_, .ternary hc ht hf⟩
    · exact stuck_pure _

theorem binary_viable (least : Nat) :
    Stuck pre (fun ts => ∃ e, Binary least ts e) (binary Expr.builder (budget + 1) least) p := by
  refine Stuck.bind hp (local_unary budget) (ih.unary hp) ?_ ?_
  · rintro ts ⟨e, he⟩
    exact opens_self ⟨e, .unary he⟩
  · intro u p₁ hu
    obtain ⟨us, hus, hunary, -⟩ := (sound budget).unary hu
    refine ⟨us, hus, Stuck.restoring ?_⟩
    -- A unary operand may stand on the left of any operator, so the tightest band will do.
    have hop : p₁.current.token.Looser (7 + 1) := fun op _ => Nat.lt_succ_of_le op.band_le
    exact ih.binaryChain (hp.of_reads hus) (.unary hunary) hop

theorem binaryChain_viable {least band : Nat} {left : Expr} {ls : List Token}
    (hleft : Binary band ls left)
    (hband : p.current.token.Looser (band + 1)) :
    Stuck pre (fun ts => ∃ e, Binary least (ls ++ ts) e)
      (binaryChain Expr.builder (budget + 1) least left) p := by
  refine stuck_token ?_
  split
  · exact stuck_pure _
  · next op hop =>
    rw [op.precedence_eq_band]
    split
    · exact stuck_pure _
    · next hge =>
      have hop' : op.band ≤ band := Nat.le_of_lt_succ (hband op hop)
      have hjoin {rs : List Token} {r : Expr} (hr : Binary (op.band + 1) rs r) :
          Binary op.band (ls ++ .symbol op.symbol :: rs) (.binary op left r) :=
        .join (Nat.le_refl _) (hleft.mono hop') hr
      have hleast := Nat.le_of_not_lt hge
      refine stuck_spend hp.allowance ?_
      refine stuck_advance_bind hp (Token.binary?_eq_some_iff.1 hop) nofun ?_ fun p₁ _ hp₁ => ?_
      · exact ⟨[.null], by simp, _, (hjoin (binary_null _)).mono hleast⟩
      refine Stuck.bind hp₁ (local_binary budget _) (ih.binary _ hp₁) ?_ fun r p₂ hr => ?_
      · rintro rs ⟨r, hr⟩
        exact opens_self ⟨_, (hjoin hr).mono hleast⟩
      · obtain ⟨⟨rs, hrs, hr, -⟩, hlooser⟩ := (sound budget).binary hr
        refine ⟨rs, hrs, ?_⟩
        refine (ih.binaryChain (hp₁.of_reads hrs) (hjoin hr) hlooser).imp ?_
        rintro ws ⟨e, he⟩
        exact opens_self ⟨e, by simpa using he⟩

theorem unary_viable :
    Stuck pre (fun ts => ∃ e, Unary ts e) (unary Expr.builder (budget + 1)) p := by
  refine stuck_token ?_
  split
  · next op hop =>
    refine stuck_advance_bind hp (Token.unary?_eq_some_iff.1 hop) nofun ?_ fun p₁ _ hp₁ => ?_
    · exact ⟨[.null], by simp, _, .apply unary_null⟩
    refine Stuck.map (((ih.unary hp₁).nested hp₁.allowance).imp ?_)
    rintro ts ⟨e, he⟩
    exact opens_self ⟨_, .apply he⟩
  · exact ih.access hp

theorem access_viable :
    Stuck pre (fun ts => ∃ e, Unary ts e) (access Expr.builder (budget + 1)) p := by
  refine Stuck.bind hp (local_operand budget) (ih.operand hp) (fun _ h => opens_self h) ?_
  intro a p₁ ha
  obtain ⟨os, hos, hoperand, -⟩ := (sound budget).operand ha
  refine ⟨os, hos, Stuck.restoring ?_⟩
  refine (ih.accessChain (hp.of_reads hos) (.operand hoperand)
    fun _ => hoperand.isGetter_eq_false).imp ?_
  rintro ws ⟨e, he⟩
  exact opens_self ⟨e, .access he⟩

/-- One more link of an access chain, and the rest of the chain behind it. -/
theorem accessLink_viable {phrase : List Token → Prop} {ks : List Token} {made : Expr}
    (hmade : Access ks made)
    (hparen : p.current.token = .symbol .parenOpen → made.isGetter = false)
    (himp : ∀ ws e, Access (ks ++ ws) e → phrase ws) :
    Stuck pre phrase (accessChain Expr.builder budget made) p := by
  refine (ih.accessChain hp hmade hparen).imp ?_
  rintro ws ⟨e, he⟩
  exact opens_self (himp ws e he)

/-- The arguments of a call, and the rest of the chain behind them. -/
theorem call_viable {phrase : List Token → Prop} {ks : List Token} {node : List Expr → Node Expr}
    (hcall : ∀ us args, Arguments us args →
      Access (ks ++ .symbol .parenOpen :: (us ++ [.symbol .parenClose])) (.ofNode (node args)))
    (hnode : ∀ args, (Expr.ofNode (node args)).isGetter = false)
    (himp : ∀ ws e, Access (ks ++ ws) e → phrase ws) :
    Stuck pre phrase (do
      let args ← arguments Expr.builder budget
      let call ← make Expr.builder (node args)
      accessChain Expr.builder budget call) p := by
  refine Stuck.bind hp (local_arguments budget) (ih.arguments hp) ?_ fun args p₁ hargs => ?_
  · rintro _ ⟨us, args, rfl, hargs⟩
    exact opens_self (himp _ _ (hcall us args hargs))
  · obtain ⟨_, hts, ⟨us, rfl, hargs⟩, -⟩ := (sound budget).arguments hargs
    refine ⟨_, hts, accessLink_viable ih (hp.of_reads hts) (hcall us args hargs)
      (fun _ => hnode args) fun ws e he => himp _ e ?_⟩
    rwa [List.append_assoc] at he

theorem accessChain_viable {receiver : Expr} {ls : List Token} (hreceiver : Access ls receiver)
    (hparen : p.current.token = .symbol .parenOpen → receiver.isGetter = false) :
    Stuck pre (fun ts => ∃ e, Access (ls ++ ts) e)
      (accessChain Expr.builder (budget + 1) receiver) p := by
  refine stuck_token ?_
  split
  · next hdot =>
    refine stuck_spend hp.allowance ?_
    refine stuck_advance_bind hp hdot (by simp) ?_ fun p₁ _ hp₁ => ?_
    · exact ⟨[.identifier "a"], by simp, _, .getter hreceiver⟩
    refine stuck_takeName_bind hp₁ (fun name => ?_) fun name p₂ _ hp₂ => ?_
    · exact opens_self ⟨_, .getter hreceiver⟩
    refine stuck_token ?_
    split
    · have hmethod (us : List Token) (args : List Expr) (hargs : Arguments us args) :
          Access (ls ++ [.symbol .dot, .identifier name] ++
            .symbol .parenOpen :: (us ++ [.symbol .parenClose]))
            (.ofNode (.invoke receiver (some name) (some args))) := by
        simpa [Expr.ofNode] using Access.method hreceiver hargs
      refine call_viable ih hp₂ hmethod (fun _ => rfl) fun ws e he => ⟨e, ?_⟩
      simpa using he
    · next hnotParen =>
      refine accessLink_viable ih hp₂ (.getter hreceiver) (fun hopen => absurd hopen hnotParen) ?_
      intro ws e he
      exact ⟨e, by simpa using he⟩
  · next hopen =>
    refine stuck_spend hp.allowance ?_
    refine call_viable ih hp (fun us args hargs => ?_) (fun _ => rfl) fun ws e he => ⟨e, he⟩
    exact .call hreceiver (hparen hopen) hargs
  · next hopen =>
    refine stuck_spend hp.allowance ?_
    refine stuck_advance_bind hp hopen (by simp) ?_ fun p₁ _ hp₁ => ?_
    · exact ⟨[.null, .symbol .bracketClose], by simp, _, .index hreceiver expression_null⟩
    refine ternary_viable_bind ih hp₁ (fun us i hi => ?_) fun us i p₂ _ hp₂ hi => ?_
    · exact ⟨[.symbol .bracketClose], by simp, _, .index hreceiver hi⟩
    refine stuck_expect_bind hp₂ ?_ fun p₃ _ hp₃ => ?_
    · exact opens_self ⟨_, .index hreceiver hi⟩
    refine accessLink_viable ih hp₃ (.index hreceiver hi) (fun _ => rfl) fun ws e he => ⟨e, ?_⟩
    simpa using he
  · exact stuck_pure _

theorem arguments_viable :
    Stuck pre (fun ts => ∃ us args, ts = .symbol .parenOpen :: (us ++ [.symbol .parenClose]) ∧
      Arguments us args) (arguments Expr.builder (budget + 1)) p := by
  refine stuck_expect_bind hp ?_ fun p₁ _ hp₁ => stuck_token ?_
  · exact ⟨[.symbol .parenClose], by simp, [], [], rfl, .empty⟩
  split
  · next hclose =>
    rw [pure_bind]
    exact (stuck_pass_of_token hclose (opens_self ⟨[], [], rfl, .empty⟩)).map
  · refine Stuck.bind hp₁ (local_argumentList budget) (ih.argumentList hp₁) ?_ ?_
    · rintro us ⟨args, hargs⟩
      exact ⟨[.symbol .parenClose], by simp, us, args, rfl, .list hargs⟩
    · intro args p₂ hargs
      obtain ⟨us, hus, hargs, -⟩ := (sound budget).argumentList hargs
      have hclose : Opens (fun ws => ∃ us' args', Token.symbol .parenOpen :: (us ++ ws) =
          .symbol .parenOpen :: (us' ++ [.symbol .parenClose]) ∧ Arguments us' args')
          [.symbol .parenClose] := opens_self ⟨us, args, rfl, .list hargs⟩
      refine ⟨us, hus, (stuck_pass hclose (List.forall_mem_cons.2 ⟨⟨_, rfl, ?_⟩,
        List.forall_mem_singleton.2 ⟨_, rfl, hclose⟩⟩) (by simp [afterEntry])).map⟩
      exact ⟨[.null, .symbol .parenClose], by simp, _, _, by simp, .list hargs.snoc⟩

theorem argumentList_viable :
    Stuck pre (fun ts => ∃ args, ArgumentList ts args)
      (argumentList Expr.builder (budget + 1)) p := by
  refine ternary_viable_bind ih hp (fun ts e he => opens_self ⟨_, .last he⟩)
    fun ts e p₁ _ hp₁ he => stuck_token ?_
  split
  · next hcomma =>
    refine stuck_advance_bind hp₁ hcomma nofun ?_ fun p₂ _ hp₂ => ?_
    · exact ⟨[.null], by simp, _, .more he (.last expression_null)⟩
    refine Stuck.map ((ih.argumentList hp₂).imp ?_)
    rintro us ⟨args, hargs⟩
    exact opens_self ⟨_, .more he hargs⟩
  · exact stuck_pure _

omit ih hp in
/-- A single token that is an operand. -/
theorem leaf_viable {node : Node Expr} {t : Token} (ht : p.current.token = t) (hne : t ≠ .eof)
    (hoperand : Operand [t] (.ofNode node)) :
    Stuck pre (fun ts => ∃ e, Unary ts e) (leaf Expr.builder node) p := by
  refine Stuck.imp (stuck_take ht hne) ?_
  rintro _ rfl
  exact opens_self ⟨_, .access (.operand hoperand)⟩

omit ih hp in
/-- Whatever an operand may begin with, something can be completed behind it. -/
theorem opens_of_operandStarts {x : Expectation} {t : Token} (hx : x ∈ operandStarts)
    (ht : x.admits t = true) : Opens (fun ts => ∃ e, Unary ts e) [t] := by
  have hleaf {t : Token} {e : Expr} (h : Operand [t] e) : Opens (fun ts => ∃ e, Unary ts e) [t] :=
    opens_self ⟨e, .access (.operand h)⟩
  have happly (op : UnaryOp) : Opens (fun ts => ∃ e, Unary ts e) [.symbol op.symbol] :=
    ⟨[.null], by simp, _, .apply unary_null⟩
  cases t with
  | number value => exact hleaf (.number value)
  | string value => exact hleaf (.string value)
  | boolean value => exact hleaf (.boolean value)
  | null => exact hleaf .null
  | identifier name => exact hleaf (.identifier name)
  | symbol s =>
    obtain rfl : x = .symbol s := by
      cases x <;> simp_all [Expectation.admits]
    simp only [operandStarts, List.mem_cons, Expectation.symbol.injEq, reduceCtorEq, false_or,
      List.not_mem_nil, or_false] at hx
    rcases hx with rfl | rfl | rfl | rfl | rfl | rfl
    · exact ⟨[.null, .symbol .parenClose], by simp, _,
        .access (.operand (.paren expression_null))⟩
    · exact ⟨[.symbol .bracketClose], by simp, _, .access (.operand (.list .nil))⟩
    · exact ⟨[.symbol .braceClose], by simp, _, .access (.operand (.map .nil))⟩
    · exact happly .not
    · exact happly .negate
    · exact happly .plus
  | eof =>
    obtain rfl : x = .endOfInput := by
      cases x <;> simp_all [Expectation.admits]
    simp [operandStarts] at hx

theorem operand_viable :
    Stuck pre (fun ts => ∃ e, Unary ts e) (operand Expr.builder (budget + 1)) p := by
  refine stuck_token ?_
  split
  · next ht => exact leaf_viable ht nofun (.number _)
  · next ht => exact leaf_viable ht nofun (.string _)
  · next ht => exact leaf_viable ht nofun (.boolean _)
  · next ht => exact leaf_viable ht nofun .null
  · next ht => exact leaf_viable ht nofun (.identifier _)
  · next ht =>
    refine stuck_bracketed hp ht nofun ?_ fun p₁ _ hp₁ => ?_
    · exact ⟨[.null, .symbol .parenClose], by simp, _, .access (.operand (.paren expression_null))⟩
    refine ternary_viable_bind ih hp₁ (fun ts e he => ?_) fun ts e p₂ _ hp₂ he => ?_
    · exact ⟨[.symbol .parenClose], by simp, _, .access (.operand (.paren he))⟩
    refine stuck_expect_bind hp₂ ?_ fun p₃ _ _ => stuck_pure _
    exact opens_self ⟨_, .access (.operand (.paren he))⟩
  · next ht =>
    refine stuck_bracketed hp ht nofun ?_ fun p₁ _ hp₁ => ?_
    · exact ⟨[.symbol .bracketClose], by simp, _, .access (.operand (.list .nil))⟩
    refine Stuck.bind hp₁ (local_listItems budget) (ih.listItems hp₁) ?_ fun items p₂ hitems => ?_
    · rintro _ ⟨us, items, rfl, hitems⟩
      exact opens_self ⟨_, .access (.operand (.list hitems))⟩
    · obtain ⟨⟨us, hus, hitems, -⟩, hclose⟩ := (sound budget).listItems hitems
      refine ⟨us, hus, Stuck.map ((stuck_advance hclose nofun).imp ?_)⟩
      rintro _ rfl
      exact opens_self ⟨_, .access (.operand (.list hitems))⟩
  · next ht =>
    refine stuck_bracketed hp ht nofun ?_ fun p₁ _ hp₁ => ?_
    · exact ⟨[.symbol .braceClose], by simp, _, .access (.operand (.map .nil))⟩
    refine Stuck.bind hp₁ (local_mapEntries budget) (ih.mapEntries hp₁ (.inl rfl)) ?_
      fun entries p₂ hmap => ?_
    · rintro _ ⟨us, entries, rfl, hentries⟩
      exact opens_self ⟨_, .access (.operand (.map hentries))⟩
    · obtain ⟨⟨us, hus, hentries, -⟩, hclose⟩ := (sound budget).mapEntries hmap
      refine ⟨us, hus, Stuck.map ((stuck_advance hclose nofun).imp ?_)⟩
      rintro _ rfl
      exact opens_self ⟨_, .access (.operand (.map hentries))⟩
  · refine stuck_unexpected ⟨[.null], by simp, _, unary_null⟩ fun x hx => ⟨?_, fun t ht => .inl ?_⟩
    · rintro rfl
      simp [operandStarts] at hx
    · exact ⟨opens_of_operandStarts hx ht, by simp [operandStarts, afterEntry]⟩

omit ih hp in
/-- Where a list ends, nothing can go wrong. -/
theorem listItems_viable_close {phrase : List Token → Prop}
    (hclose : p.current.token = .symbol .bracketClose) :
    Stuck pre phrase (listItems Expr.builder budget) p := by
  cases budget with
  | zero => exact stuck_exhausted
  | succ budget =>
    refine stuck_token ?_
    rw [if_pos hclose]
    exact stuck_pure _

theorem listItems_viable :
    Stuck pre (fun ts => ∃ us items, ts = us ++ [.symbol .bracketClose] ∧ Items us items)
      (listItems Expr.builder (budget + 1)) p := by
  refine stuck_token ?_
  split
  · exact stuck_pure _
  split
  · next hcomma =>
    refine stuck_advance_bind hp hcomma nofun ?_ fun p₁ _ hp₁ => ?_
    · exact ⟨[.symbol .bracketClose], by simp, _, _, rfl, .hole .nil⟩
    refine Stuck.map ((ih.listItems hp₁).imp ?_)
    rintro _ ⟨us, items, rfl, hitems⟩
    exact opens_self ⟨_, _, rfl, .hole hitems⟩
  · refine ternary_viable_bind ih hp (fun ts e he => ?_) fun ts e p₁ _ hp₁ he => ?_
    · exact ⟨[.symbol .bracketClose], by simp, _, _, rfl, .last he⟩
    have hcomma : Opens (fun ws => ∃ us items, ts ++ ws = us ++ [.symbol .bracketClose] ∧
        Items us items) [.symbol .comma] :=
      ⟨[.symbol .bracketClose], by simp, _, _, by simp, .item he .nil⟩
    refine stuck_separator_bind hp₁ hcomma (fun _ _ => ?_) (fun hclose => ?_) fun p₂ _ hp₂ => ?_
    · exact ⟨List.forall_mem_cons.2 ⟨⟨_, rfl, hcomma⟩,
        List.forall_mem_singleton.2 ⟨_, rfl, opens_self ⟨ts, _, rfl, .last he⟩⟩⟩,
        by simp [afterEntry]⟩
    · exact (listItems_viable_close hclose).map
    · refine Stuck.map ((ih.listItems hp₂).imp ?_)
      rintro _ ⟨us, items, rfl, hitems⟩
      exact opens_self ⟨_, _, by simp, .item he hitems⟩

theorem mapValue_viable :
    Stuck pre (fun ts => ∀ t key, t = .identifier key ∨ t = .string key →
      ∃ value, Entry (t :: ts) (key, value)) (mapValue Expr.builder (budget + 1)) p := by
  refine stuck_token ?_
  split
  · next hcolon =>
    refine stuck_advance_bind hp hcolon nofun ?_ fun p₁ _ hp₁ => ?_
    · exact ⟨[.null], by simp, fun t key ht => ⟨_, .value ht expression_null⟩⟩
    refine Stuck.map ((ih.ternary hp₁).imp ?_)
    rintro ts ⟨e, he⟩
    exact opens_self fun t key ht => ⟨_, .value ht he⟩
  · exact stuck_pure _

omit ih hp in
/-- Where a map ends, nothing can go wrong. -/
theorem mapEntries_viable_close {phrase : List Token → Prop}
    (hclose : p.current.token = .symbol .braceClose) :
    Stuck pre phrase (mapEntries Expr.builder budget) p := by
  cases budget with
  | zero => exact stuck_exhausted
  | succ budget =>
    refine stuck_token ?_
    rw [if_pos hclose]
    exact stuck_pure _

/-- The rest of a map behind an entry, if that has no value or what comes next is in order. -/
theorem entryEnd_viable {ts : List Token} {entry : String × Option Expr} (hentry : Entry ts entry)
    (hvalue : p.current.token ≠ .symbol .braceClose → p.current.token ≠ .symbol .comma →
      entry.2 = none ∧ ¬EndsInValue pre) :
    Stuck pre (fun ws => ∃ us entries, ts ++ ws = us ++ [.symbol .braceClose] ∧ Entries us entries)
      (do
        separator .braceClose afterEntry
        let rest ← mapEntries Expr.builder budget
        return entry :: rest) p := by
  have hcomma : Opens (fun ws => ∃ us entries, ts ++ ws = us ++ [.symbol .braceClose] ∧
      Entries us entries) [.symbol .comma] :=
    ⟨[.symbol .braceClose], by simp, _, _, by simp, .entry hentry .nil⟩
  refine stuck_separator_bind hp hcomma (fun hclose hne => ?_) (fun hclose => ?_)
    fun p₁ _ hp₁ => ?_
  · have hbrace : Opens (fun ws => ∃ us entries, ts ++ ws = us ++ [.symbol .braceClose] ∧
        Entries us entries) [.symbol .braceClose] := opens_self ⟨ts, _, rfl, .last hentry⟩
    refine ⟨List.forall_mem_cons.2 ⟨⟨_, rfl, ?_⟩, List.forall_mem_cons.2 ⟨⟨_, rfl, hcomma⟩,
      List.forall_mem_singleton.2 ⟨_, rfl, hbrace⟩⟩⟩, fun _ => (hvalue hclose hne).2⟩
    cases hentry with
    | key ht =>
      exact ⟨[.null, .symbol .braceClose], by simp, _, _, rfl, .last (.value ht expression_null)⟩
    | value ht he => nomatch (hvalue hclose hne).1
  · exact (mapEntries_viable_close hclose).map
  · refine Stuck.map ((ih.mapEntries hp₁ (.inr rfl)).imp ?_)
    rintro _ ⟨us, entries, rfl, hentries⟩
    exact opens_self ⟨_, _, by simp, .entry hentry hentries⟩

omit ih hp in
/-- A value that is parsed with a large budget is parsed with any that is enough. -/
theorem gives_mapValue {value : Option Expr} {q : Parser Unit}
    (h : Yields (mapValue Expr.builder) p value q)
    (hsome : (mapValue Expr.builder budget).outcome p ≠ none) :
    (mapValue Expr.builder budget).Gives p value q := by
  obtain ⟨o, ho⟩ := Option.ne_none_iff_exists'.1 hsome
  obtain ⟨larger, hlarger, hle⟩ := (h.and (Filter.eventually_ge_atTop budget)).exists
  rw [Gives, ho, ← outcome_mapValue_mono ho hle]
  exact hlarger

omit ih hp in
/-- **Behind a value, a colon is refused.**  What stands before the colon is a whole value again,
and no entry has two of them. -/
theorem mapValue_refuses {β : Type} {next : Option Expr → Step Unit β} {vs : List Token}
    {v : Expr} (hv : Expression vs v) :
    (do
      let value ← mapValue Expr.builder budget
      separator .braceClose afterEntry
      next value).FailsBehind (.symbol .colon :: vs) (.symbol .colon) afterEntry := by
  intro p r hp hts hcolon hsome
  obtain ⟨p₁, hp₁, hvs⟩ := Parser.reads_cons_iff.1 hts
  have hneed : p₁.Affords v.need := fun a ha => by simp [hp₁.allowance_eq, hp] at ha
  have hends : r.current.token.EndsExpression := Token.endsExpression_of_mem (by simp [hcolon])
  have hgives : (mapValue Expr.builder budget).Gives p (some v) r :=
    gives_mapValue (yields_mapValue_some hp₁ (hv.yields hvs hneed hends)) fun hnone =>
      hsome (by rw [outcome_bind, hnone])
  refine fails_bind.2 (.inr ⟨_, r, hgives, (fails_separator_bind ?_ ?_).2 ⟨?_, rfl⟩⟩)
  · rw [hcolon]
    nofun
  · rw [hcolon]
    nofun
  · rw [hcolon]

/-- The rest of a map behind a key. -/
theorem entry_viable {s : Symbol} {t : Token} {key : String} (hs : s = .braceOpen ∨ s = .comma)
    (ht : t = .identifier key ∨ t = .string key) :
    Stuck (pre ++ [.symbol s] ++ [t])
      (fun ws => ∃ us entries, t :: ws = us ++ [.symbol .braceClose] ∧ Entries us entries)
      (do
        let value ← mapValue Expr.builder budget
        separator .braceClose afterEntry
        let rest ← mapEntries Expr.builder budget
        return (key, value) :: rest) p := by
  intro e q he
  rcases fails_bind.1 he with he | ⟨value, p₁, hvalue, he⟩
  · refine (ih.mapValue hp e q he).bind fun ws hws => ?_
    obtain ⟨value, hentry⟩ := hws t key ht
    exact ⟨[.symbol .braceClose], by simp, _, _, rfl, .last hentry⟩
  obtain ⟨ts, hts, hentries, -⟩ := (sound budget).mapValue hvalue
  have hentry := hentries t key ht
  by_cases hend : p₁.current.token ≠ .symbol .braceClose → p₁.current.token ≠ .symbol .comma →
      value = none
  · refine Blames.after hp (local_mapValue budget) hvalue hts
      (entryEnd_viable ih (hp.of_reads hts) hentry (fun hbrace hcomma => ?_) e q he)
    obtain rfl := hend hbrace hcomma
    cases hentry with
    | key => exact ⟨rfl, EndsInKey.not_endsInValue ⟨pre, s, t, key, by simp, hs, ht⟩⟩
  -- The entry has a value, and neither a comma nor the closing brace comes next.
  push Not at hend
  obtain ⟨hbrace, hcomma, hsome⟩ := hend
  obtain ⟨rfl, rfl⟩ := (fails_separator_bind hbrace hcomma).1 he
  cases hentry with
  | key => exact absurd rfl hsome
  | @value _ _ vs v _ hv =>
    have hclosed : Opens (fun ws => ∃ us entries, t :: ws = us ++ [.symbol .braceClose] ∧
        Entries us entries) (.symbol .colon :: vs) :=
      ⟨[.symbol .braceClose], by simp, _, _, rfl, .last (.value ht hv)⟩
    refine ⟨_, afterEntry, .unexpected _ hts, hclosed, fun x hx => ?_⟩
    simp only [afterEntry, List.mem_cons, List.not_mem_nil, or_false] at hx
    rcases hx with rfl | rfl | rfl
    · refine ⟨by simp, fun t' ht' => .inr ?_⟩
      obtain rfl := admits_symbol.1 ht'
      exact ⟨rfl, rfl, ⟨[], vs, v, rfl, hv⟩, mapValue_refuses hv⟩
    · refine ⟨by simp, fun t' ht' => .inl ?_⟩
      rw [admits_symbol.1 ht']
      refine ⟨?_, by simp⟩
      exact ⟨[.symbol .braceClose], by simp, _, _, by simp, .entry (.value ht hv) .nil⟩
    · refine ⟨by simp, fun t' ht' => .inl ?_⟩
      rw [admits_symbol.1 ht']
      exact ⟨opens_self ⟨_, _, rfl, .last (.value ht hv)⟩, by simp⟩

theorem mapEntries_viable {s : Symbol} (hs : s = .braceOpen ∨ s = .comma) :
    Stuck (pre ++ [.symbol s])
      (fun ts => ∃ us entries, ts = us ++ [.symbol .braceClose] ∧ Entries us entries)
      (mapEntries Expr.builder (budget + 1)) p := by
  refine stuck_token ?_
  split
  · exact stuck_pure _
  split
  · next hcomma =>
    refine stuck_advance_bind hp hcomma nofun ?_ fun p₁ _ hp₁ => ?_
    · exact ⟨[.symbol .braceClose], by simp, _, _, rfl, .skip .nil⟩
    refine (ih.mapEntries hp₁ (.inr rfl)).imp ?_
    rintro _ ⟨us, entries, rfl, hentries⟩
    exact opens_self ⟨_, _, rfl, .skip hentries⟩
  · refine stuck_takeKey_bind hp (fun t key ht => ?_) ?_ fun t key p₁ ht _ hp₁ => ?_
    · exact ⟨[.symbol .braceClose], by simp, _, _, rfl, .last (.key ht)⟩
    · exact opens_self ⟨_, _, rfl, .nil⟩
    · exact entry_viable ih hp₁ hs ht

end Phrases

/-- **Every failure comes as late as possible.** -/
theorem viable (budget : Nat) : Viable budget := by
  induction budget with
  | zero => constructor <;> intros <;> exact stuck_exhausted
  | succ budget ih =>
    exact {
      ternary := ternary_viable ih
      binary := fun least _ _ hp => binary_viable ih hp least
      binaryChain := fun hp => binaryChain_viable ih hp
      unary := unary_viable ih
      access := access_viable ih
      accessChain := fun hp => accessChain_viable ih hp
      arguments := arguments_viable ih
      argumentList := argumentList_viable ih
      operand := operand_viable ih
      listItems := listItems_viable ih
      mapEntries := fun hp => mapEntries_viable ih hp
      mapValue := mapValue_viable ih }

/-- **A whole input fails as late as possible,** unless nothing can be read behind the end of
input. -/
theorem whole_viable {budget : Nat} {p q : Parser Unit} {e : ParseError} (hp : p.Bounded)
    (h : (whole Expr.builder budget).Fails p e q) :
    (∃ ts r error, p.Reads ts r ∧ r.current.token = .eof ∧ e = .lex error) ∨
      ∃ us expected, p.Halts us expected e q ∧ Opens (fun ts => ∃ e, Whole ts e) us ∧
        ∀ x ∈ expected, (x = .endOfInput ∧ ∃ e, Whole us e) ∨
          Offers [] (fun ts => ∃ e, Whole ts e) (whole Expr.builder budget) us expected x := by
  by_cases heof : p.current.token = .eof
  · replace h := fails_token_bind.1 h
    rw [if_pos heof] at h
    exact absurd h not_fails_pure
  have hroot := fails_token_bind.1 h
  rw [if_neg heof] at hroot
  rcases fails_bind.1 hroot with hternary | ⟨root, r, hgives, hend⟩
  · -- An expression that fails is all that there is of the input.
    have hblames : Blames [] (fun ts => ∃ e, Whole ts e) (whole Expr.builder budget) p e q := by
      refine Blames.token ?_
      rw [if_neg heof]
      refine ((viable budget).ternary hp e q hternary).bind ?_
      rintro ts ⟨e, he⟩
      exact opens_self ⟨e, .inr he⟩
    obtain ⟨us, expected, hhalts, hopens, hoffers⟩ := hblames
    exact .inr ⟨us, expected, hhalts, hopens, fun x hx => .inr (hoffers x hx)⟩
  · obtain ⟨ts, hts, he, -⟩ := (sound budget).ternary hgives
    rcases fails_bind.1 hend with hend | ⟨_, _, -, hpure⟩
    · replace hend := fails_token_bind.1 hend
      split at hend
      · next hadmits =>
        obtain ⟨error, f, -, rfl, -⟩ := fails_advance.1 hend
        exact .inl ⟨ts, r, error, hts, admits_endOfInput.1 hadmits, rfl⟩
      · obtain ⟨rfl, rfl⟩ := fails_unexpected.1 hend
        have hwhole : ∃ e, Whole ts e := ⟨root, .inr he⟩
        exact .inr ⟨ts, _, .unexpected _ hts, opens_self hwhole,
          List.forall_mem_singleton.2 (.inl ⟨rfl, hwhole⟩)⟩
    · exact absurd hpure not_fails_pure

end Grammar

end Binding
