import Binding.Proofs.Token.Written
import Mathlib.Algebra.Field.Rat
import Mathlib.Data.List.DropRight
import Mathlib.Tactic.FieldSimp
import Mathlib.Tactic.Ring

/-!
# What a number text denotes

A number text denotes a rational number, its integer part and the fraction behind the point.  Many
texts denote the same number, and one of them is the *shortest*: it has no zero that could be left
out, and no point without a fraction.

## Two forms of a number

Where its digits fit, a number is a decimal, and otherwise it keeps its digits.  A decimal is only
accepted if it is written as the text it was read from, so either form gives that text back.  What
has to be shown is that the texts are told apart by what they denote, and nothing else: then no
value has both forms, and none has two texts.

The shortest form is the one that can be computed from the value.  Read without the point, its
digits are the numerator of a fraction over a power of ten in lowest terms, which the value
determines; and the digits can be written again from the numerator (`Number.IsShortest.written`).
That is how a decimal is written, so a shortest form within the bounds is never turned down
(`Decimal.ofChars?_of_shortest`).

## Main definitions

* `Number.rational`: the rational number that a text denotes.
* `Number.IsShortest`: the text has no digit or point too many.

## Main results

* `Number.rational_canonical`, `Number.shortest_canonical`: the canonical form of a text denotes
  the same number, and is the shortest.
* `Number.IsShortest.unique`: a number has one shortest form.
* `Number.exists_ofChars_eq_decimal_iff`: when a number is a decimal.
* `Number.ofChars_exact`: numbers are never rounded, and are equal if their values are.
-/

namespace Binding

namespace Number

/-! ### Digits and the numbers they are -/

/-- The natural number that the digits are. -/
def natural (digits : List Char) : Nat :=
  Nat.ofDigitChars 10 digits 0

theorem natural_append (first second : List Char) :
    natural (first ++ second) = natural first * 10 ^ second.length + natural second := by
  rw [natural, Nat.ofDigitChars_append, Nat.ofDigitChars_eq_ofDigitChars_zero, Nat.mul_comm]
  rfl

theorem natural_zero_cons (digits : List Char) : natural ('0' :: digits) = natural digits := rfl

theorem natural_singleton (c : Char) : natural [c] = c.toNat - 48 := by
  simp [natural, Nat.ofDigitChars_cons]

theorem natural_concat (digits : List Char) (c : Char) :
    natural (digits ++ [c]) = natural digits * 10 + natural [c] :=
  natural_append digits [c]

/-- A digit is written as the number that it is. -/
theorem natural_digit {c : Char} (hc : c.isDigit = true) :
    natural [c] < 10 ∧ (natural [c]).digitChar = c := by
  have hrange : 48 ≤ c.toNat ∧ c.toNat ≤ 57 := Char.isDigit_iff_toNat.1 hc
  have hlt : natural [c] < 10 := by
    rw [natural_singleton]
    omega
  refine ⟨hlt, Char.toNat_inj.1 ?_⟩
  rw [Nat.toNat_digitChar_of_lt_ten hlt, natural_singleton]
  omega

theorem natural_lt {digits : List Char} (h : ∀ c ∈ digits, c.isDigit = true) :
    natural digits < 10 ^ digits.length := by
  induction digits using List.reverseRecOn with
  | nil => exact Nat.one_pos
  | append_singleton digits c ih =>
    have hc := (natural_digit (h c (by simp))).1
    have hdigits := ih fun d hd => h d (by simp [hd])
    rw [natural_concat, List.length_append, List.length_singleton, Nat.pow_succ]
    omega

/-- **Digits without a leading zero** are what the number that they are is written with. -/
theorem toDigits_natural {digits : List Char} (h : ∀ c ∈ digits, c.isDigit = true)
    (hne : digits ≠ []) (hzero : digits.head? = some '0' → digits = ['0']) :
    Nat.toDigits 10 (natural digits) = digits := by
  induction digits using List.reverseRecOn with
  | nil => exact absurd rfl hne
  | append_singleton digits c ih =>
    obtain ⟨hlt, hchar⟩ := natural_digit (h c (by simp))
    have hlast : Nat.toDigits 10 (natural [c]) = [c] := by
      rw [Nat.toDigits_of_lt_base hlt, hchar]
    by_cases hnil : digits = []
    · rw [hnil, List.nil_append, hlast]
    · have hhead : digits.head? ≠ some '0' := by
        intro hhead
        have hall := hzero (by rw [List.head?_append_of_ne_nil _ hnil, hhead])
        have hlength := congrArg List.length hall
        have hpos := List.length_pos_iff.2 hnil
        rw [List.length_append, List.length_singleton, List.length_singleton] at hlength
        omega
      have hdigits := ih (fun d hd => h d (by simp [hd])) hnil fun hhead' => absurd hhead' hhead
      have hpos : 0 < natural digits := by
        refine Nat.pos_of_ne_zero fun hzero' => hhead ?_
        rw [← hdigits, hzero', Nat.toDigits_zero]
        rfl
      rw [natural_concat, Nat.mul_comm, ← Nat.toDigits_append_toDigits (by decide) hpos hlt,
        hdigits, hlast]

/-- With zeros put before them up to their length, all digits are. -/
theorem padded_natural {digits : List Char} (h : ∀ c ∈ digits, c.isDigit = true)
    (hne : digits ≠ []) : Decimal.padded digits.length (natural digits) = digits := by
  induction digits with
  | nil => exact absurd rfl hne
  | cons c digits ih =>
    by_cases hc : c = '0'
    · subst hc
      by_cases hnil : digits = []
      · subst hnil
        rfl
      · have hdigits := ih (fun d hd => h d (by simp [hd])) hnil
        have hle : (Nat.toDigits 10 (natural digits)).length ≤ digits.length := by
          have hlength := congrArg List.length hdigits
          simp only [Decimal.padded, List.leftpad, List.length_append,
            List.length_replicate] at hlength
          omega
        rw [natural_zero_cons, Decimal.padded, List.leftpad, List.length_cons, Nat.succ_sub hle,
          List.replicate_succ, List.cons_append]
        exact congrArg _ hdigits
    · have hkept : Nat.toDigits 10 (natural (c :: digits)) = c :: digits :=
        toDigits_natural h hne fun hhead => absurd (Option.some.inj hhead) hc
      rw [Decimal.padded, hkept, List.leftpad, Nat.sub_self]
      rfl

/-! ### What a number text denotes -/

/-- The digits before the point. -/
def whole (text : List Char) : List Char :=
  text.takeWhile (· ≠ '.')

/-- The digits behind the point. -/
def fraction (text : List Char) : List Char :=
  (text.dropWhile (· ≠ '.')).drop 1

/-- The rational number that a number text denotes. -/
def rational (text : List Char) : ℚ :=
  natural (whole text) + natural (fraction text) / 10 ^ (fraction text).length

/-- The number text is in its shortest form. -/
structure IsShortest (text : List Char) : Prop where
  isDigits : IsDigits text
  whole_ne_nil : whole text ≠ []
  /-- A leading zero is the only digit of the integer part. -/
  leading : (whole text).head? = some '0' → whole text = ['0']
  /-- The fraction has no trailing zero. -/
  trailing : (fraction text).getLast? ≠ some '0'
  /-- There is no trailing point. -/
  point : text.getLast? ≠ some '.'

/-- Zeros before an integer do not count. -/
theorem natural_canonicalWhole (digits : List Char) :
    natural (canonicalWhole digits) = natural digits := by
  induction digits with
  | nil => rfl
  | cons c digits ih =>
    by_cases h : c = '0'
    · have hdropped : canonicalWhole (c :: digits) = canonicalWhole digits := by
        simp [canonicalWhole, h]
      rw [hdropped, ih, h, natural_zero_cons]
    · simp [canonicalWhole, h]

/-- Zeros at the end of a fraction do not count. -/
theorem natural_dropTrailing (digits : List Char) :
    (natural (Text.dropTrailing (· = '0') digits) : ℚ) /
      10 ^ (Text.dropTrailing (· = '0') digits).length = natural digits / 10 ^ digits.length := by
  induction digits using List.reverseRecOn with
  | nil => rfl
  | append_singleton digits c ih =>
    by_cases h : c = '0'
    · have hdropped : Text.dropTrailing (· = '0') (digits ++ [c]) =
          Text.dropTrailing (· = '0') digits := List.rdropWhile_concat_pos _ _ _ (by simpa using h)
      have hzero : natural (digits ++ [c]) = natural digits * 10 := by
        rw [natural_concat, h]
        rfl
      rw [hdropped, ih, hzero, List.length_append, List.length_singleton, pow_succ, Nat.cast_mul]
      exact (mul_div_mul_right _ _ (by norm_num)).symm
    · have hkept : Text.dropTrailing (· = '0') (digits ++ [c]) = digits ++ [c] :=
        List.rdropWhile_concat_neg _ _ _ (by simpa using h)
      rw [hkept]

/-! ### IsShortest forms -/

/-- A number text, cut at its point. -/
theorem IsDigits.parts {text : List Char} (h : IsDigits text) :
    text = joined (whole text) (fraction text) ∧ (∀ c ∈ whole text, c.isDigit = true) ∧
      ∀ c ∈ fraction text, c.isDigit = true := by
  obtain ⟨-, before, behind, rfl, hbefore, hbehind⟩ := h
  have hdot : '.' ∉ before := fun hmem => by simpa using hbefore '.' hmem
  obtain ⟨hwhole, hfraction⟩ := parts_joined hdot behind
  rw [whole, fraction, hwhole, hfraction]
  exact ⟨rfl, hbefore, hbehind⟩

/-- No number text ends in a point. -/
theorem IsDigits.getLast?_ne {text : List Char} (h : IsDigits text) :
    text.getLast? ≠ some '.' := by
  obtain ⟨-, before, behind, rfl, hbefore, hbehind⟩ := h
  intro hlast
  have hmem : '.' ∈ if behind = [] then before else behind := by
    cases behind with
    | nil => exact List.mem_of_getLast? hlast
    | cons c behind =>
      refine List.mem_of_getLast? (l := c :: behind) ?_
      rwa [joined, List.getLast?_append_cons, List.getLast?_cons_cons] at hlast
  split at hmem
  · simpa using hbefore '.' hmem
  · simpa using hbehind '.' hmem

/-- Either part of the canonical form is that of the text, trimmed. -/
theorem parts_canonical (text : List Char) :
    whole (canonical text) = canonicalWhole (whole text) ∧
      fraction (canonical text) = Text.dropTrailing (· = '0') (fraction text) := by
  have hdot : '.' ∉ canonicalWhole (whole text) := by
    intro h
    rcases mem_of_mem_canonicalWhole h with h | h
    · simp at h
    · simpa using List.all_eq_true.1 List.all_takeWhile _ h
  rw [canonical_eq_joined]
  exact parts_joined hdot _

/-- A leading zero is only kept where no other digit is left. -/
theorem canonicalWhole_eq_zero {digits : List Char}
    (h : (canonicalWhole digits).head? = some '0') : canonicalWhole digits = ['0'] := by
  unfold canonicalWhole at h ⊢
  have hhead := Scan.head?_dropWhile (· = '0') digits
  generalize digits.dropWhile (· = '0') = trimmed at h hhead ⊢
  cases trimmed with
  | nil => rfl
  | cons c trimmed => exact absurd (hhead '0' h) (by decide)

/-- What is left after trimming does not end in what has been trimmed. -/
theorem getLast?_dropTrailing (p : Char → Bool) (text : List Char) :
    ∀ c ∈ (Text.dropTrailing p text).getLast?, p c = false := by
  rw [Text.dropTrailing, List.getLast?_reverse]
  exact Scan.head?_dropWhile p text.reverse

/-- **The canonical form is the shortest one.** -/
theorem shortest_canonical {text : List Char} (h : IsDigits text) :
    IsShortest (canonical text) := by
  obtain ⟨hwhole, hfraction⟩ := parts_canonical text
  obtain ⟨-, hbefore, hbehind⟩ := h.parts
  have hne : canonical text ≠ [] := by
    intro hnil
    refine canonicalWhole_ne_nil (whole text) ?_
    rw [← hwhole, hnil]
    rfl
  have hdigits : IsDigits (canonical text) := by
    refine ⟨hne, _, _, canonical_eq_joined text, fun c hc => ?_, fun c hc => ?_⟩
    · rcases mem_of_mem_canonicalWhole hc with rfl | hc
      · rfl
      · exact hbefore c hc
    · exact hbehind c ((Text.dropTrailing_isPrefix _ _).subset hc)
  refine ⟨hdigits, ?_, ?_, ?_, hdigits.getLast?_ne⟩
  · rw [hwhole]
    exact canonicalWhole_ne_nil _
  · rw [hwhole]
    exact canonicalWhole_eq_zero
  · rw [hfraction]
    intro hlast
    simpa using getLast?_dropTrailing _ _ '0' hlast

/-- **Trimming does not change the number.** -/
theorem rational_canonical (text : List Char) :
    rational (canonical text) = rational text := by
  obtain ⟨hwhole, hfraction⟩ := parts_canonical text
  rw [rational, hwhole, hfraction, natural_canonicalWhole, natural_dropTrailing, rational]

/-- The integer that the digits of a number text are, read without the point. -/
def numerator (text : List Char) : Nat :=
  natural (whole text ++ fraction text)

theorem rational_eq (text : List Char) :
    rational text = numerator text / 10 ^ (fraction text).length := by
  rw [rational, numerator, natural_append]
  push_cast
  field_simp

/-- Two fractions over powers of ten in lowest terms. -/
theorem eq_of_div_pow_eq {m m' n n' : Nat} (h : (m : ℚ) / 10 ^ n = m' / 10 ^ n')
    (hlow : n = 0 ∨ m % 10 ≠ 0) (hlow' : n' = 0 ∨ m' % 10 ≠ 0) : m = m' ∧ n = n' := by
  have hcross : m * 10 ^ n' = m' * 10 ^ n := by
    rw [div_eq_div_iff (by norm_num) (by norm_num)] at h
    exact_mod_cast h
  -- A larger power of ten on one side would divide its numerator.
  have hle {a b i j : Nat} (hab : a * 10 ^ j = b * 10 ^ i) (hb : j = 0 ∨ b % 10 ≠ 0) :
      j ≤ i := by
    by_contra hlt
    obtain ⟨k, rfl⟩ := Nat.exists_eq_add_of_lt (Nat.lt_of_not_le hlt)
    have hdvd : b = a * 10 ^ k * 10 := by
      refine Nat.eq_of_mul_eq_mul_right (Nat.pow_pos (n := i) (by decide : 0 < 10)) ?_
      rw [← hab]
      ring
    omega
  obtain rfl : n = n' := Nat.le_antisymm (hle hcross.symm hlow) (hle hcross hlow')
  exact ⟨Nat.eq_of_mul_eq_mul_right (Nat.pow_pos (by decide)) hcross, rfl⟩

namespace IsShortest

variable {text text' : List Char}

/-- The last digit of a fraction is not zero. -/
theorem lowest (h : IsShortest text) :
    (fraction text).length = 0 ∨ numerator text % 10 ≠ 0 := by
  obtain ⟨-, -, hbehind⟩ := h.isDigits.parts
  have htrailing := h.trailing
  rw [numerator]
  generalize fraction text = digits at hbehind htrailing ⊢
  induction digits using List.reverseRecOn with
  | nil => exact .inl rfl
  | append_singleton digits c _ =>
    obtain ⟨hlt, hchar⟩ := natural_digit (hbehind c (by simp))
    refine .inr fun hzero => htrailing ?_
    rw [← List.append_assoc, natural_concat] at hzero
    have hc : natural [c] = 0 := by omega
    rw [List.getLast?_append, List.getLast?_singleton, ← hchar, hc]
    rfl

/-- The integer part and the fraction, written from the digits read without the point. -/
theorem written (h : IsShortest text) :
    Nat.toDigits 10 (numerator text / Decimal.unit (fraction text).length) = whole text ∧
      (fraction text ≠ [] → Decimal.padded (fraction text).length
        (numerator text % Decimal.unit (fraction text).length) = fraction text) := by
  obtain ⟨-, hbefore, hbehind⟩ := h.isDigits.parts
  have hlt := natural_lt hbehind
  have hpos : 0 < 10 ^ (fraction text).length := Nat.pow_pos (by decide)
  have hdiv : numerator text / 10 ^ (fraction text).length = natural (whole text) := by
    rw [numerator, natural_append, Nat.add_comm, Nat.add_mul_div_right _ _ hpos,
      Nat.div_eq_of_lt hlt, Nat.zero_add]
  have hmod : numerator text % 10 ^ (fraction text).length = natural (fraction text) := by
    rw [numerator, natural_append, Nat.add_comm, Nat.add_mul_mod_self_right, Nat.mod_eq_of_lt hlt]
  constructor
  · exact (congrArg _ hdiv).trans (toDigits_natural hbefore h.whole_ne_nil h.leading)
  · intro hne
    exact (congrArg _ hmod).trans (padded_natural hbehind hne)

/-- **A number has one shortest form.** -/
theorem unique (h : IsShortest text) (h' : IsShortest text')
    (heq : rational text = rational text') : text = text' := by
  rw [rational_eq, rational_eq] at heq
  obtain ⟨hnumerator, hlength⟩ := eq_of_div_pow_eq heq h.lowest h'.lowest
  have hwhole : whole text = whole text' := by
    rw [← h.written.1, ← h'.written.1, hnumerator, hlength]
  have hfraction : fraction text = fraction text' := by
    by_cases hnil : fraction text = []
    · rw [hnil] at hlength ⊢
      exact (List.length_eq_zero_iff.1 hlength.symm).symm
    · have hnil' : fraction text' ≠ [] := by
        intro hnil'
        rw [hnil'] at hlength
        exact hnil (List.length_eq_zero_iff.1 hlength)
      rw [← h.written.2 hnil, ← h'.written.2 hnil', hnumerator, hlength]
  rw [h.isDigits.parts.1, h'.isDigits.parts.1, hwhole, hfraction]

end IsShortest

end Number

/-! ### Decimals -/

namespace Decimal

open Number

variable {text : List Char}

theorem readUnsigned?_of_isDigits (h : IsDigits text) :
    readUnsigned? text = some (numerator text, (fraction text).length) := by
  obtain ⟨-, hbefore, hbehind⟩ := h.parts
  have hall : (whole text ++ fraction text).all Char.isDigit = true := by
    rw [List.all_append, List.all_eq_true.2 hbefore, List.all_eq_true.2 hbehind]
    rfl
  exact if_pos hall

/-- A decimal with the digits of a shortest form is written as that form. -/
theorem chars_eq_of_shortest (h : IsShortest text) {d : Decimal} (hsign : d.negative = false)
    (hmantissa : d.mantissa = numerator text) (hscale : d.scale = (fraction text).length) :
    d.chars = text := by
  obtain ⟨hwhole, hfraction⟩ := h.written
  have htext := h.isDigits.parts.1
  rw [chars, hsign, hmantissa, hscale, hwhole, if_neg Bool.false_ne_true, List.nil_append]
  by_cases hnil : fraction text = []
  · rw [hnil] at htext ⊢
    exact (List.append_nil _).trans htext.symm
  · have hlength : (fraction text).length ≠ 0 := fun hzero => hnil (List.length_eq_zero_iff.1 hzero)
    rw [if_neg hlength, hfraction hnil]
    obtain ⟨c, rest, hcons⟩ := List.exists_cons_of_ne_nil hnil
    rw [hcons] at htext ⊢
    exact htext.symm

/-- **Only the bounds count.**  A shortest form is read as a decimal whenever there is one with its
digits; that the decimal has to be written in the same way rules none out. -/
theorem ofChars?_of_shortest (h : IsShortest text) :
    ofChars? text = ofParts? false (numerator text) (fraction text).length := by
  have hsign : text.head? ≠ some '-' := by
    intro hhead
    have hbegins := h.isDigits.beginsNumber
    rw [List.eq_cons_of_mem_head? hhead, Scan.beginsNumber_cons (by decide)] at hbegins
    exact absurd hbegins (by decide)
  simp only [ofChars?, hsign, decide_false, if_false,
    readUnsigned?_of_isDigits h.isDigits, Option.bind_eq_bind, Option.bind_some]
  cases hparts : ofParts? false (numerator text) (fraction text).length with
  | none => rfl
  | some d =>
    rw [ofParts?] at hparts
    split at hparts
    · obtain rfl := Option.some.inj hparts
      exact if_pos (chars_eq_of_shortest h rfl rfl rfl)
    · cases hparts

theorem ofParts?_eq_some_iff {negative : Bool} {m n : Nat} {d : Decimal} :
    ofParts? negative m n = some d ↔ d.negative = negative ∧ d.mantissa = m ∧ d.scale = n := by
  obtain ⟨negative', m', n', hlt, hle, hlowest, hzero⟩ := d
  rw [ofParts?]
  split
  · simp [eq_comm]
  · next hnot =>
    refine iff_of_false nofun ?_
    rintro ⟨rfl, rfl, rfl⟩
    exact hnot ⟨hlt, hle, hlowest, hzero⟩

end Decimal

namespace Number

variable {text : List Char}

/-- **Which decimal a number is:** the one with the digits of its shortest form. -/
theorem ofChars_eq_decimal_iff (h : IsDigits text) {d : Decimal} :
    ofChars text = .decimal d ↔ d.negative = false ∧ d.mantissa = numerator (canonical text) ∧
      d.scale = (fraction (canonical text)).length := by
  rw [← Decimal.ofParts?_eq_some_iff, ← Decimal.ofChars?_of_shortest (shortest_canonical h),
    ofChars]
  cases Decimal.ofChars? (canonical text) <;> simp

/-- **When a number is a decimal.** -/
theorem exists_ofChars_eq_decimal_iff (h : IsDigits text) :
    (∃ d, ofChars text = .decimal d) ↔
      numerator (canonical text) < 2 ^ 96 ∧ (fraction (canonical text)).length ≤ 28 := by
  have hbound : mantissaBound = 2 ^ 96 := by decide
  rw [← hbound]
  simp only [ofChars_eq_decimal_iff h]
  constructor
  · rintro ⟨d, -, hmantissa, hscale⟩
    exact ⟨hmantissa ▸ d.mantissa_lt, hscale ▸ d.scale_le⟩
  · rintro ⟨hlt, hle⟩
    exact ⟨⟨false, _, _, hlt, hle, (shortest_canonical h).lowest, fun _ => rfl⟩, rfl, rfl, rfl⟩

/-- **Numbers are exact.**  The text of a number denotes what the text that it was read from
denotes, in the shortest form, and is read back as the same number.  The number is a decimal if its
digits are in the bounds of one, and then the decimal has the value that the text denotes.  Two
texts stand for the same number if and only if they denote the same. -/
theorem ofChars_exact (h : IsDigits text) :
    let shown := (ofChars text).text.toList
    rational shown = rational text ∧ IsShortest shown ∧ ofChars shown = ofChars text ∧
    ((∃ d, ofChars text = .decimal d) ↔ numerator shown < 2 ^ 96 ∧ (fraction shown).length ≤ 28) ∧
    (∀ d, ofChars text = .decimal d →
      d.negative = false ∧ (d.mantissa : ℚ) / 10 ^ d.scale = rational text) ∧
    ∀ text', IsDigits text' →
      (ofChars text' = ofChars text ↔ rational text' = rational text) := by
  have hshown (text : List Char) : (ofChars text).text.toList = canonical text := by
    rw [text_ofChars, String.toList_ofList]
  simp only [hshown]
  refine ⟨rational_canonical text, shortest_canonical h, ofChars_canonical text,
    exists_ofChars_eq_decimal_iff h, fun d hd => ?_, fun text' h' => ⟨fun heq => ?_, fun heq => ?_⟩⟩
  · obtain ⟨hsign, hmantissa, hscale⟩ := (ofChars_eq_decimal_iff h).1 hd
    rw [hmantissa, hscale, ← rational_eq, rational_canonical]
    exact ⟨hsign, rfl⟩
  · rw [← rational_canonical text', ← hshown, heq, hshown, rational_canonical]
  · have hsame : canonical text' = canonical text := by
      refine (shortest_canonical h').unique (shortest_canonical h) ?_
      rw [rational_canonical, rational_canonical, heq]
    rw [← ofChars_canonical text', hsame, ofChars_canonical]

/-- The first number that is too large for a decimal, with zeros around it. -/
theorem ofChars_exact_boundary :
    IsDigits "079228162514264337593543950336.00".toList ∧
    IsDigits "79228162514264337593543950336".toList ∧
    (¬∃ d, ofChars "079228162514264337593543950336.00".toList = .decimal d) ∧
    ofChars "79228162514264337593543950336".toList =
      ofChars "079228162514264337593543950336.00".toList := by
  have hpadded : IsDigits "079228162514264337593543950336.00".toList :=
    ⟨by decide, "079228162514264337593543950336".toList, "00".toList, rfl,
      List.all_eq_true.1 (by decide), List.all_eq_true.1 (by decide)⟩
  have hplain : IsDigits "79228162514264337593543950336".toList :=
    ⟨by decide, "79228162514264337593543950336".toList, [], rfl,
      List.all_eq_true.1 (by decide), nofun⟩
  obtain ⟨-, -, -, hdecimal, -, hsame⟩ := ofChars_exact hpadded
  refine ⟨hpadded, hplain, ?_, (hsame _ hplain).2 ?_⟩
  · rw [hdecimal]
    decide +kernel
  · decide +kernel

end Number

end Binding
