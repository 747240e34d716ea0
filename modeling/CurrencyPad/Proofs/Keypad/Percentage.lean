/-
CurrencyPad.Proofs.Keypad.Percentage — what the percent key means.

The key reads the text after the last operator as a percentage, rewrites
the buffer as a plain expression and evaluates that. `MeansPercentage`
says what must come out, without the rewriting: which parts of the buffer
must have a value, and what is computed from them. That the key computes
just this, puts the result in the place of the buffer, and does nothing at
all when there is none, is `percentage_of_reachable`.

## How the proof goes

* The rewritten text is the left side with an operator and a rendered
  number after it. Its tokens are those of the left side with two more at
  the end (`Expression.evaluateChars_append`), for a rendered number reads
  as its normal decimal (`ofLiteral?_renderChars`).
* A sum or difference is thereby taken of the value of the left side
  (`Expression.tokensValue?_append`). Where the share is below zero the
  operator has been turned around and the share written without its sign,
  which comes to the same number.
* What is left to see is that the pieces are there: a percentage of a
  literal always exists (`exists_div?_hundred`) and is not below zero.
-/
import CurrencyPad.Proofs.Decimal.Quotient
import CurrencyPad.Proofs.Expression.Appending
import CurrencyPad.Proofs.Keypad.Announcing
import CurrencyPad.Proofs.Keypad.WellFormed

namespace CurrencyPad

open Operator (isOperatorChar)

/-! ## 1. The meaning of a percentage -/

namespace Buffer

/-- The text stands for `before`, an operator and `after`. The operator is the last one,
and it is not the first character. -/
structure SplitsAt (b before : List Char) (op : Operator) (after : List Char) : Prop where
  eq : b = before ++ op.toChar :: after
  before_ne_nil : before ≠ []
  last : ∀ c ∈ after, isOperatorChar c = false

/-- One hundredth. -/
def hundredth : Decimal := (Decimal.ofParts? 1 2).getD .zero

/-- What a percentage must be. -/
structure MeansPercentage (b : Buffer) (result : Option Decimal) : Prop where
  /-- Without an operator after the first character, it is a hundredth of the value. -/
  alone : (∀ c ∈ b.tail, isOperatorChar c = false) →
    result = (Token.ofChars? b).bind fun _ =>
      (Expression.evaluateChars b).bind (·.mul? hundredth)
  /-- Otherwise the left side must be made of tokens and have a value, and the right side
  must be a literal. -/
  undefined : ∀ before op after, SplitsAt b before op after →
    Token.ofChars? before = none ∨ Expression.evaluateChars before = none ∨
      Expression.literalChars? after = none → result = none
  /-- To a sum or difference the percentage is a share of the left side. -/
  share : ∀ before op after ts a x, SplitsAt b before op after →
    Token.ofChars? before = some ts → Expression.evaluateChars before = some a →
    Expression.literalChars? after = some x → op.bindsTighter = false →
      ∃ p, x.div? .hundred = some p ∧
        result.map Decimal.toRat = ((a.mul? p).bind (op.apply a)).map Decimal.toRat
  /-- To a product or quotient it is an operand like any other and takes part in the whole
  expression, in the spelling that it is rendered in. So the result is that with the percentage
  itself, except for a last product whose quotient by it is unsettled: there the last digit
  hangs on the zeros at the end of the divisor, and these are not rendered. -/
  factor : ∀ before op after ts a x, SplitsAt b before op after →
    Token.ofChars? before = some ts → Expression.evaluateChars before = some a →
    Expression.literalChars? after = some x → op.bindsTighter = true →
      ∃ p, x.div? .hundred = some p ∧
        result = Expression.tokensValue? (ts ++ [.operator op, .number p.normalize]) ∧
        ((op = .divide → ∀ t, Expression.lastProduct? ts = some t → ¬Decimal.Unsettled t p) →
          result.map Decimal.toRat =
            (Expression.tokensValue? (ts ++ [.operator op, .number p])).map Decimal.toRat)

/-! ## 2. Splitting -/

theorem splitAtOperator?_eq_none {cs : List Char} (h : ∀ c ∈ cs, isOperatorChar c = false) :
    splitAtOperator? cs = none := by
  induction cs with
  | nil => rfl
  | cons c r ih =>
    have hc : Operator.ofChar? c = none := by simpa [isOperatorChar] using h c (by simp)
    simp [splitAtOperator?, ih fun x hx => h x (by simp [hx]), hc]

theorem splitAtOperator?_append (before : List Char) (op : Operator) {after : List Char}
    (h : ∀ c ∈ after, isOperatorChar c = false) :
    splitAtOperator? (before ++ op.toChar :: after) = some (before, op, after) := by
  induction before with
  | nil => simp [splitAtOperator?, splitAtOperator?_eq_none h]
  | cons c r ih => simp [splitAtOperator?, ih]

theorem percentage?_alone {b : Buffer} (hne : b ≠ [])
    (h : ∀ c ∈ b.tail, isOperatorChar c = false) :
    b.percentage? = Expression.evaluateChars (b ++ percentSuffix) := by
  obtain ⟨c, r, rfl⟩ := List.exists_cons_of_ne_nil hne
  have hsplit : splitAtOperator? r = none := splitAtOperator?_eq_none h
  rw [percentage?, hsplit]

theorem percentage?_of_splitsAt {b before after : List Char} {op : Operator}
    (h : SplitsAt b before op after) :
    percentage? b =
      (Expression.evaluateChars before).bind fun a =>
        (Expression.literalChars? after).bind fun x =>
          (x.div? .hundred).bind fun p =>
            (percentOperand? a op p).bind fun o =>
              Expression.evaluateChars (before ++ o.1.toChar :: o.2.renderChars) := by
  obtain ⟨rfl, hne, hlast⟩ := h
  obtain ⟨c, r, rfl⟩ := List.exists_cons_of_ne_nil hne
  rw [List.cons_append, percentage?, splitAtOperator?_append r op hlast]
  rfl

end Buffer

/-! ## 3. The percentage and the share -/

namespace Decimal

theorem abs_toRat_lt (d : Decimal) : |d.toRat| < coeffBound := by
  have hcoeff : |(d.coeff : Rat)| < coeffBound := lt_coeffBound_iff.mp d.coeff_lt
  rw [toRat_eq, abs_div_ten_pow]
  exact lt_of_le_of_lt (div_le_self (abs_nonneg _) (one_le_pow₀ (by norm_num))) hcoeff

/-- A hundredth of a number that is not below zero exists, and is not below zero. -/
theorem exists_div?_hundred {x : Decimal} (hx : x.isNegative = false) :
    ∃ p, x.div? hundred = some p ∧ p.isNegative = false := by
  have hhundred : hundred.toRat = 100 := by simp [toRat_eq, hundred]
  have hxpos : 0 ≤ x.toRat := nonneg_of_not_isNegative hx
  have hlt : |x.toRat / hundred.toRat| < 10 ^ maxScale := by
    rw [hhundred, abs_div, abs_of_pos (by norm_num : (0 : Rat) < 100), div_lt_iff₀ (by norm_num)]
    refine x.abs_toRat_lt.trans ?_
    norm_num [coeffBound, maxScale]
  obtain ⟨p, scale, hp, hrounds⟩ :=
    (isRounding_div? x (b := hundred) (by rw [hhundred]; norm_num)).exists_of_lt hlt
  refine ⟨p, hp, ?_⟩
  rw [← Bool.not_eq_true, isNegative_iff, not_lt]
  exact hrounds.nonneg (div_nonneg hxpos (by rw [hhundred]; norm_num))

end Decimal

namespace Buffer

open Expression

/-! ## 4. Without an operator -/

theorem tidy_of_isKeyChar {cs : List Char} (h : ∀ c ∈ cs, isKeyChar c = true) : Tidy cs where
  chars c hc := (isExpressionChar_of_isKeyChar (h c hc)).1
  head hc := (isExpressionChar_of_isKeyChar (h ' ' (List.mem_of_mem_head? hc))).2 rfl
  last hc := (isExpressionChar_of_isKeyChar (h ' ' (List.mem_of_getLast? hc))).2 rfl

theorem isNumeralChar_of_isKeyChar {c : Char} (h : isKeyChar c = true)
    (hop : isOperatorChar c = false) : Decimal.isNumeralChar c = true := by
  simpa [isKeyChar, hop, Decimal.isNumeralChar] using h

/-- A text whose first character alone may be an operator is a number, or begins with an
operator. -/
theorem tokens_alone {c : Char} {r : List Char} {ts : List Token} (hc : isKeyChar c = true)
    (hr : ∀ x ∈ r, Decimal.isNumeralChar x = true) (hts : Token.ofChars? (c :: r) = some ts) :
    (∃ d, ts = [.number d]) ∨ ∃ op rest, ts = .operator op :: rest := by
  have hnumber {run : List Char} {ts : List Token}
      (h : Token.ofLexemes? [.digits run] = some ts) : ∃ d, ts = [.number d] := by
    obtain ⟨d, ts', hlit, hts', rfl⟩ := ofLexemes?_digits_eq_some h
    obtain rfl : [] = ts' := by simpa [Token.ofLexemes?] using hts'
    exact ⟨d, rfl⟩
  have hoperator {ls : List Lexeme} (h : Token.ofLexemes? (.mark c :: ls) = some ts) :
      ∃ op rest, ts = .operator op :: rest := by
    obtain ⟨op, ts', -, -, rfl⟩ := ofLexemes?_mark_eq_some h
    exact ⟨op, ts', rfl⟩
  cases hop : isOperatorChar c with
  | false =>
    have hall : ∀ x ∈ c :: r, Decimal.isNumeralChar x = true := by
      simpa [isNumeralChar_of_isKeyChar hc hop] using hr
    rw [Token.ofChars?, Lexeme.scan_numeral (List.cons_ne_nil c r) hall] at hts
    exact .inl (hnumber hts)
  | true =>
    obtain ⟨op, rfl⟩ := Operator.isOperatorChar_iff.mp hop
    rw [Token.ofChars?, Lexeme.scan_operator] at hts
    cases hempty : r with
    | nil =>
      rw [hempty] at hts
      cases op <;> exact .inr (hoperator hts)
    | cons x r' =>
      rw [Lexeme.scan_numeral (by simp [hempty]) hr] at hts
      cases op with
      | subtract =>
        -- the sign of the number
        obtain ⟨d, hd, hts⟩ := Option.bind_eq_some_iff.mp hts
        obtain rfl : [.number (-d)] = ts := by simpa [Token.ofLexemes?] using hts
        exact .inl ⟨-d, rfl⟩
      | add => exact .inr (hoperator hts)
      | multiply => exact .inr (hoperator hts)
      | divide => exact .inr (hoperator hts)

/-- Such a text ends in a numeral, unless it is an operator alone. -/
theorem exists_getLast?_numeral {c : Char} {r : List Char} (hc : isKeyChar c = true)
    (hr : ∀ x ∈ r, Decimal.isNumeralChar x = true) (hop : ∀ op : Operator, c :: r ≠ [op.toChar]) :
    ∃ x, (c :: r).getLast? = some x ∧ Decimal.isNumeralChar x = true := by
  cases hempty : r with
  | nil =>
    refine ⟨c, rfl, isNumeralChar_of_isKeyChar hc ?_⟩
    by_contra hchar
    obtain ⟨op, rfl⟩ := Operator.isOperatorChar_iff.mp (by simpa using hchar)
    exact hop op (by rw [hempty])
  | cons d r' =>
    refine ⟨(d :: r').getLast (by simp), by simp [List.getLast?_eq_some_getLast], hr _ ?_⟩
    rw [hempty]
    exact List.getLast_mem _

/-- **A hundredth of the value**, when no operator comes after the first character. -/
theorem percentage?_of_alone {b : Buffer} (hb : WellFormed b)
    (h : ∀ c ∈ b.tail, isOperatorChar c = false) :
    b.percentage? = (Token.ofChars? b).bind fun _ => (evaluateChars b).bind (·.mul? hundredth) := by
  have hchars : ∀ c ∈ b, isExpressionChar c = true ∧ c ≠ ' ' :=
    fun c hc => isExpressionChar_of_isKeyChar (hb.chars c hc)
  have hread : Decimal.ofLiteral? "0.01".toList = some hundredth := by decide +kernel
  have happend := evaluateChars_append hb.ne_nil hchars .multiply hread ⟨'1', rfl, rfl⟩
  have hsuffix : b ++ percentSuffix = b ++ Operator.toChar .multiply :: "0.01".toList := rfl
  rw [percentage?_alone hb.ne_nil h, hsuffix, happend]
  cases hts : Token.ofChars? b with
  | none => rfl
  | some ts =>
    simp only [Option.bind_some]
    obtain ⟨c, r, rfl⟩ := List.exists_cons_of_ne_nil hb.ne_nil
    have hr : ∀ x ∈ r, Decimal.isNumeralChar x = true := fun x hx =>
      isNumeralChar_of_isKeyChar (hb.chars x (by simp [hx])) (h x hx)
    have htidy := tidy_of_isKeyChar hb.chars
    rcases tokens_alone (hb.chars c (by simp)) hr hts with ⟨d, rfl⟩ | ⟨op, rest, rfl⟩
    · -- a sign alone is no number
      have hlast : ∃ x, (c :: r).getLast? = some x ∧ Decimal.isNumeralChar x = true := by
        refine exists_getLast?_numeral (hb.chars c (by simp)) hr fun op hop => ?_
        obtain ⟨rfl, rfl⟩ : c = op.toChar ∧ r = [] := by simpa using hop
        cases op <;> cases hts
      rw [evaluateChars_of_tidy htidy hlast hts, tokensValue?_number]
      exact tokensValue?_operator d .multiply hundredth
    · have hnone : evaluateChars (c :: r) = none := by
        by_cases hsign : ∃ op : Operator, c :: r = [op.toChar]
        · obtain ⟨op', hop'⟩ := hsign
          rw [hop']
          cases op' <;> decide +kernel
        · have hlast := exists_getLast?_numeral (hb.chars c (by simp)) hr
            fun op' hop' => hsign ⟨op', hop'⟩
          exact evaluateChars_of_tidy htidy hlast hts
      rw [hnone]
      rfl

/-! ## 5. After an operator -/

theorem SplitsAt.keys {b before after : List Char} {op : Operator}
    (h : SplitsAt b before op after) (hb : WellFormed b) : ∀ c ∈ before, isKeyChar c = true :=
  fun c hc => hb.chars c (by simp [h.eq, hc])

/-- What stands before an operator ends in a numeral. -/
theorem SplitsAt.exists_getLast? {b before after : List Char} {op : Operator}
    (h : SplitsAt b before op after) (hb : WellFormed b) :
    ∃ c, before.getLast? = some c ∧ Decimal.isNumeralChar c = true := by
  have hlast := List.getLast?_eq_some_getLast h.before_ne_nil
  refine ⟨_, hlast, isNumeralChar_of_isKeyChar (h.keys hb _ (List.getLast_mem _)) ?_⟩
  have hchain := hb.operators
  rw [h.eq, List.isChain_append] at hchain
  by_contra hop
  exact hchain.2.2 _ hlast _ rfl ⟨by simpa using hop, Operator.isOperatorChar_toChar op⟩

theorem SplitsAt.evaluateChars_before {b before after : List Char} {op : Operator}
    {ts : List Token} (h : SplitsAt b before op after) (hb : WellFormed b)
    (hts : Token.ofChars? before = some ts) : evaluateChars before = tokensValue? ts :=
  evaluateChars_of_tidy (tidy_of_isKeyChar (h.keys hb)) (h.exists_getLast? hb) hts

/-- The rewritten text has the tokens of the left side, and two more. -/
theorem SplitsAt.evaluateChars_rewritten {b before after : List Char} {op : Operator}
    (h : SplitsAt b before op after) (hb : WellFormed b) (op' : Operator) {o : Decimal}
    (ho : o.isNegative = false) :
    evaluateChars (before ++ op'.toChar :: o.renderChars) =
      (Token.ofChars? before).bind fun ts =>
        tokensValue? (ts ++ [.operator op', .number o.normalize]) :=
  evaluateChars_append h.before_ne_nil
    (fun c hc => isExpressionChar_of_isKeyChar (h.keys hb c hc)) op'
    (Decimal.ofLiteral?_renderChars ho) o.normalize.exists_getLast?_toChars

theorem isNegative_of_percentOperand? {a p : Decimal} {op : Operator} {o : Operator × Decimal}
    (hp : p.isNegative = false) (h : percentOperand? a op p = some o) :
    o.2.isNegative = false := by
  have hchosen (share : Decimal) (flipped op : Operator) :
      (if share.isNegative then (flipped, share.abs) else (op, share)).2.isNegative = false := by
    cases hneg : share.isNegative with
    | true => simp [Decimal.isNegative, Decimal.abs]
    | false => simpa using hneg
  cases op with
  | add =>
    obtain ⟨share, -, rfl⟩ := Option.map_eq_some_iff.mp h
    exact hchosen share _ _
  | subtract =>
    obtain ⟨share, -, rfl⟩ := Option.map_eq_some_iff.mp h
    exact hchosen share _ _
  | multiply => obtain rfl := Option.some.inj h; exact hp
  | divide => obtain rfl := Option.some.inj h; exact hp

/-- What stands for a sum or difference is one of them. -/
theorem bindsTighter_of_percentOperand? {a p : Decimal} {op : Operator} {o : Operator × Decimal}
    (hop : op.bindsTighter = false) (h : percentOperand? a op p = some o) :
    o.1.bindsTighter = false := by
  cases op with
  | add =>
    obtain ⟨share, -, rfl⟩ := Option.map_eq_some_iff.mp h
    split <;> rfl
  | subtract =>
    obtain ⟨share, -, rfl⟩ := Option.map_eq_some_iff.mp h
    split <;> rfl
  | multiply => exact absurd hop (by decide)
  | divide => exact absurd hop (by decide)

/-- The operator and operand that stand for a share come to that share. -/
theorem percentOperand?_share {op : Operator} (hop : op.bindsTighter = false) (a p : Decimal) :
    ((percentOperand? a op p).bind fun o => o.1.apply a o.2.normalize).map Decimal.toRat =
      ((a.mul? p).bind (op.apply a)).map Decimal.toRat := by
  have hflip {share : Decimal} (h : share.isNegative = true) :
      share.abs.normalize.toRat = -share.toRat := by
    rw [Decimal.toRat_normalize, Decimal.toRat_abs, abs_of_neg (Decimal.isNegative_iff.mp h)]
  cases op with
  | add =>
    simp only [percentOperand?, Option.bind_map]
    cases a.mul? p with
    | none => rfl
    | some share =>
      cases hneg : share.isNegative with
      | true => simpa [hneg, Operator.apply] using Decimal.map_toRat_sub?_eq a (hflip hneg)
      | false =>
        simpa [hneg, Operator.apply] using
          Decimal.map_toRat_add?_congr (rfl : a.toRat = a.toRat) share.toRat_normalize
  | subtract =>
    simp only [percentOperand?, Option.bind_map]
    cases a.mul? p with
    | none => rfl
    | some share =>
      cases hneg : share.isNegative with
      | true =>
        have hopposite : share.toRat = -share.abs.normalize.toRat := by
          rw [hflip hneg, neg_neg]
        simpa [hneg, Operator.apply] using (Decimal.map_toRat_sub?_eq a hopposite).symm
      | false =>
        simpa [hneg, Operator.apply] using
          Decimal.map_toRat_sub?_congr (rfl : a.toRat = a.toRat) share.toRat_normalize
  | multiply => exact absurd hop (by decide)
  | divide => exact absurd hop (by decide)

/-- **The percentage of every well-formed buffer** is what it must be. -/
theorem meansPercentage {b : Buffer} (hb : WellFormed b) : MeansPercentage b b.percentage? where
  alone := percentage?_of_alone hb
  undefined := by
    intro before op after hsplit hmissing
    rw [percentage?_of_splitsAt hsplit]
    rcases hmissing with hnone | hnone | hnone
    · -- the rewritten text cannot be cut into tokens either
      simp only [Option.bind_eq_none_iff]
      intro a _ x hx p hp o ho
      obtain ⟨p', hp', hsign⟩ :=
        Decimal.exists_div?_hundred (Decimal.unsigned_of_ofLiteral? hx).1
      obtain rfl : p' = p := Option.some.inj (hp'.symm.trans hp)
      rw [hsplit.evaluateChars_rewritten hb o.1 (isNegative_of_percentOperand? hsign ho), hnone]
      rfl
    · rw [hnone]
      rfl
    · simp [hnone]
  share := by
    intro before op after ts a x hsplit hts ha hx hop
    obtain ⟨p, hp, hsign⟩ := Decimal.exists_div?_hundred (Decimal.unsigned_of_ofLiteral? hx).1
    refine ⟨p, hp, ?_⟩
    have hvalue : tokensValue? ts = some a := (hsplit.evaluateChars_before hb hts).symm.trans ha
    rw [percentage?_of_splitsAt hsplit, ha, Option.bind_some, hx, Option.bind_some, hp,
      Option.bind_some, ← percentOperand?_share hop]
    congr 1
    refine Option.bind_congr fun o ho => ?_
    rw [hsplit.evaluateChars_rewritten hb o.1 (isNegative_of_percentOperand? hsign ho), hts,
      Option.bind_some, tokensValue?_append ts (bindsTighter_of_percentOperand? hop ho), hvalue,
      Option.bind_some]
  factor := by
    intro before op after ts a x hsplit hts ha hx hop
    obtain ⟨p, hp, hsign⟩ := Decimal.exists_div?_hundred (Decimal.unsigned_of_ofLiteral? hx).1
    have hresult : percentage? b = tokensValue? (ts ++ [.operator op, .number p.normalize]) := by
      have hoperand : percentOperand? a op p = some (op, p) := by
        cases op with
        | add => exact absurd hop (by decide)
        | subtract => exact absurd hop (by decide)
        | multiply => rfl
        | divide => rfl
      rw [percentage?_of_splitsAt hsplit, ha, Option.bind_some, hx, Option.bind_some, hp,
        Option.bind_some, hoperand, Option.bind_some, hsplit.evaluateChars_rewritten hb op hsign,
        hts, Option.bind_some]
    refine ⟨p, hp, hresult, fun hsettled => ?_⟩
    rw [hresult]
    refine map_toRat_tokensValue?_congr hop fun t ht => ?_
    cases op with
    | add => exact absurd hop (by decide)
    | subtract => exact absurd hop (by decide)
    | multiply => exact Decimal.map_toRat_mul?_congr rfl p.toRat_normalize
    | divide => exact Decimal.map_toRat_div?_normalize (hsettled rfl t ht)

end Buffer

/-! ## 6. The key -/

namespace Session

/-- **A percentage means what it says.** In every session that can be met the percentage
of the buffer is what it must be. The key puts it in the place of the buffer, as it is
rendered, and it is the value from then on. Where there is none, the key does nothing. -/
theorem percentage_of_reachable {s : Session} (h : s.Reachable) :
    Buffer.MeansPercentage s.buffer s.buffer.percentage? ∧
      ∀ a : Action, a.key? = some .percent →
        (∀ r, s.buffer.percentage? = some r →
          (s.act a).state.text = r.render ∧
            (s.act a).state.value.map Decimal.toRat = some r.toRat) ∧
        (s.buffer.percentage? = none → s.act a = s.unchanged) := by
  refine ⟨Buffer.meansPercentage h.wellFormed, fun a hkey => ⟨?_, ?_⟩⟩
  · intro r hr
    rw [act_of_key s hkey]
    have hstate : (s.press .percent).state = recompute { s with buffer := r.renderChars } := by
      simp only [press, percent, hr]
      rfl
    rw [hstate]
    refine ⟨rfl, ?_⟩
    change (Expression.evaluateChars r.renderChars).map Decimal.toRat = _
    rw [Decimal.renderChars, Expression.evaluateChars_toChars r.isNormal_normalize.unmarked,
      Option.map_some, r.toRat_normalize]
  · intro hnone
    rw [act_of_key s hkey]
    simp only [press, percent, hnone]

/-- A debt of fifty, with ten percent to be added to it. -/
def debt : Session := ({} : Session).run [.setBuffer "-50+10"]

/-- The debt grows: ten percent of it are below zero. -/
theorem percentage_of_debt :
    debt.buffer = "-50+10".toList ∧
      Buffer.MeansPercentage debt.buffer (some { coeff := -55, scale := 0 }) ∧
      (debt.act .percent).state.text = "-55" := by
  have hresult : debt.buffer.percentage? = some { coeff := -55, scale := 0 } := by
    decide +kernel
  have hreachable : debt.Reachable := Reachable.new.run _
  obtain ⟨hmeans, hkey⟩ := percentage_of_reachable hreachable
  refine ⟨by decide +kernel, hresult ▸ hmeans, ?_⟩
  rw [((hkey .percent rfl).1 _ hresult).1]
  decide +kernel

/-- A number with a zero after its point, to be divided by eighty percent with as many zeros as
there is room for. -/
def eightyPercentBelow : Session :=
  ({} : Session).run [.setBuffer "633825300114114700748351605.0/80.00000000000000000000000000"]

/-- The percentage is not divided by as it was computed: its zeros are not rendered, and the
quotient lies half way between two decimals. -/
theorem not_percentage_divides_as_computed :
    ¬∀ (s : Session) (before after : List Char) (ts : List Token) (a x p : Decimal),
      s.Reachable → Buffer.SplitsAt s.buffer before .divide after →
      Token.ofChars? before = some ts → Expression.evaluateChars before = some a →
      Expression.literalChars? after = some x → x.div? .hundred = some p →
      s.buffer.percentage?.map Decimal.toRat =
        (Expression.tokensValue? (ts ++ [.operator .divide, .number p])).map Decimal.toRat := by
  intro h
  have hbuffer : eightyPercentBelow.buffer =
      "633825300114114700748351605.0".toList ++ Operator.divide.toChar ::
        "80.00000000000000000000000000".toList := by decide +kernel
  have hnone : ("80.00000000000000000000000000".toList.all fun c => !isOperatorChar c) = true := by
    decide +kernel
  have hlast : ∀ c ∈ "80.00000000000000000000000000".toList, isOperatorChar c = false := by
    intro c hc
    simpa using List.all_eq_true.mp hnone c hc
  have hsame := h eightyPercentBelow _ _
    [.number { coeff := 6338253001141147007483516050, scale := 1 }]
    { coeff := 6338253001141147007483516050, scale := 1 }
    { coeff := 8000000000000000000000000000, scale := 26 }
    { coeff := 80000000000000000000000000, scale := 26 } (Reachable.new.run _)
    ⟨hbuffer, by decide, hlast⟩ (by decide +kernel) (by decide +kernel) (by decide +kernel)
    (by decide +kernel)
  revert hsame
  decide +kernel

/-- A product on the left comes first, a share of the whole left side after it. -/
example : Buffer.percentage? "100*2+10".toList = some { coeff := 220, scale := 0 } := by
  decide +kernel

end Session
end CurrencyPad
