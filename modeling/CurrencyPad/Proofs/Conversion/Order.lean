/-
CurrencyPad.Proofs.Conversion.Order — a larger amount is worth no less.

Both steps of a conversion round, at a scale that depends on the size of
the number, and neither puts two different numbers in the wrong order
(`Decimal.Rounds.toRat_le_of_lt`). A debt is converted as the amount of
the same size is, so conversion is an odd function too, also where it
overflows and where there are no rates to use.

One number can be written with and without zeros at its end. The two
spellings are converted alike (`toRat_convert_congr`), unless the quotient
by the source's rate lies half way between two decimals and the rate is a
long one (`UnsettledConversion`). Then the zeros decide between the two,
and the amounts that are converted are not in order
(`not_convert_monotone`).
-/
import CurrencyPad.Proofs.Conversion.Accuracy
import CurrencyPad.Proofs.Decimal.Order

namespace CurrencyPad

open Decimal

/-! ## 1. Conversions that do not overflow -/

/-- Nothing has to be computed, or the source's rate is above zero, the target's rate is
not below it, and neither the quotient nor the product overflows. -/
def InRange (amount : Decimal) (source target : Currency) : Prop :=
  source.code = target.code ∨
    ∃ s t q r, source.rate = some s ∧ target.rate = some t ∧ 0 < s.toRat ∧ 0 ≤ t.toRat ∧
      amount.div? s = some q ∧ q.mul? t = some r

/-- The quotient by the source's rate depends on how the amount is written. -/
def UnsettledConversion (amount : Decimal) (source target : Currency) : Prop :=
  source.code ≠ target.code ∧ ∃ s, source.rate = some s ∧ Unsettled amount s

variable {a b : Decimal} {source target : Currency}

/-! ## 2. The spelling of the amount -/

theorem toRat_getD (r : Option Decimal) (d : Decimal) :
    (r.getD d).toRat = (r.map toRat).getD d.toRat := by
  cases r <;> rfl

/-- **A settled conversion** depends on the number that is converted, not on its spelling. -/
theorem toRat_convert_congr (h : a.toRat = b.toRat) (ha : ¬UnsettledConversion a source target) :
    (convert a source target).toRat = (convert b source target).toRat := by
  unfold convert
  split
  · exact h
  · rename_i hcodes
    split
    · rename_i s t hsource _
      split
      · have hquotient := map_toRat_div?_congr h fun hs => ha ⟨hcodes, s, hsource, hs⟩
        have hproduct (q q' : Decimal) (hq : q.toRat = q'.toRat) :
            (q.mul? t).map toRat = (q'.mul? t).map toRat := map_toRat_mul?_congr hq rfl
        rw [toRat_getD, toRat_getD]
        congr 1
        cases hq : a.div? s with
        | none =>
          have hq' : b.div? s = none := by simpa [hq] using hquotient.symm
          rw [hq']
        | some q =>
          obtain ⟨q', hq', heq⟩ : ∃ q', b.div? s = some q' ∧ q'.toRat = q.toRat := by
            simpa [hq] using hquotient.symm
          rw [hq']
          exact hproduct q q' heq.symm
      · rfl
    · rfl

/-! ## 3. Order and sign -/

theorem toRat_convert_le_of_lt (ha : InRange a source target) (hb : InRange b source target)
    (hlt : a.toRat < b.toRat) :
    (convert a source target).toRat ≤ (convert b source target).toRat := by
  by_cases hcodes : source.code = target.code
  · rw [convert, convert, if_pos hcodes, if_pos hcodes]
    exact hlt.le
  · obtain ⟨s, t, q, r, hsource, htarget, hs, ht, hq, hr⟩ := ha.resolve_left hcodes
    obtain ⟨s', t', q', r', hsource', htarget', -, -, hq', hr'⟩ := hb.resolve_left hcodes
    obtain rfl : s = s' := Option.some.inj (hsource.symm.trans hsource')
    obtain rfl : t = t' := Option.some.inj (htarget.symm.trans htarget')
    rw [convert_of_some hcodes hsource htarget hs hq hr,
      convert_of_some hcodes hsource htarget hs hq' hr']
    exact toRat_mul?_le (toRat_div?_le_of_lt hlt hs hq hq') ht hr hr'

/-- The opposite amount is converted to the opposite. -/
theorem convert_neg (a : Decimal) (source target : Currency) :
    convert (-a) source target = -convert a source target := by
  unfold convert
  split
  · rfl
  · split
    · split
      · rename_i s t _ _ _
        rw [div?_neg]
        cases a.div? s with
        | none => rfl
        | some q =>
          rw [Option.map_some, Option.bind_some, Option.bind_some, mul?_neg]
          cases q.mul? t <;> rfl
      · rfl
    · rfl

/-- **Conversion is monotone and odd.** Of two amounts whose conversions do not overflow the
larger one is never converted to less, and equal ones are converted to the same unless they
are two spellings of an unsettled amount. The opposite of any amount is converted to the
opposite, whatever the currencies. -/
theorem convert_monotone_and_odd (a b : Decimal) (source target : Currency) :
    (InRange a source target → InRange b source target → a.toRat ≤ b.toRat →
      (a.toRat = b.toRat → a = b ∨ ¬UnsettledConversion a source target) →
      (convert a source target).toRat ≤ (convert b source target).toRat) ∧
    convert (-a) source target = -convert a source target := by
  refine ⟨fun ha hb hle hsettled => ?_, convert_neg a source target⟩
  rcases hle.lt_or_eq with hlt | heq
  · exact toRat_convert_le_of_lt ha hb hlt
  · rcases hsettled heq with rfl | hsettled
    · exact le_rfl
    · exact le_of_eq (toRat_convert_congr heq hsettled)

def threeUnits : Currency := { code := "AAA", rate := Decimal.ofParts? 3 0 }

def longUnits : Currency := { code := "AAA", rate := Decimal.ofParts? 80000000000000000000000000 0 }

def oneUnit : Currency := { code := "BBB", rate := Decimal.ofParts? 1 0 }

/-- Of two neighbours the smaller one has room for 28 places after it was divided by three,
the larger one has room for 27. -/
theorem convert_monotone_and_odd_thirds :
    let a : Decimal := { coeff := 23768448754279301278063185100, scale := 27 }
    let b : Decimal := { coeff := 23768448754279301278063185101, scale := 27 }
    convert a threeUnits oneUnit = { coeff := 79228162514264337593543950333, scale := 28 } ∧
      convert b threeUnits oneUnit = { coeff := 7922816251426433759354395034, scale := 27 } ∧
      (convert a threeUnits oneUnit).toRat ≤ (convert b threeUnits oneUnit).toRat ∧
      convert (-a) threeUnits oneUnit = -convert a threeUnits oneUnit := by
  intro a b
  obtain ⟨hmonotone, hodd⟩ := convert_monotone_and_odd a b threeUnits oneUnit
  refine ⟨by decide +kernel, by decide +kernel, hmonotone (.inr ?_) (.inr ?_) ?_ ?_, hodd⟩
  · exact ⟨_, _, { coeff := 79228162514264337593543950333, scale := 28 },
      { coeff := 79228162514264337593543950333, scale := 28 }, rfl, rfl,
      by norm_num [toRat_eq], by norm_num [toRat_eq], by decide +kernel, by decide +kernel⟩
  · exact ⟨_, _, { coeff := 7922816251426433759354395034, scale := 27 },
      { coeff := 7922816251426433759354395034, scale := 27 }, rfl, rfl,
      by norm_num [toRat_eq], by norm_num [toRat_eq], by decide +kernel, by decide +kernel⟩
  · norm_num [a, b, toRat_eq]
  · norm_num [a, b, toRat_eq]

/-- With a zero after its point a number is converted to more than without it. -/
theorem not_convert_monotone :
    ¬∀ (a b : Decimal) (source target : Currency), InRange a source target →
      InRange b source target → a.toRat ≤ b.toRat →
      (convert a source target).toRat ≤ (convert b source target).toRat := by
  intro h
  have hle := h { coeff := 6338253001141147007483516050, scale := 1 }
    { coeff := 633825300114114700748351605, scale := 0 } longUnits oneUnit
    (.inr ⟨_, _, { coeff := 7922816251426433759354395063, scale := 27 },
      { coeff := 7922816251426433759354395063, scale := 27 }, rfl, rfl,
      by norm_num [toRat_eq], by norm_num [toRat_eq], by decide +kernel, by decide +kernel⟩)
    (.inr ⟨_, _, { coeff := 7922816251426433759354395062, scale := 27 },
      { coeff := 7922816251426433759354395062, scale := 27 }, rfl, rfl,
      by norm_num [toRat_eq], by norm_num [toRat_eq], by decide +kernel, by decide +kernel⟩)
    (by norm_num [toRat_eq])
  have hfirst : convert { coeff := 6338253001141147007483516050, scale := 1 } longUnits oneUnit
      = { coeff := 7922816251426433759354395063, scale := 27 } := by decide +kernel
  have hsecond : convert { coeff := 633825300114114700748351605, scale := 0 } longUnits oneUnit
      = { coeff := 7922816251426433759354395062, scale := 27 } := by decide +kernel
  rw [hfirst, hsecond] at hle
  norm_num [toRat_eq] at hle

end CurrencyPad
