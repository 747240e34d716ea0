/-
CurrencyPad.Proofs.Conversion.Accuracy — how far a converted amount is
from the exact one.

A conversion rounds twice: the quotient by the source's rate, and the
product of that with the target's rate. Numbers below `10 ^ k` leave room
for `28 - k` fraction digits, and the error of the quotient is multiplied
by the target's rate, so the result is off by at most half a unit of the
last of these digits, `t + 1` times (`convert_accurate`). Numbers of that
size are in range, so the conversion never falls back to zero.
-/
import CurrencyPad.Conversion
import CurrencyPad.Proofs.Decimal.Quotient

namespace CurrencyPad

open Decimal

theorem isPositive_iff {d : Decimal} : d.isPositive = true ↔ 0 < d.toRat := by
  rw [isPositive, decide_eq_true_iff, toRat_eq, lt_div_iff₀ (by positivity), zero_mul]
  exact_mod_cast Iff.rfl

/-- Between two codes with usable rates, a conversion that finds both its results
gives the second one. -/
theorem convert_of_some {amount s t q r : Decimal} {source target : Currency}
    (hcodes : source.code ≠ target.code) (hsource : source.rate = some s)
    (htarget : target.rate = some t) (hpos : 0 < s.toRat) (hq : amount.div? s = some q)
    (hr : q.mul? t = some r) : convert amount source target = r := by
  rw [convert, if_neg hcodes, hsource, htarget]
  simp [isPositive_iff.mpr hpos, hq, hr]

/-- The error of a first result is multiplied, that of the second is added. -/
theorem abs_sub_le_of_roundings {x y q r t e : Rat} (ht : 0 ≤ t) (hxy : y = x * t)
    (hq : |q - x| ≤ e) (hr : |r - q * t| ≤ e) : |r - y| ≤ (t + 1) * e := by
  have hfirst : |q * t - y| ≤ e * t := by
    rw [hxy, ← sub_mul, abs_mul, abs_of_nonneg ht]
    gcongr
  calc |r - y| ≤ |r - q * t| + |q * t - y| := abs_sub_le _ _ _
    _ ≤ e + e * t := by gcongr
    _ = (t + 1) * e := by ring

/-- **A conversion is accurate.** With different codes, a positive source rate and a
target rate that is not negative, and with numbers below `10 ^ k`, neither of the two
operations overflows, and the result is off by at most half a unit of the fraction digit
`28 - k`, taken `t + 1` times. -/
theorem convert_accurate {amount s t : Decimal} {source target : Currency} {k : Nat}
    (hcodes : source.code ≠ target.code) (hsource : source.rate = some s)
    (htarget : target.rate = some t) (hs : 0 < s.toRat) (ht : 0 ≤ t.toRat) (hk : k ≤ 28)
    (hquotient : |amount.toRat| / s.toRat < 10 ^ k)
    (hproduct : |amount.toRat| * t.toRat / s.toRat + t.toRat < 10 ^ k) :
    (∃ q r, amount.div? s = some q ∧ q.mul? t = some r ∧ convert amount source target = r) ∧
      |(convert amount source target).toRat - amount.toRat * t.toRat / s.toRat| ≤
        (t.toRat + 1) * (10 : Rat) ^ ((k : Int) - 28) / 2 := by
  have hkmax : k ≤ maxScale := hk
  have hrange : (10 : Rat) ^ k ≤ 10 ^ maxScale := pow_le_pow_right₀ (by norm_num) hkmax
  -- the quotient
  have hx : |amount.toRat / s.toRat| < 10 ^ k := by rwa [abs_div, abs_of_pos hs]
  obtain ⟨q, qscale, hq, hqrounds⟩ :=
    (isRounding_div? amount hs.ne').exists_of_lt (hx.trans_le hrange)
  have hqnear := hqrounds.abs_sub_le hkmax hx
  -- the product, which is hardly larger than the exact one
  have hqt : |q.toRat * t.toRat| < 10 ^ k := by
    have hunit : (1 : Rat) / 2 / 10 ^ (maxScale - k) ≤ 1 := by
      rw [div_le_one (by positivity)]
      exact le_trans (by norm_num) (one_le_pow₀ (by norm_num))
    have hqabs : |q.toRat| ≤ |amount.toRat| / s.toRat + 1 := by
      have := abs_sub_abs_le_abs_sub q.toRat (amount.toRat / s.toRat)
      rw [abs_div, abs_of_pos hs] at this
      linarith
    calc |q.toRat * t.toRat| = |q.toRat| * t.toRat := by rw [abs_mul, abs_of_nonneg ht]
      _ ≤ (|amount.toRat| / s.toRat + 1) * t.toRat := by gcongr
      _ = |amount.toRat| * t.toRat / s.toRat + t.toRat := by ring
      _ < 10 ^ k := hproduct
  obtain ⟨r, rscale, hr, hrrounds⟩ :=
    (isRounding_mul? q t).exists_of_lt (hqt.trans_le hrange)
  have hrnear := hrrounds.abs_sub_le hkmax hqt
  have hconvert := convert_of_some hcodes hsource htarget hs hq hr
  refine ⟨⟨q, r, hq, hr, hconvert⟩, ?_⟩
  have hunit : (1 : Rat) / 2 / 10 ^ (maxScale - k) = (10 : Rat) ^ ((k : Int) - 28) / 2 := by
    rw [show (k : Int) - 28 = -((maxScale - k : Nat) : Int) by simp only [maxScale]; omega,
      zpow_neg, zpow_natCast]
    ring
  rw [hunit] at hqnear hrnear
  rw [hconvert]
  refine (abs_sub_le_of_roundings ht ?_ hqnear hrnear).trans_eq (by ring)
  ring

/-- The largest decimal. -/
def Decimal.largest : Decimal := (ofParts? (coeffBound - 1) 0).getD zero

def eightUnits : Currency := { code := "AAA", rate := Decimal.ofParts? 8 0 }

def halfUnit : Currency := { code := "BBB", rate := Decimal.ofParts? 5 1 }

/-- The largest decimal divided by eight: there is room for the whole part alone, and the
result is off by a sixteenth. -/
theorem convert_accurate_largest :
    convert largest eightUnits halfUnit = { coeff := 49517601571415210995964968960, scale := 1 } ∧
      |(convert largest eightUnits halfUnit).toRat - largest.toRat * (1 / 2) / 8| ≤
        (1 / 2 + 1) * (10 : Rat) ^ ((28 : Nat) - 28 : Int) / 2 := by
  refine ⟨by decide +kernel, ?_⟩
  have hs : toRat { coeff := 8, scale := 0 } = 8 := by norm_num [toRat_eq]
  have ht : toRat { coeff := 5, scale := 1 } = 1 / 2 := by norm_num [toRat_eq]
  have hamount : largest.toRat = 79228162514264337593543950335 := by
    have hparts : largest.coeff = 79228162514264337593543950335 ∧ largest.scale = 0 := by
      decide +kernel
    rw [toRat_eq, hparts.1, hparts.2]
    norm_num
  have h := (@convert_accurate largest _ _ eightUnits halfUnit 28 (by decide) rfl rfl
    (by rw [hs]; norm_num) (by rw [ht]; norm_num) le_rfl
    (by rw [hs, hamount]; norm_num) (by rw [hs, ht, hamount]; norm_num)).2
  rwa [hs, ht] at h

end CurrencyPad
