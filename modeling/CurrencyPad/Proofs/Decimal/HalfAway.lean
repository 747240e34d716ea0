/-
CurrencyPad.Proofs.Decimal.HalfAway — rounding a half away from zero.

`RoundsAway x places r` says what it is to round `x` to a number of places
in this way, and determines `r` (`RoundsAway.unique`). `Decimal.roundTo`
does it for every decimal (`Decimal.roundsAway_roundTo`): what is rounded
off is shorter than what was there, so it fits.
-/
import CurrencyPad.Proofs.Decimal.HalfEven

namespace CurrencyPad

/-! ## 1. The rule -/

/-- A multiple of `10 ^ -places` nearest to `x`, of two the one further from zero. -/
structure RoundsAway (x : Rat) (places : Nat) (r : Rat) : Prop where
  multiple : Decimal.HasPlaces r places
  near : |r - x| ≤ 1 / 2 / 10 ^ places
  half : |r - x| = 1 / 2 / 10 ^ places → |x| < |r|

/-- What has no more places is not rounded. -/
theorem RoundsAway.eq_of_hasPlaces {x r : Rat} {places : Nat} (h : RoundsAway x places r)
    (hx : Decimal.HasPlaces x places) : r = x := by
  obtain ⟨c, rfl⟩ := h.multiple
  obtain ⟨m, rfl⟩ := hx
  have hnear := h.near
  rw [← sub_div, abs_div_ten_pow, div_le_div_iff_of_pos_right (by positivity)] at hnear
  rw [Decimal.eq_of_abs_sub_lt_one (c := c) (m := m) (by linarith)]

/-- A half of a unit lies at least this half away from zero. -/
theorem half_le_abs_of_tie {x : Rat} {c : Int} {places : Nat}
    (htie : |(c : Rat) / 10 ^ places - x| = 1 / 2 / 10 ^ places) :
    1 / 2 / 10 ^ places ≤ |x| := by
  have hunit : (0 : Rat) < 1 / 2 / 10 ^ places := by positivity
  have hodd (k : Int) (hk : k % 2 = 1) (hx : x = k * (1 / 2 / 10 ^ places)) :
      1 / 2 / 10 ^ places ≤ |x| := by
    have hone : (1 : Rat) ≤ |(k : Rat)| := by
      have : 1 ≤ |k| := Int.one_le_abs (by omega)
      exact_mod_cast this
    rw [hx, abs_mul, abs_of_pos hunit]
    exact le_mul_of_one_le_left hunit.le hone
  rcases (abs_eq hunit.le).mp htie with heq | heq
  · refine hodd (2 * c - 1) (by omega) ?_
    have hx : x = c / 10 ^ places - 1 / 2 / 10 ^ places := by linarith
    rw [hx]
    push_cast
    ring
  · refine hodd (2 * c + 1) (by omega) ?_
    have hx : x = c / 10 ^ places + 1 / 2 / 10 ^ places := by linarith
    rw [hx]
    push_cast
    ring

/-- Two roundings of a number lie on both sides of it, half a unit away. -/
theorem RoundsAway.tie_of_ne {x r r' : Rat} {places : Nat} (h : RoundsAway x places r)
    (h' : RoundsAway x places r') (hne : r ≠ r') :
    |r - x| = 1 / 2 / 10 ^ places ∧ |r' - x| = 1 / 2 / 10 ^ places ∧ r + r' = 2 * x := by
  obtain ⟨c, rfl⟩ := h.multiple
  obtain ⟨m, rfl⟩ := h'.multiple
  have hpow : (0 : Rat) < 10 ^ places := by positivity
  have hcm : c ≠ m := by
    rintro rfl
    exact hne rfl
  have hnear := h.near
  have hnear' := h'.near
  rw [abs_div_ten_pow_sub, div_le_div_iff_of_pos_right hpow] at hnear hnear'
  have hapart := Decimal.one_le_abs_sub_add_abs_sub hcm (x * 10 ^ places)
  have htie : |(c : Rat) - x * 10 ^ places| = 1 / 2 := by linarith
  have htie' : |(m : Rat) - x * 10 ^ places| = 1 / 2 := by linarith
  refine ⟨by rw [abs_div_ten_pow_sub, htie], by rw [abs_div_ten_pow_sub, htie'], ?_⟩
  have hsum : (c : Rat) + m = 2 * x * 10 ^ places := by
    rcases abs_eq_abs.mp (htie.trans htie'.symm) with heq | heq
    · exact absurd (by exact_mod_cast sub_left_inj.mp heq) hcm
    · linarith
  rw [← add_div, hsum, mul_div_cancel_right₀ _ hpow.ne']

/-- A number has one rounding: of two, half a unit away on both sides, one would be no further
from zero than the number is. -/
theorem RoundsAway.unique {x r r' : Rat} {places : Nat} (h : RoundsAway x places r)
    (h' : RoundsAway x places r') : r = r' := by
  by_contra hne
  obtain ⟨htie, htie', hsum⟩ := h.tie_of_ne h' hne
  obtain ⟨c, rfl⟩ := h.multiple
  have hfar := half_le_abs_of_tie htie
  have haway := h.half htie
  have haway' := h'.half htie'
  obtain ⟨hlow, hhigh⟩ := abs_le.mp htie.le
  obtain ⟨hlow', hhigh'⟩ := abs_le.mp htie'.le
  rcases le_total 0 x with hx | hx
  · rw [abs_of_nonneg hx] at hfar haway haway'
    rw [abs_of_nonneg (by linarith)] at haway haway'
    linarith
  · rw [abs_of_nonpos hx] at hfar haway haway'
    rw [abs_of_nonpos (by linarith)] at haway haway'
    linarith

theorem Rounding.awayFromZero_bounds {z : Rat} (hz : 0 ≤ z) :
    (0 : Rat) ≤ awayFromZero z ∧ z - 1 / 2 < awayFromZero z ∧
      (awayFromZero z : Rat) ≤ z + 1 / 2 := by
  rw [awayFromZero, if_pos hz]
  refine ⟨?_, ?_, Rat.floor_le _⟩
  · exact_mod_cast Rat.le_floor_iff.mpr (by push_cast; linarith)
  · have := Rat.lt_floor_add_one (z + 1 / 2)
    push_cast at this
    linarith

theorem Rounding.awayFromZero_neg (z : Rat) : awayFromZero (-z) = -awayFromZero z := by
  unfold awayFromZero
  rcases lt_trichotomy z 0 with hneg | rfl | hpos
  · rw [if_pos (by linarith), if_neg (by linarith), neg_neg]
  · decide +kernel
  · rw [if_neg (by linarith), if_pos hpos.le, neg_neg]

/-- No further than a half, and of a half away from zero. -/
theorem Rounding.abs_awayFromZero_sub (z : Rat) :
    |(awayFromZero z : Rat) - z| ≤ 1 / 2 ∧
      (|(awayFromZero z : Rat) - z| = 1 / 2 → |z| < |(awayFromZero z : Rat)|) := by
  have hnonneg {z : Rat} (hz : 0 ≤ z) : |(awayFromZero z : Rat) - z| ≤ 1 / 2 ∧
      (|(awayFromZero z : Rat) - z| = 1 / 2 → |z| < |(awayFromZero z : Rat)|) := by
    obtain ⟨hpos, hlow, hhigh⟩ := awayFromZero_bounds hz
    refine ⟨abs_le.mpr ⟨by linarith, by linarith⟩, fun htie => ?_⟩
    rw [abs_of_nonneg hz, abs_of_nonneg hpos]
    rcases (abs_eq (by norm_num)).mp htie with heq | heq <;> linarith
  rcases le_total 0 z with hz | hz
  · exact hnonneg hz
  · have hopposite := hnonneg (neg_nonneg.mpr hz)
    rw [awayFromZero_neg] at hopposite
    push_cast at hopposite
    rwa [← neg_sub', abs_neg, abs_neg, abs_neg] at hopposite

theorem roundsAway_awayFromZero (x : Rat) (places : Nat) :
    RoundsAway x places (Rounding.awayFromZero (x * 10 ^ places) / 10 ^ places) := by
  have hpow : (0 : Rat) < 10 ^ places := by positivity
  obtain ⟨hnear, hhalf⟩ := Rounding.abs_awayFromZero_sub (x * 10 ^ places)
  refine ⟨⟨_, rfl⟩, ?_, fun htie => ?_⟩
  · rw [abs_div_ten_pow_sub]
    exact div_le_div_of_nonneg_right hnear hpow.le
  · rw [abs_div_ten_pow_sub, div_left_inj' hpow.ne'] at htie
    have haway := hhalf htie
    rw [abs_mul_ten_pow] at haway
    rwa [abs_div_ten_pow, lt_div_iff₀ hpow]

/-! ## 2. Decimals -/

namespace Decimal

/-- A decimal that loses places has room. -/
theorem natAbs_awayFromZero_lt {d : Decimal} {digits : Nat} (h : digits < d.scale) :
    (Rounding.awayFromZero (d.toRat * 10 ^ digits)).natAbs < coeffBound := by
  have hscaled : |d.toRat * 10 ^ digits| ≤ ((coeffBound : Rat) - 1) / 10 := by
    have hcoeff := abs_le_of_natAbs_lt d.coeff_lt
    have hfine : (10 : Rat) ^ (digits + 1) ≤ 10 ^ d.scale := pow_le_pow_right₀ (by norm_num) h
    have hvalue : |d.toRat| * 10 ^ d.scale = |(d.coeff : Rat)| := by
      rw [toRat_eq, abs_div_ten_pow, div_mul_cancel₀ _ (by positivity)]
    have hgrow : |d.toRat| * 10 ^ (digits + 1) ≤ |d.toRat| * 10 ^ d.scale := by gcongr
    rw [abs_mul_ten_pow]
    rw [pow_succ] at hgrow
    linarith
  obtain ⟨hnear, -⟩ := Rounding.abs_awayFromZero_sub (d.toRat * 10 ^ digits)
  rw [lt_coeffBound_iff]
  have htri := abs_sub_abs_le_abs_sub
    (Rounding.awayFromZero (d.toRat * 10 ^ digits) : Rat) (d.toRat * 10 ^ digits)
  have hbound : ((coeffBound : Rat) - 1) / 10 + 1 / 2 < coeffBound := by norm_num [coeffBound]
  linarith

/-- The number is rounded, and has as many places as were asked for, or fewer. -/
theorem roundsAway_roundTo (d : Decimal) (digits : Nat) :
    RoundsAway d.toRat digits (d.roundTo digits).toRat ∧ (d.roundTo digits).scale ≤ digits := by
  rw [roundTo]
  split
  · rename_i hlt
    rw [cast_tenTo, ofParts?,
      dif_pos ⟨natAbs_awayFromZero_lt hlt, hlt.le.trans d.scale_le⟩, Option.getD_some]
    refine ⟨?_, le_rfl⟩
    convert roundsAway_awayFromZero d.toRat digits using 1
    exact toRat_eq _
  · rename_i hge
    have hplaces : HasPlaces d.toRat digits := d.hasPlaces_toRat.mono (by omega)
    refine ⟨⟨hplaces, ?_, fun htie => ?_⟩, by omega⟩
    · rw [sub_self, abs_zero]
      positivity
    · rw [sub_self, abs_zero] at htie
      have : (0 : Rat) < 1 / 2 / 10 ^ digits := by positivity
      exact absurd htie this.ne

end Decimal
end CurrencyPad
