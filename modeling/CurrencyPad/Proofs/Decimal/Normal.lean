/-
CurrencyPad.Proofs.Decimal.Normal — one spelling for each number.

A decimal keeps the scale it was written with, so a number has many
decimals. `normalize` picks one of them: it keeps the number
(`toRat_normalize`) and leaves no trailing zero in the fraction
(`isNormal_normalize`), and a number has only one decimal like that
(`IsNormal.eq_of_toRat_eq`). So two decimals are normalized alike, and
rendered alike, when they are the same number and only then.

Two numbers are compared as whole numbers, at a common scale
(`toRat_eq_iff`). In the same way one sees that a decimal is exact at its
own scale, so that the rounding of the arithmetic gives its number back
(`map_toRat_nearest?_toRat`).
-/
import Mathlib.Data.Rat.Cast.Order
import Mathlib.Tactic.Ring
import CurrencyPad.Decimal.Arithmetic
import CurrencyPad.Decimal.Numeral

namespace CurrencyPad.Decimal

/-! ## 1. Numbers at a common scale -/

theorem tenTo_add (m n : Nat) : tenTo (m + n) = tenTo m * tenTo n := Nat.pow_add 10 m n

theorem tenTo_cast_ne_zero (n : Nat) : (tenTo n : Rat) ≠ 0 :=
  Nat.cast_ne_zero.mpr (tenTo_pos n).ne'

/-- Two decimals are one number when their coefficients agree at a common scale. -/
theorem toRat_eq_iff {a b : Decimal} :
    a.toRat = b.toRat ↔ a.coeff * tenTo b.scale = b.coeff * tenTo a.scale := by
  rw [toRat, toRat, div_eq_div_iff (tenTo_cast_ne_zero _) (tenTo_cast_ne_zero _)]
  exact_mod_cast Iff.rfl

/-! ## 2. The normal decimal of a number -/

/-- Without trailing zeros in the fraction, and without the mark of a zero. -/
structure IsNormal (d : Decimal) : Prop where
  fraction : d.scale = 0 ∨ d.coeff % 10 ≠ 0
  unmarked : d.fromBelow = false

theorem toRat_normalizeFrom (s : Nat) (hs : s ≤ maxScale) (m : Int)
    (hm : m.natAbs < coeffBound) :
    (normalizeFrom s hs m hm).toRat = (m : Rat) / (tenTo s : Rat) := by
  induction s generalizing m with
  | zero => rfl
  | succ s ih =>
    rw [normalizeFrom]
    split
    · rename_i h
      have hsplit : m / 10 * 10 = m := Int.ediv_mul_cancel (Int.dvd_of_emod_eq_zero h)
      rw [ih, div_eq_div_iff (tenTo_cast_ne_zero _) (tenTo_cast_ne_zero _), tenTo_succ]
      nth_rewrite 2 [← hsplit]
      push_cast
      ring
    · rfl

/-- Normalizing keeps the number. -/
@[simp] theorem toRat_normalize (d : Decimal) : d.normalize.toRat = d.toRat :=
  toRat_normalizeFrom d.scale d.scale_le d.coeff d.coeff_lt

theorem isNormal_normalizeFrom (s : Nat) (hs : s ≤ maxScale) (m : Int)
    (hm : m.natAbs < coeffBound) : IsNormal (normalizeFrom s hs m hm) := by
  induction s generalizing m with
  | zero => exact ⟨.inl rfl, rfl⟩
  | succ s ih =>
    rw [normalizeFrom]
    split
    · exact ih _ _ _
    · rename_i h
      exact ⟨.inr h, rfl⟩

theorem isNormal_normalize (d : Decimal) : IsNormal d.normalize :=
  isNormal_normalizeFrom d.scale d.scale_le d.coeff d.coeff_lt

theorem natAbs_coeff_normalizeFrom_le (s : Nat) (hs : s ≤ maxScale) (m : Int)
    (hm : m.natAbs < coeffBound) : (normalizeFrom s hs m hm).coeff.natAbs ≤ m.natAbs := by
  induction s generalizing m with
  | zero => exact le_refl _
  | succ s ih =>
    rw [normalizeFrom]
    split
    · exact (ih _ _ _).trans (by omega)
    · exact le_refl _

/-- No spelling of a number has a shorter coefficient than the normal one. -/
theorem natAbs_coeff_normalize_le (d : Decimal) :
    d.normalize.coeff.natAbs ≤ d.coeff.natAbs :=
  natAbs_coeff_normalizeFrom_le d.scale d.scale_le d.coeff d.coeff_lt

/-- With more places than `a` has, `b` would end in a zero. -/
theorem IsNormal.scale_le_of_toRat_eq {a b : Decimal} (hb : IsNormal b)
    (h : a.toRat = b.toRat) : b.scale ≤ a.scale := by
  by_contra hlt
  obtain ⟨k, hk⟩ : ∃ k, b.scale = a.scale + (k + 1) :=
    ⟨b.scale - a.scale - 1, by omega⟩
  have hcoeff : a.coeff * tenTo (k + 1) = b.coeff := by
    have hcross := toRat_eq_iff.mp h
    rw [hk, tenTo_add, Nat.cast_mul, mul_comm (tenTo a.scale : Int), ← mul_assoc] at hcross
    exact mul_right_cancel₀ (Nat.cast_ne_zero.mpr (tenTo_pos _).ne') hcross
  rcases hb.fraction with hzero | hlast
  · omega
  · apply hlast
    rw [← hcoeff, tenTo_succ, Nat.cast_mul, ← mul_assoc]
    exact Int.mul_emod_left _ 10

/-- A number has one normal decimal. -/
theorem IsNormal.eq_of_toRat_eq {a b : Decimal} (ha : IsNormal a) (hb : IsNormal b)
    (h : a.toRat = b.toRat) : a = b := by
  have hscale : a.scale = b.scale :=
    Nat.le_antisymm (ha.scale_le_of_toRat_eq h.symm) (hb.scale_le_of_toRat_eq h)
  have hcoeff : a.coeff = b.coeff := by
    have hcross := toRat_eq_iff.mp h
    rw [hscale] at hcross
    exact mul_right_cancel₀ (Nat.cast_ne_zero.mpr (tenTo_pos _).ne') hcross
  have hmark : a.fromBelow = b.fromBelow := ha.unmarked.trans hb.unmarked.symm
  cases a
  cases b
  simp_all

/-- **Normalizing picks one decimal for each number.** -/
theorem normalize_eq_normalize_iff {a b : Decimal} :
    a.normalize = b.normalize ↔ a.toRat = b.toRat := by
  constructor
  · intro h
    rw [← toRat_normalize a, h, toRat_normalize]
  · intro h
    exact (isNormal_normalize a).eq_of_toRat_eq (isNormal_normalize b) (by simpa using h)

theorem renderChars_eq_of_toRat_eq {a b : Decimal} (h : a.toRat = b.toRat) :
    a.renderChars = b.renderChars := by
  rw [renderChars, renderChars, normalize_eq_normalize_iff.mpr h]

theorem render_eq_of_toRat_eq {a b : Decimal} (h : a.toRat = b.toRat) :
    a.render = b.render := by
  rw [render, render, renderChars_eq_of_toRat_eq h]

/-! ## 3. No rounding at its own scale -/

theorem unmarked_of_ofParts? {c : Int} {s : Nat} {d : Decimal} (h : ofParts? c s = some d) :
    d.fromBelow = false := by
  rw [ofParts?] at h
  split at h
  · obtain rfl := Option.some.inj h
    rfl
  · simp at h

theorem coeffAt_toRat (d : Decimal) : coeffAt d.toRat d.scale = d.coeff := by
  rw [coeffAt, toRat, div_mul_cancel₀ _ (tenTo_cast_ne_zero _), Rounding.toEven_intCast]

/-- The first scale that is tried is kept when the coefficient fits there. -/
theorem fittingScale?_of_fits {x : Rat} {s : Nat}
    (h : (coeffAt x s).natAbs < coeffBound) : fittingScale? x s = some s := by
  cases s <;> rw [fittingScale?, if_pos h]

/-- The number of a decimal is not rounded at its own scale. -/
theorem map_toRat_nearest?_toRat (d : Decimal) :
    (nearest? d.toRat d.scale).map toRat = some d.toRat := by
  have hfits : (coeffAt d.toRat d.scale).natAbs < coeffBound := by
    rw [coeffAt_toRat]
    exact d.coeff_lt
  rw [nearest?, Nat.min_eq_left d.scale_le, fittingScale?_of_fits hfits]
  simp only [Option.bind_eq_bind, Option.bind_some, coeffAt_toRat]
  rw [ofParts?, dif_pos ⟨d.coeff_lt, d.scale_le⟩]
  rfl

/-- Adding to zero does not round. -/
theorem zero_add? (d : Decimal) : add? zero d = some d := rfl

end CurrencyPad.Decimal
