/-
CurrencyPad.Proofs.Decimal.HalfEven — where a half goes.

Of a number half way between two decimals both are nearest, so a rounding
(`Rounds`) may be either. `RoundsEven` says that it is the even one, with
an exemption: where `exempt` holds, a half may also go up, if it is a half
of a place that is not the last one.

Without the exemption a number has one rounding, whatever the way it was
computed (`IsEvenRounding.map_toRat_eq`). With it only the numbers that
are `Halfway` have two.
-/
import CurrencyPad.Proofs.Decimal.Nearest

namespace CurrencyPad.Decimal

/-! ## 1. Coefficients -/

/-- The coefficient of a rounding, at its scale. -/
theorem Rounds.exists_coeff {x : Rat} {d : Decimal} {scale : Nat} (h : Rounds x d scale) :
    ∃ c : Int, c.natAbs < coeffBound ∧ d.toRat = c / 10 ^ scale ∧
      |(c : Rat) - x * 10 ^ scale| ≤ 1 / 2 := by
  obtain ⟨c, hc, hvalue⟩ := h.multiple
  refine ⟨c, hc, hvalue, ?_⟩
  have hnear := h.near
  rwa [hvalue, abs_div_ten_pow_sub, div_le_div_iff_of_pos_right (by positivity)] at hnear

/-- A distance of half a unit, told by the coefficient. -/
theorem abs_toRat_sub_eq_iff {x : Rat} {d : Decimal} {c : Int} {scale : Nat}
    (hvalue : d.toRat = c / 10 ^ scale) :
    |d.toRat - x| = 1 / 2 / 10 ^ scale ↔ |(c : Rat) - x * 10 ^ scale| = 1 / 2 := by
  rw [hvalue, abs_div_ten_pow_sub, div_left_inj' (by positivity)]

theorem abs_le_of_natAbs_lt {c : Int} (h : c.natAbs < coeffBound) :
    |(c : Rat)| ≤ coeffBound - 1 := by
  have hle : c.natAbs + 1 ≤ coeffBound := h
  have hcast : (c.natAbs : Rat) + 1 ≤ coeffBound := by exact_mod_cast hle
  rw [← Int.cast_abs, Int.abs_eq_natAbs, Int.cast_natCast]
  linarith

/-- A number that was rounded at some scale has room there. -/
theorem Rounds.abs_mul_le {x : Rat} {d : Decimal} {scale : Nat} (h : Rounds x d scale) :
    |x| * 10 ^ scale + 1 / 2 ≤ coeffBound := by
  obtain ⟨c, hc, -, hnear⟩ := h.exists_coeff
  have hc' := abs_le_of_natAbs_lt hc
  have htri : |x * 10 ^ scale| ≤ |(c : Rat)| + |x * 10 ^ scale - c| := by
    simpa using abs_add_le (c : Rat) (x * 10 ^ scale - c)
  rw [abs_mul_ten_pow, abs_sub_comm] at htri
  linarith

/-- Integers that are less than one apart are the same. -/
theorem eq_of_abs_sub_lt_one {c m : Int} (h : |(c : Rat) - m| < 1) : c = m := by
  have hlt : |c - m| < 1 := by exact_mod_cast h
  rw [Int.abs_lt_one_iff] at hlt
  omega

/-- Two integers cannot both be nearer than a half. -/
theorem one_le_abs_sub_add_abs_sub {c m : Int} (hne : c ≠ m) (y : Rat) :
    1 ≤ |(c : Rat) - y| + |(m : Rat) - y| := by
  have hapart : (1 : Rat) ≤ |(c : Rat) - m| := by
    have : 1 ≤ |c - m| := Int.one_le_abs (sub_ne_zero.mpr hne)
    exact_mod_cast this
  have htri := abs_sub_le (c : Rat) y m
  rw [abs_sub_comm y] at htri
  linarith

/-- What has no more places than the scale was met. -/
theorem Rounds.toRat_eq_of_hasPlaces {x : Rat} {d : Decimal} {scale : Nat} (h : Rounds x d scale)
    (hplaces : HasPlaces x scale) : d.toRat = x := by
  obtain ⟨c, -, hvalue, hnear⟩ := h.exists_coeff
  obtain ⟨m, rfl⟩ := hplaces
  rw [div_mul_cancel₀ _ (by positivity)] at hnear
  obtain rfl : c = m := eq_of_abs_sub_lt_one (by linarith)
  exact hvalue

/-- A number that lies on a grid is not rounded past on it. -/
theorem Rounds.le_toRat_of_hasPlaces {x y : Rat} {d : Decimal} {scale : Nat}
    (h : Rounds y d scale) (hplaces : HasPlaces x scale) (hle : x ≤ y) : x ≤ d.toRat := by
  obtain ⟨m, -, hm, hmnear⟩ := h.exists_coeff
  obtain ⟨c, rfl⟩ := hplaces
  have hpow : (0 : Rat) < 10 ^ scale := by positivity
  rw [div_le_iff₀ hpow] at hle
  have hbelow : (c : Rat) < m + 1 := by
    have := (abs_le.mp hmnear).1
    linarith
  have hcm : c ≤ m := Int.lt_add_one_iff.mp (by exact_mod_cast hbelow)
  rw [hm]
  gcongr

/-- A rounding of a number that is not below zero is not below zero. -/
theorem Rounds.nonneg {x : Rat} {d : Decimal} {scale : Nat} (h : Rounds x d scale)
    (hx : 0 ≤ x) : 0 ≤ d.toRat :=
  h.le_toRat_of_hasPlaces ⟨0, by simp⟩ hx

theorem Rounds.neg {x : Rat} {d : Decimal} {scale : Nat} (h : Rounds x d scale) :
    Rounds (-x) (-d) scale := by
  obtain ⟨c, hc, hvalue⟩ := h.multiple
  refine ⟨h.scale_le, ⟨-c, by rwa [Int.natAbs_neg], ?_⟩, ?_, ?_⟩
  · rw [toRat_neg, hvalue]
    push_cast
    ring
  · rw [toRat_neg, ← neg_sub', abs_neg]
    exact h.near
  · rw [toRat_neg, neg_inj, abs_neg]
    exact h.finest

/-! ## 2. Halves -/

/-- An even number of units at a scale. -/
def EvenAt (d : Decimal) (scale : Nat) : Prop := ∃ c : Int, c % 2 = 0 ∧ d.toRat = c / 10 ^ scale

/-- A rounding of `x`, and of a half the even one. Where `exempt` holds, it may also be the
one further from zero, if there are more places. -/
structure RoundsEven (exempt : Prop) (x : Rat) (d : Decimal) (scale : Nat) : Prop
    extends Rounds x d scale where
  half : |d.toRat - x| = 1 / 2 / 10 ^ scale →
    d.EvenAt scale ∨ exempt ∧ scale < maxScale ∧ |d.toRat| = |x| + 1 / 2 / 10 ^ scale

/-- A checked result for `x` that treats halves in this way. -/
def IsEvenRounding (exempt : Prop) (x : Rat) : Option Decimal → Prop
  | some d => ∃ scale, RoundsEven exempt x d scale
  | none => (coeffBound : Rat) ≤ |x| + 1 / 2

/-- Rounded to a whole number, `x` has more than 96 bits. -/
def Overflows (x : Rat) : Prop := (coeffBound : Rat) ≤ |x| + 1 / 2

variable {exempt : Prop} {x : Rat}

theorem IsEvenRounding.isRounding {r : Option Decimal} (h : IsEvenRounding exempt x r) :
    IsRounding x r := by
  cases r with
  | some d =>
    obtain ⟨scale, hrounds⟩ := h
    exact ⟨scale, hrounds.toRounds⟩
  | none => exact h

/-- Only the number counts. -/
theorem RoundsEven.congr {a b : Decimal} {scale : Nat} (h : RoundsEven exempt x a scale)
    (heq : b.toRat = a.toRat) : RoundsEven exempt x b scale := by
  obtain ⟨hrounds, hhalf⟩ := h
  unfold EvenAt at hhalf
  rw [← heq] at hhalf
  exact ⟨hrounds.congr heq, hhalf⟩

theorem RoundsEven.neg {d : Decimal} {scale : Nat} (h : RoundsEven exempt x d scale) :
    RoundsEven exempt (-x) (-d) scale := by
  refine ⟨h.toRounds.neg, fun htie => ?_⟩
  rw [toRat_neg, ← neg_sub', abs_neg] at htie
  rw [toRat_neg, abs_neg, abs_neg]
  refine (h.half htie).imp_left ?_
  rintro ⟨c, hc, heven⟩
  refine ⟨-c, by omega, ?_⟩
  rw [toRat_neg, heven]
  push_cast
  ring

theorem IsEvenRounding.neg {r : Option Decimal} (h : IsEvenRounding exempt x r) :
    IsEvenRounding exempt (-x) (r.map (-·)) := by
  cases r with
  | some d =>
    obtain ⟨scale, hrounds⟩ := h
    exact ⟨scale, hrounds.neg⟩
  | none =>
    have : (coeffBound : Rat) ≤ |x| + 1 / 2 := h
    rwa [← abs_neg] at this

/-- A result that is spelled in another way is a rounding of the same number. -/
theorem IsEvenRounding.map {r : Option Decimal} {f : Decimal → Decimal}
    (h : IsEvenRounding exempt x r) (hf : ∀ d, (f d).toRat = d.toRat) :
    IsEvenRounding exempt x (r.map f) := by
  cases r with
  | some d =>
    obtain ⟨scale, hrounds⟩ := h
    exact ⟨scale, hrounds.congr (hf d)⟩
  | none => exact h

/-- A number that was met is a rounding of itself. -/
theorem isEvenRounding_of_eq {c : Int} {scale : Nat} {d : Decimal}
    (hd : ofParts? c scale = some d) (hx : x = c / 10 ^ scale) :
    IsEvenRounding exempt x (some d) := by
  have hvalue : d.toRat = x := (toRat_of_ofParts? hd).trans hx.symm
  have hzero : |d.toRat - x| = 0 := by rw [hvalue, sub_self, abs_zero]
  have hunit : (0 : Rat) < 1 / 2 / 10 ^ scale := by positivity
  rw [ofParts?] at hd
  split at hd
  · rename_i hbounds
    refine ⟨scale, ⟨hbounds.2, ⟨c, hbounds.1, hvalue.trans hx⟩, ?_, .inl hvalue⟩, ?_⟩
    · rw [hzero]
      exact hunit.le
    · intro htie
      rw [hzero] at htie
      exact absurd htie hunit.ne
  · simp at hd

/-! ## 3. One rounding -/

/-- A half of an odd coefficient is no rounding to even, and it does not go up where there is
no room, so there is no scale beyond the one that has just no room. -/
theorem RoundsEven.abs_mul_lt {d : Decimal} {scale j : Nat} (h : RoundsEven exempt x d scale)
    (hj : j ≤ scale) : |x| * 10 ^ j + 1 / 2 < coeffBound := by
  have hmono : |x| * (10 : Rat) ^ j ≤ |x| * 10 ^ scale := by
    have : (10 : Rat) ^ j ≤ 10 ^ scale := pow_le_pow_right₀ (by norm_num) hj
    gcongr
  refine lt_of_le_of_lt (add_le_add_left hmono _) (lt_of_le_of_ne h.abs_mul_le ?_)
  intro hfull
  obtain ⟨c, hc, hvalue, hnear⟩ := h.exists_coeff
  have hpow : (0 : Rat) < 10 ^ scale := by positivity
  -- the coefficient can only be the largest one, and this one is odd
  have habs : |x * 10 ^ scale| = coeffBound - 1 / 2 := by
    rw [abs_mul_ten_pow]
    linarith
  have hc' := abs_le_of_natAbs_lt hc
  have htri : |x * 10 ^ scale| ≤ |(c : Rat)| + |(c : Rat) - x * 10 ^ scale| := by
    rw [abs_sub_comm]
    simpa using abs_add_le (c : Rat) (x * 10 ^ scale - c)
  have htie : |(c : Rat) - x * 10 ^ scale| = 1 / 2 := by linarith
  have hlargest : c.natAbs = coeffBound - 1 := by
    have heq : |(c : Rat)| = coeffBound - 1 := by linarith
    rw [← Int.cast_abs, Int.abs_eq_natAbs, Int.cast_natCast] at heq
    have : c.natAbs + 1 = coeffBound := by
      have : (c.natAbs : Rat) + 1 = coeffBound := by linarith
      exact_mod_cast this
    omega
  rcases h.half ((abs_toRat_sub_eq_iff hvalue).mpr htie) with ⟨m, hm, heven⟩ | ⟨-, -, haway⟩
  · rw [hvalue, div_left_inj' hpow.ne'] at heven
    obtain rfl : c = m := by exact_mod_cast heven
    have hodd : c.natAbs % 2 = 1 := by rw [hlargest]; rfl
    omega
  · have hbound : |(c : Rat)| = coeffBound := by
      rw [hvalue, abs_div_ten_pow, div_eq_iff hpow.ne', add_mul, div_mul_cancel₀ _ hpow.ne'] at haway
      linarith
    linarith

theorem RoundsEven.toRat_eq {d e : Decimal} {scale : Nat} (h : RoundsEven False x d scale)
    (h' : RoundsEven False x e scale) : d.toRat = e.toRat := by
  obtain ⟨c, -, hvalue, hnear⟩ := h.exists_coeff
  obtain ⟨m, -, hvalue', hnear'⟩ := h'.exists_coeff
  have hpow : (10 : Rat) ^ scale ≠ 0 := by positivity
  have hcast {c m : Int} (heq : (c : Rat) / 10 ^ scale = m / 10 ^ scale) : c = m := by
    rw [div_left_inj' hpow] at heq
    exact_mod_cast heq
  suffices hcm : c = m by rw [hvalue, hvalue', hcm]
  by_contra hne
  -- two neighbours, so both are half a unit away, and both are even
  have hapart := one_le_abs_sub_add_abs_sub hne (x * 10 ^ scale)
  have htie : |(c : Rat) - x * 10 ^ scale| = 1 / 2 := by linarith
  have htie' : |(m : Rat) - x * 10 ^ scale| = 1 / 2 := by linarith
  rcases h.half ((abs_toRat_sub_eq_iff hvalue).mpr htie) with ⟨c', hc', heven⟩ | ⟨hfalse, -⟩
  · rcases h'.half ((abs_toRat_sub_eq_iff hvalue').mpr htie') with ⟨m', hm', heven'⟩ | ⟨hfalse, -⟩
    · obtain rfl := hcast (hvalue.symm.trans heven)
      obtain rfl := hcast (hvalue'.symm.trans heven')
      have hclose : |c - m| ≤ 1 := by
        have htri := abs_sub_le (c : Rat) (x * 10 ^ scale) m
        rw [abs_sub_comm (x * 10 ^ scale), htie, htie', add_halves] at htri
        exact_mod_cast htri
      rw [abs_le] at hclose
      omega
    · exact hfalse
  · exact hfalse

/-- The finer of two roundings would have no room, unless the number was met. -/
theorem RoundsEven.toRat_eq_of_lt {d e : Decimal} {scale scale' : Nat}
    (h : RoundsEven False x d scale) (h' : RoundsEven False x e scale') (hlt : scale < scale') :
    d.toRat = e.toRat := by
  rcases h.finest with heq | hmax | hroom
  · obtain ⟨c, -, hvalue⟩ := h.multiple
    have hplaces : HasPlaces x scale' := HasPlaces.mono ⟨c, heq ▸ hvalue⟩ hlt.le
    rw [heq, h'.toRat_eq_of_hasPlaces hplaces]
  · have := h'.scale_le
    omega
  · exact absurd hroom (not_le.mpr (h'.abs_mul_lt hlt))

theorem RoundsEven.not_overflows {d : Decimal} {scale : Nat} (h : RoundsEven exempt x d scale) :
    ¬Overflows x := by
  have := h.abs_mul_lt (Nat.zero_le scale)
  rwa [pow_zero, mul_one, ← not_le] at this

/-- **There is no result** exactly when the number overflows. -/
theorem IsEvenRounding.eq_none_iff {r : Option Decimal} (h : IsEvenRounding exempt x r) :
    r = none ↔ Overflows x := by
  cases r with
  | none => exact iff_of_true rfl h
  | some d =>
    obtain ⟨scale, hrounds⟩ := h
    exact iff_of_false (by simp) hrounds.not_overflows

/-- **A number has one rounding to even**, if it has any. -/
theorem IsEvenRounding.map_toRat_eq {r r' : Option Decimal} (h : IsEvenRounding False x r)
    (h' : IsEvenRounding False x r') : r.map toRat = r'.map toRat := by
  cases r with
  | none => rw [h'.eq_none_iff.mpr h]
  | some d =>
    obtain ⟨scale, hrounds⟩ := h
    cases r' with
    | none => exact absurd h' hrounds.not_overflows
    | some e =>
      obtain ⟨scale', hrounds'⟩ := h'
      simp only [Option.map_some, Option.some.injEq]
      rcases lt_trichotomy scale scale' with hlt | rfl | hgt
      · exact hrounds.toRat_eq_of_lt hrounds' hlt
      · exact hrounds.toRat_eq hrounds'
      · exact (hrounds'.toRat_eq_of_lt hrounds hgt).symm

/-! ## 4. The numbers with two roundings -/

/-- Half way between an even coefficient and the odd one above it, without room for the
next place. -/
def Halfway (x : Rat) : Prop :=
  ∃ scale k : Nat, scale < maxScale ∧ k % 2 = 0 ∧ |x| * 10 ^ scale = k + 1 / 2 ∧
    coeffBound ≤ 10 * k + 5

/-- Any other number is rounded to even, also where there is an exemption. -/
theorem IsEvenRounding.of_not_halfway {r : Option Decimal} (h : IsEvenRounding exempt x r)
    (hx : ¬(exempt ∧ Halfway x)) : IsEvenRounding False x r := by
  cases r with
  | none => exact h
  | some d =>
    obtain ⟨scale, hrounds⟩ := h
    refine ⟨scale, hrounds.toRounds, fun htie => .inl ?_⟩
    rcases hrounds.half htie with heven | ⟨hexempt, hscale, haway⟩
    · exact heven
    · obtain ⟨c, hc, hvalue, -⟩ := hrounds.exists_coeff
      have hpow : (0 : Rat) < 10 ^ scale := by positivity
      refine ⟨c, ?_, hvalue⟩
      by_contra hodd
      -- the coefficient is odd, so the one below it is even
      obtain ⟨k, hk⟩ : ∃ k, c.natAbs = k + 1 := ⟨c.natAbs - 1, by omega⟩
      have habs : |d.toRat| * 10 ^ scale = k + 1 := by
        rw [hvalue, abs_div_ten_pow, div_mul_cancel₀ _ hpow.ne', ← Int.cast_abs,
          Int.abs_eq_natAbs, hk]
        push_cast
        rfl
      have hhalf : |x| * 10 ^ scale = k + 1 / 2 := by
        rw [haway, add_mul, div_mul_cancel₀ _ hpow.ne'] at habs
        linarith
      refine hx ⟨hexempt, scale, k, hscale, by omega, hhalf, ?_⟩
      rcases hrounds.finest with heq | hmax | hroom
      · rw [heq] at haway
        have : (0 : Rat) < 1 / 2 / 10 ^ scale := by positivity
        linarith
      · omega
      · rw [pow_succ, ← mul_assoc, hhalf] at hroom
        have : (coeffBound : Rat) < 10 * k + 5 + 1 := by linarith
        exact Nat.lt_succ_iff.mp (by exact_mod_cast this)

end CurrencyPad.Decimal
