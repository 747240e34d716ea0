/-
CurrencyPad.Proofs.Decimal.Double — decimals that go through a double.

A decimal becomes a double in steps that each round, and a double is read
by its shortest digits. What comes back need not be the number that was
written: seventeen digits tell all doubles apart, and a quotient has up to
twenty-nine. A decimal of fifteen digits does come back
(`map_toRat_ofDouble?_toDouble`).

## How the proof goes

* A rounding changes a number by one part in `2 ^ 53` at most, and three of
  them follow each other before the coefficient is taken from what they
  leave (`Within`). For fifteen digits that is little enough to take it
  right, and then all steps together come down to one: the double is the
  nearest one (`doubleOfParts_eq_nearest`).
* So the decimal lies in the neighbourhood of its double, on a grid with
  wider steps than the doubles have there, and the shortest digits are its
  own (`value_shortest_of_short`).
* These are written as the digits of a decimal are
  (`exists_magnitudeChars_eq`), which are read as that decimal.
-/
import CurrencyPad.Decimal.Double
import CurrencyPad.Proofs.Binary.Shortest
import CurrencyPad.Proofs.Decimal.HalfAway
import CurrencyPad.Proofs.Decimal.Reading

namespace CurrencyPad

open Binary

/-! ## 1. It is a double -/

/-- What a number of moderate size is rounded to is a double. -/
theorem Binary.isDouble_nearest {x : Rat} (hx : 0 ≤ x) (hlt : x ≤ 2 ^ (1000 : Int)) :
    IsDouble (double.nearest x) := by
  rcases hx.eq_or_lt with rfl | hpos
  · exact .inl (double.nearest_zero)
  · have hnonneg := double.nearest_nonneg double_precision_pos hx
    refine (double.nearest_cases double_precision_pos hpos).imp_right fun hspells => ?_
    rw [abs_of_nonneg hnonneg]
    refine ⟨hspells, ?_⟩
    calc double.nearest x ≤ 2 ^ (1000 : Int) :=
          double.nearest_le_zpow double_precision_pos (by decide) hx hlt
      _ < 2 ^ (1024 : Int) := zpow_lt_zpow_right₀ (by norm_num) (by norm_num)

theorem Binary.IsDouble.neg {x : Rat} (h : IsDouble x) : IsDouble (-x) := by
  simpa [IsDouble] using h

namespace Decimal

/-- Rounding in the range of the decimals. -/
theorem nearest_bounds {x : Rat} {k : Int} (hk : -1074 ≤ k) (hx : 0 ≤ x) (h : x ≤ 2 ^ k) :
    0 ≤ double.nearest x ∧ double.nearest x ≤ 2 ^ k :=
  ⟨double.nearest_nonneg double_precision_pos hx,
    double.nearest_le_zpow double_precision_pos hk hx h⟩

/-- The last step is a rounding, of a number that is not huge. -/
theorem exists_doubleOfParts_eq {m scale : Nat} (hm : m < coeffBound) (hscale : scale ≤ maxScale) :
    ∃ y, 0 ≤ y ∧ y ≤ 2 ^ (200 : Int) ∧ doubleOfParts m scale = double.nearest y := by
  have hunit : (1 : Rat) ≤ (tenTo scale : Nat) := by exact_mod_cast tenTo_pos scale
  have hunit' : ((tenTo scale : Nat) : Rat) ≤ 2 ^ (96 : Int) := by
    rw [cast_tenTo]
    calc (10 : Rat) ^ scale ≤ 10 ^ maxScale := pow_le_pow_right₀ (by norm_num) hscale
      _ ≤ 2 ^ (96 : Int) := by norm_num [maxScale]
  have hwhole : ((m / tenTo scale : Nat) : Rat) ≤ 2 ^ (96 : Int) := by
    have hle : m / tenTo scale ≤ coeffBound := (Nat.div_le_self _ _).trans hm.le
    calc ((m / tenTo scale : Nat) : Rat) ≤ (coeffBound : Nat) := by exact_mod_cast hle
      _ ≤ 2 ^ (96 : Int) := by norm_num [coeffBound]
  have hrest : ((m % tenTo scale : Nat) : Rat) ≤ 2 ^ (96 : Int) := by
    refine le_trans ?_ hunit'
    exact_mod_cast (Nat.mod_lt _ (tenTo_pos scale)).le
  have hplaces : 1 ≤ double.nearest (tenTo scale : Nat) := by
    simpa using double.zpow_le_nearest double_precision_pos (k := 0) (by decide) (by simpa using hunit)
  obtain ⟨-, hplaces'⟩ := nearest_bounds (by norm_num) (by positivity) hunit'
  obtain ⟨hw, hw'⟩ := nearest_bounds (by norm_num) (by positivity) hwhole
  obtain ⟨hr, hr'⟩ := nearest_bounds (by norm_num) (by positivity) hrest
  have hpos : 0 < double.nearest (tenTo scale : Nat) := by linarith
  obtain ⟨hp, hp'⟩ := nearest_bounds (k := 96) (by norm_num) (div_nonneg hr hpos.le)
    ((div_le_self hr hplaces).trans hr')
  obtain ⟨hs, hs'⟩ := nearest_bounds (k := 97) (by norm_num) (add_nonneg hw hp)
    ((add_le_add hw' hp').trans (by norm_num))
  obtain ⟨ht, ht'⟩ := nearest_bounds (k := 193) (by norm_num) (mul_nonneg hs hpos.le)
    ((mul_le_mul hs' hplaces' hpos.le (by positivity)).trans (by norm_num))
  obtain ⟨ha, -, ha'⟩ := Rounding.awayFromZero_bounds ht
  simp only [doubleOfParts]
  split
  · exact ⟨_, by positivity, hwhole.trans (zpow_le_zpow_right₀ (by norm_num) (by norm_num)), rfl⟩
  · refine ⟨_, div_nonneg ha hpos.le, ?_, rfl⟩
    calc _ ≤ _ := div_le_self ha hplaces
      _ ≤ 2 ^ (193 : Int) + 1 / 2 := by linarith
      _ ≤ 2 ^ (200 : Int) := by norm_num

/-- **The double of a decimal** is one. -/
theorem isDouble_toDouble (d : Decimal) : IsDouble d.toDouble := by
  obtain ⟨y, hy, hle, heq⟩ := exists_doubleOfParts_eq d.coeff_lt d.scale_le
  have hmagnitude : IsDouble (doubleOfParts d.coeff.natAbs d.scale) := by
    rw [heq]
    exact isDouble_nearest hy (hle.trans (zpow_le_zpow_right₀ (by norm_num) (by norm_num)))
  rw [toDouble]
  cases d.isNegative with
  | true => exact hmagnitude.neg
  | false => exact hmagnitude

theorem doubleOfParts_bounds (d : Decimal) :
    0 ≤ doubleOfParts d.coeff.natAbs d.scale ∧
      doubleOfParts d.coeff.natAbs d.scale ≤ 2 ^ (200 : Int) := by
  obtain ⟨y, hy, hle, heq⟩ := exists_doubleOfParts_eq d.coeff_lt d.scale_le
  rw [heq]
  exact nearest_bounds (by norm_num) hy hle

theorem abs_toDouble (d : Decimal) : |d.toDouble| = doubleOfParts d.coeff.natAbs d.scale := by
  obtain ⟨hnonneg, -⟩ := d.doubleOfParts_bounds
  rw [toDouble]
  cases d.isNegative with
  | true => rw [if_pos rfl, abs_neg, abs_of_nonneg hnonneg]
  | false => rw [if_neg Bool.false_ne_true, abs_of_nonneg hnonneg]

/-- It is not huge. -/
theorem abs_toDouble_le (d : Decimal) : |d.toDouble| ≤ 2 ^ (200 : Int) :=
  d.abs_toDouble.trans_le d.doubleOfParts_bounds.2

end Decimal

/-! ## 2. A few roundings -/

/-- The smallest number that has all bits of a double is small among the decimals. -/
theorem zpow_normal : (2 : Rat) ^ (-1022 : Int) < 1 / 10 ^ 22 / 2 := by
  calc (2 : Rat) ^ (-1022 : Int) ≤ 2 ^ (-100 : Int) :=
        zpow_le_zpow_right₀ (by norm_num) (by norm_num)
    _ < 1 / 10 ^ 22 / 2 := by norm_num

/-- Apart by at most `n` roundings. -/
structure Binary.Within (n : Nat) (a b : Rat) : Prop where
  low : (1 - 1 / 2 ^ 53) ^ n * b ≤ a
  high : a ≤ (1 + 1 / 2 ^ 53) ^ n * b

namespace Binary.Within

variable {n : Nat} {a b : Rat}

theorem zero (a : Rat) : Within 0 a a := ⟨by simp, by simp⟩

theorem mul_right (h : Within n a b) {u : Rat} (hu : 0 ≤ u) : Within n (a * u) (b * u) where
  low := by
    rw [← mul_assoc]
    exact mul_le_mul_of_nonneg_right h.low hu
  high := by
    rw [← mul_assoc]
    exact mul_le_mul_of_nonneg_right h.high hu

theorem add_left (h : Within n a b) {w : Rat} (hw : 0 ≤ w) : Within n (w + a) (w + b) where
  low := by
    have hle : (1 - 1 / 2 ^ 53 : Rat) ^ n * w ≤ w :=
      mul_le_of_le_one_left hw (pow_le_one₀ (by norm_num) (by norm_num))
    linarith [h.low]
  high := by
    have hle : w ≤ (1 + 1 / 2 ^ 53 : Rat) ^ n * w :=
      le_mul_of_one_le_left hw (one_le_pow₀ (by norm_num))
    linarith [h.high]

/-- One rounding more. -/
theorem nearest (h : Within n a b) (ha : 2 ^ (-1022 : Int) ≤ a) :
    Within (n + 1) (double.nearest a) b := by
  have hmoved : |double.nearest a - a| ≤ a / 2 ^ 53 :=
    double.abs_nearest_sub_le_div double_precision_pos ha
  obtain ⟨hbelow, habove⟩ := abs_le.mp hmoved
  constructor
  · calc (1 - 1 / 2 ^ 53) ^ (n + 1) * b = (1 - 1 / 2 ^ 53) * ((1 - 1 / 2 ^ 53) ^ n * b) := by ring
      _ ≤ (1 - 1 / 2 ^ 53) * a := mul_le_mul_of_nonneg_left h.low (by norm_num)
      _ ≤ double.nearest a := by linarith
  · calc double.nearest a ≤ (1 + 1 / 2 ^ 53) * a := by linarith
      _ ≤ (1 + 1 / 2 ^ 53) * ((1 + 1 / 2 ^ 53) ^ n * b) :=
        mul_le_mul_of_nonneg_left h.high (by norm_num)
      _ = (1 + 1 / 2 ^ 53) ^ (n + 1) * b := by ring

/-- A few roundings leave half of what they started from. -/
theorem half_le (h : Within n a b) (hn : n ≤ 3) (hb : 0 ≤ b) : b / 2 ≤ a := by
  refine le_trans ?_ h.low
  have hpow : (1 / 2 : Rat) ≤ (1 - 1 / 2 ^ 53) ^ n := by
    calc (1 / 2 : Rat) ≤ (1 - 1 / 2 ^ 53) ^ 3 := by norm_num
      _ ≤ (1 - 1 / 2 ^ 53) ^ n := pow_le_pow_of_le_one (by norm_num) (by norm_num) hn
  rw [div_eq_inv_mul, ← one_div]
  gcongr

/-- Three roundings do not move a number of fifteen digits by a half. -/
theorem abs_sub_lt (h : Within 3 a b) (hlt : b < 10 ^ 15) : |a - b| < 1 / 2 := by
  obtain ⟨hlow, hhigh⟩ := h
  rw [abs_lt]
  constructor <;> linarith

end Binary.Within

/-! ## 3. The nearest double -/

theorem Rounding.awayFromZero_eq_of_lt {z : Rat} {k : Int} (hz : 0 ≤ z) (h : |z - k| < 1 / 2) :
    awayFromZero z = k := by
  rw [abs_lt] at h
  rw [awayFromZero, if_pos hz]
  exact floor_eq (by linarith) (by linarith)

namespace Decimal

/-- A whole number of fifteen digits is a double. -/
theorem nearest_natCast {n : Nat} (h : n < 10 ^ 15) : double.nearest n = n := by
  have hbits : n < 2 ^ double.precision := h.trans_le (by decide)
  simpa using double.nearest_mul_zpow (q := 0) hbits (by decide)

/-- Powers of ten are doubles as long as their power of five has no more than 53 bits. -/
theorem nearest_tenTo {s : Nat} (h : s ≤ 22) : double.nearest (tenTo s : Nat) = (tenTo s : Nat) := by
  have hbits : 5 ^ s < 2 ^ double.precision :=
    lt_of_le_of_lt (Nat.pow_le_pow_right (by norm_num) h) (by decide)
  have hlow : double.lowest ≤ (s : Int) := by
    have : double.lowest = -1074 := rfl
    omega
  have hvalue : ((tenTo s : Nat) : Rat) = (5 ^ s : Nat) * 2 ^ (s : Int) := by
    rw [cast_tenTo, zpow_natCast]
    push_cast
    rw [← mul_pow]
    norm_num
  rw [hvalue, double.nearest_mul_zpow hbits hlow]

/-- From the sum of the whole part `w` and the fraction `r / u`, the coefficient is taken as it
should be, when it has no more than fifteen digits. -/
theorem awayFromZero_parts {w r u : Nat} (hupos : 0 < u) (hu : u ≤ 10 ^ 22) (hrpos : 0 < r)
    (hm : w * u + r < 10 ^ 15) :
    0 < double.nearest (r / u) ∧
      Rounding.awayFromZero (double.nearest (double.nearest (w + double.nearest (r / u)) * u)) =
        (w * u + r : Nat) := by
  have hucast : (u : Rat) ≤ 10 ^ 22 := by exact_mod_cast hu
  have hr : (1 : Rat) ≤ r := by exact_mod_cast hrpos
  have hw : (0 : Rat) ≤ w := by positivity
  have hm' : ((w : Rat) + r / u) * u = (w * u + r : Nat) := by
    push_cast
    field_simp
  have hmpos : (1 : Rat) ≤ (w * u + r : Nat) := by exact_mod_cast hrpos.trans_le (Nat.le_add_left _ _)
  have hpart : 1 / 10 ^ 22 ≤ (r : Rat) / u := by gcongr
  have htiny := zpow_normal
  -- the fraction, the sum, and the sum times the power of ten
  have hone := (Within.zero ((r : Rat) / u)).nearest (by linarith)
  have honelow := hone.half_le (by norm_num) (by positivity)
  have htwo := ((hone.add_left hw).nearest (by linarith)).mul_right u.cast_nonneg
  rw [hm'] at htwo
  have htwolow := htwo.half_le (by norm_num) (by positivity)
  have hthree := htwo.nearest (by linarith)
  have hthreelow := hthree.half_le (by norm_num) (by positivity)
  exact ⟨by linarith, Rounding.awayFromZero_eq_of_lt (by linarith)
    (hthree.abs_sub_lt (by exact_mod_cast hm))⟩

/-- **The double of a short decimal** is the nearest one. -/
theorem doubleOfParts_eq_nearest {m s : Nat} (hm : m < 10 ^ 15) (hs : s ≤ 22) :
    doubleOfParts m s = double.nearest (m / (tenTo s : Nat)) := by
  have hupos := tenTo_pos s
  have hu : tenTo s ≤ 10 ^ 22 := Nat.pow_le_pow_right (by norm_num) hs
  have hsplit : m / tenTo s * tenTo s + m % tenTo s = m := by
    rw [mul_comm]
    exact Nat.div_add_mod m (tenTo s)
  have hwhole : m / tenTo s < 10 ^ 15 := (Nat.div_le_self _ _).trans_lt hm
  have hrest : m % tenTo s < 10 ^ 15 := (Nat.mod_le _ _).trans_lt hm
  simp only [doubleOfParts, nearest_natCast hwhole, nearest_natCast hrest, nearest_tenTo hs]
  generalize m / tenTo s = w at *
  generalize m % tenTo s = r at *
  generalize tenTo s = u at *
  rcases Nat.eq_zero_or_pos r with rfl | hrpos
  · -- a whole number
    have hvalue : (m : Rat) / u = w := by
      rw [div_eq_iff (by positivity), ← hsplit]
      push_cast
      ring
    rw [Nat.cast_zero, zero_div, double.nearest_zero, if_pos rfl, hvalue, nearest_natCast hwhole]
  · obtain ⟨hpart, htaken⟩ := awayFromZero_parts hupos hu hrpos (hsplit ▸ hm)
    rw [if_neg hpart.ne', htaken, hsplit, Int.cast_natCast]

/-! ## 4. The shortest digits -/

theorem exists_of_bounds {m places : Nat} (hm : m < coeffBound) (hplaces : places ≤ maxScale) :
    ∃ d : Decimal, d.coeff = m ∧ d.scale = places := by
  have hsome : (ofParts? m places).isSome = true := by simp [ofParts?, hm, hplaces]
  obtain ⟨d, hd⟩ := Option.isSome_iff_exists.mp hsome
  refine ⟨d, ?_⟩
  rw [ofParts?, dif_pos ⟨hm, hplaces⟩] at hd
  obtain rfl := Option.some.inj hd
  exact ⟨rfl, rfl⟩

/-- A spelling of moderate size is written as a decimal is. -/
theorem exists_magnitudeChars_eq {s : Spelling} {c places : Nat} (hc : c < coeffBound)
    (hplaces : places ≤ maxScale) (hexponent : -(places : Int) ≤ s.exponent)
    (hvalue : s.value = c * 10 ^ (-(places : Int))) :
    ∃ d : Decimal, d.magnitudeChars = s.positional ∧ d.toRat = s.value := by
  have hccast : (c : Rat) < coeffBound := by exact_mod_cast hc
  rw [Spelling.positional]
  split
  · rename_i hwhole
    obtain ⟨e, he⟩ := Int.eq_ofNat_of_zero_le hwhole
    have hfits : s.coeff * tenTo e < coeffBound := by
      have hle : ((s.coeff * tenTo e : Nat) : Rat) ≤ c := by
        have hpow : (10 : Rat) ^ (-(places : Int)) ≤ 1 := zpow_le_one_of_nonpos₀ (by norm_num) (by omega)
        have : ((s.coeff * tenTo e : Nat) : Rat) = s.value := by
          rw [Spelling.value, he, Nat.cast_mul, cast_tenTo]
          rfl
        rw [this, hvalue]
        exact mul_le_of_le_one_right c.cast_nonneg hpow
      exact_mod_cast hle.trans_lt hccast
    obtain ⟨d, hcoeff, hscale⟩ := exists_of_bounds hfits (Nat.zero_le _)
    refine ⟨d, ?_, ?_⟩
    · simp [magnitudeChars, wholeDigits, hcoeff, hscale, he, tenTo_zero, Int.natAbs_mul]
    · simp [toRat, Spelling.value, hcoeff, hscale, he, tenTo_zero]
  · rename_i hfraction
    obtain ⟨p, hp⟩ := Int.eq_ofNat_of_zero_le (show 0 ≤ -s.exponent by omega)
    have he : s.exponent = -(p : Int) := by omega
    have hfits : s.coeff < coeffBound := by
      have hle : (s.coeff : Rat) ≤ c := by
        rw [Spelling.value, he] at hvalue
        have hpow : (10 : Rat) ^ (-(places : Int)) ≤ 10 ^ (-(p : Int)) :=
          zpow_le_zpow_right₀ (by norm_num) (by omega)
        refine le_of_mul_le_mul_right ?_ (show (0 : Rat) < 10 ^ (-(p : Int)) by positivity)
        rw [hvalue]
        gcongr
      exact_mod_cast hle.trans_lt hccast
    obtain ⟨d, hcoeff, hscale⟩ := exists_of_bounds hfits (show p ≤ maxScale by omega)
    refine ⟨d, ?_, ?_⟩
    · have hne : p ≠ 0 := by omega
      simp [magnitudeChars, wholeDigits, fractionDigits, hcoeff, hscale, he, hne]
    · simp [toRat, Spelling.value, hcoeff, hscale, he, zpow_neg, div_eq_mul_inv]

/-- Doubles that are small against a grid lie closer than the points of the grid. -/
theorem unit_lt {x step : Rat} {m : Nat} {q : Int} (h : double.Spells x m q)
    (hstep : 1 / 10 ^ 22 ≤ step) (hx : x < 2 ^ 52 * step) : (2 : Rat) ^ q < step := by
  rcases h.full with hlowest | hfull
  · have hle : (2 : Rat) ^ q ≤ 2 ^ (-1022 : Int) :=
      zpow_le_zpow_right₀ (by norm_num) (by rw [hlowest]; decide)
    linarith [zpow_normal]
  · have hbits : (2 : Rat) ^ 52 ≤ m := by exact_mod_cast hfull
    have hle : (2 : Rat) ^ 52 * 2 ^ q ≤ x := by
      rw [h.value]
      gcongr
    exact lt_of_mul_lt_mul_left (hle.trans_lt hx) (by positivity)

/-- **The shortest digits** of the double nearest to a short decimal are those of the decimal. -/
theorem value_shortest_of_short {c s : Nat} (hpos : 0 < c) (hc : c < 10 ^ 15) (hs : s ≤ 22)
    (tie : TieRule) :
    0 < double.nearest (c / (tenTo s : Nat)) ∧
      -(s : Int) ≤ (shortest tie (double.nearest (c / (tenTo s : Nat)))).exponent ∧
      (shortest tie (double.nearest (c / (tenTo s : Nat)))).value = c / (tenTo s : Nat) := by
  have hvalue : (c : Rat) / (tenTo s : Nat) = c * 10 ^ (-(s : Int)) := by
    rw [cast_tenTo, zpow_neg, zpow_natCast, div_eq_mul_inv]
  have hstep : (1 : Rat) / 10 ^ 22 ≤ 10 ^ (-(s : Int)) := by
    rw [zpow_neg, zpow_natCast, one_div]
    exact inv_anti₀ (by positivity) (pow_le_pow_right₀ (by norm_num) hs)
  have hcpos : (1 : Rat) ≤ c := by exact_mod_cast hpos
  have hcast : (c : Rat) < 10 ^ 15 := by exact_mod_cast hc
  have hleast : 1 / 10 ^ 22 ≤ (c : Rat) / (tenTo s : Nat) := by
    rw [hvalue]
    exact hstep.trans (le_mul_of_one_le_left (by positivity) hcpos)
  have hmost : (1 + 1 / 2 ^ 53) * ((c : Rat) / (tenTo s : Nat)) < 2 ^ 52 * 10 ^ (-(s : Int)) := by
    rw [hvalue, ← mul_assoc]
    gcongr
    linarith
  have hwithin := (Within.zero ((c : Rat) / (tenTo s : Nat))).nearest (by linarith [zpow_normal])
  have hx : 0 < double.nearest (c / (tenTo s : Nat)) := by
    have := hwithin.half_le (by norm_num) (by positivity)
    linarith
  have hmem := double.contains_nearest (by decide) (by linarith) hx.ne'
  obtain ⟨m, q, hspells⟩ :=
    (double.nearest_cases double_precision_pos (by linarith)).resolve_left hx.ne'
  have hunit : (2 : Rat) ^ q < 10 ^ (-(s : Int)) :=
    unit_lt hspells hstep (lt_of_le_of_lt (by simpa using hwithin.high) hmost)
  generalize double.nearest (c / (tenTo s : Nat)) = x at *
  rw [hvalue] at hmem ⊢
  exact ⟨hx, hspells.value_shortest_of_mem tie hmem hunit⟩

/-- They are written as the digits of a decimal are. -/
theorem exists_shortest_eq {c s : Nat} (hpos : 0 < c) (hc : c < 10 ^ 15) (hs : s ≤ 22) :
    ∃ d : Decimal, d.magnitudeChars =
        (shortest .up (double.nearest (c / (tenTo s : Nat)))).positional ∧
      d.toRat = c / (tenTo s : Nat) := by
  obtain ⟨-, hexponent, hfound⟩ := value_shortest_of_short hpos hc hs .up
  have hvalue : (c : Rat) / (tenTo s : Nat) = c * 10 ^ (-(s : Int)) := by
    rw [cast_tenTo, zpow_neg, zpow_natCast, div_eq_mul_inv]
  obtain ⟨d, hchars, hd⟩ := exists_magnitudeChars_eq (hc.trans (by decide)) (hs.trans (by decide))
    hexponent (hfound.trans hvalue)
  exact ⟨d, hchars, hd.trans hfound⟩

/-! ## 5. There and back -/

/-- No more than fifteen digits, and a power of ten that is a double. -/
def Short (d : Decimal) : Prop := d.coeff.natAbs < 10 ^ 15 ∧ d.scale ≤ 22

instance (d : Decimal) : Decidable d.Short := inferInstanceAs (Decidable (_ ∧ _))

/-- Without its sign, a short decimal becomes the nearest double. -/
theorem Short.doubleOfParts_eq {d : Decimal} (h : d.Short) :
    doubleOfParts d.coeff.natAbs d.scale =
      double.nearest (d.coeff.natAbs / (tenTo d.scale : Nat)) :=
  doubleOfParts_eq_nearest h.1 h.2

/-- **The double of a short decimal** is read as that decimal. -/
theorem map_toRat_ofDouble?_toDouble {d : Decimal} (h : d.Short) :
    (ofDouble? d.toDouble).map toRat = some d.toRat := by
  have habs : (d.coeff.natAbs : Rat) / (tenTo d.scale : Nat) = |d.toRat| := by
    rw [← toRat_abs, toRat]
    exact congrArg (· / _) (Int.cast_natCast _).symm
  rw [toDouble, h.doubleOfParts_eq, ofDouble?]
  rcases Nat.eq_zero_or_pos d.coeff.natAbs with hzero | hpos
  · have hd : d.toRat = 0 := by rwa [hzero, Nat.cast_zero, zero_div, eq_comm, abs_eq_zero] at habs
    have hread : (ofSigned? (plainChars 0)).map toRat = some 0 := by decide +kernel
    simp [hzero, hd, hread]
  · have hx := (value_shortest_of_short hpos h.1 h.2 .up).1
    obtain ⟨digits, hchars, hvalue⟩ := exists_shortest_eq hpos h.1 h.2
    rw [habs] at hx hchars hvalue ⊢
    generalize double.nearest |d.toRat| = x at *
    cases hnegative : d.isNegative with
    | false =>
      have hplain : plainChars x = digits.magnitudeChars := by
        rw [plainChars, if_neg hx.ne', if_neg hx.not_gt, hchars]
      rw [if_neg Bool.false_ne_true, hplain, ofSigned?_magnitudeChars, Option.map_some, toRat_abs,
        hvalue, abs_abs, abs_of_nonneg (nonneg_of_not_isNegative hnegative)]
    | true =>
      have hplain : plainChars (-x) = '-' :: digits.magnitudeChars := by
        rw [plainChars, if_neg (neg_ne_zero.mpr hx.ne'), if_pos (neg_lt_zero.mpr hx), neg_neg,
          hchars]
      rw [if_pos rfl, hplain, ofSigned?, ofUnsigned?_magnitudeChars, Option.map_some,
        Option.map_some]
      change some (-digits.abs).toRat = _
      rw [toRat_neg, toRat_abs, hvalue, abs_abs, abs_of_neg (isNegative_iff.mp hnegative), neg_neg]

end Decimal
end CurrencyPad
