/-
CurrencyPad.Proofs.Decimal.Nearest — how far a result is from the exact one.

The checked operations give a decimal for an exact rational `x`, or nothing.
`Rounds x d s` says that `d` is a good choice: it is a multiple of
`10 ^ -s` with a coefficient within bounds, no multiple is nearer to `x`,
and a finer scale was not to be had, unless `x` itself was met.
`IsRounding x r` says of a checked result `r` that it is such a decimal,
and that nothing is only given for an `x` that is out of range.

Sums, differences and products are roundings of the exact ones
(`isRounding_add?`, `isRounding_sub?`, `isRounding_mul?`); that quotients
are is shown in `Proofs.Decimal.Quotient`. What a rounding costs depends
on the size of `x` alone (`Rounds.abs_sub_le`): below `10 ^ k` there is
room for `28 - k` fraction digits.
-/
import Mathlib.Algebra.Order.Field.Basic
import Mathlib.Algebra.Order.Round
import Mathlib.Data.Rat.Floor
import Mathlib.Tactic.FieldSimp
import Mathlib.Tactic.Linarith
import Mathlib.Tactic.Positivity
import CurrencyPad.Proofs.Decimal.Normal

namespace CurrencyPad

/-! ## 1. The two rules stay near -/

@[simp] theorem cast_tenTo (n : Nat) : ((tenTo n : Nat) : Rat) = 10 ^ n := by
  change ((10 ^ n : Nat) : Rat) = 10 ^ n
  push_cast
  rfl

theorem abs_div_ten_pow (x : Rat) (k : Nat) : |x / 10 ^ k| = |x| / 10 ^ k := by
  rw [abs_div, abs_of_pos (by positivity : (0 : Rat) < 10 ^ k)]

theorem abs_mul_ten_pow (x : Rat) (k : Nat) : |x * 10 ^ k| = |x| * 10 ^ k := by
  rw [abs_mul, abs_of_pos (by positivity : (0 : Rat) < 10 ^ k)]

/-- The distance to a multiple of `10 ^ -k`, in units of it. -/
theorem abs_div_ten_pow_sub (c x : Rat) (k : Nat) :
    |c / 10 ^ k - x| = |c - x * 10 ^ k| / 10 ^ k := by
  have hscaled : c / 10 ^ k - x = (c - x * 10 ^ k) / 10 ^ k := by field_simp
  rw [hscaled, abs_div_ten_pow]

/-- Rounding half to even goes no further than a half. -/
theorem Rounding.abs_toEven_sub_le (x : Rat) : |(toEven x : Rat) - x| ≤ 1 / 2 := by
  have hlow : (x.floor : Rat) ≤ x := Rat.floor_le x
  have hhigh : x < x.floor + 1 := by exact_mod_cast Rat.lt_floor_add_one x
  rw [toEven, abs_le]
  split_ifs <;> push_cast <;> constructor <;> linarith

namespace Decimal

/-- The value, with the power of ten written out. -/
theorem toRat_eq (d : Decimal) : d.toRat = d.coeff / 10 ^ d.scale := by
  rw [toRat, cast_tenTo]

theorem toRat_eq_zero_iff {d : Decimal} : d.toRat = 0 ↔ d.coeff = 0 := by
  rw [toRat_eq, div_eq_zero_iff, or_iff_left (by positivity)]
  exact_mod_cast Iff.rfl

theorem toRat_neg (d : Decimal) : (-d).toRat = -d.toRat := by
  rw [toRat_eq, toRat_eq]
  change ((-d.coeff : Int) : Rat) / 10 ^ d.scale = _
  push_cast
  ring

theorem toRat_abs (d : Decimal) : d.abs.toRat = |d.toRat| := by
  rw [toRat_eq, toRat_eq, abs_div_ten_pow, ← Int.cast_abs, Int.abs_eq_natAbs]
  rfl

theorem isNegative_iff {d : Decimal} : d.isNegative = true ↔ d.toRat < 0 := by
  rw [isNegative, decide_eq_true_iff, toRat_eq, div_lt_iff₀ (by positivity), zero_mul]
  exact_mod_cast Iff.rfl

theorem nonneg_of_not_isNegative {d : Decimal} (h : d.isNegative = false) : 0 ≤ d.toRat := by
  rw [← not_lt, ← isNegative_iff, h]
  decide

/-! ## 2. Nearest decimals -/

/-- The decimal is a multiple of `10 ^ -scale` nearest to `x`, at the finest scale
that has room for one. -/
structure Rounds (x : Rat) (d : Decimal) (scale : Nat) : Prop where
  scale_le : scale ≤ maxScale
  multiple : ∃ c : Int, c.natAbs < coeffBound ∧ d.toRat = c / 10 ^ scale
  near : |d.toRat - x| ≤ 1 / 2 / 10 ^ scale
  /-- The number was met, or there is no finer scale, or no room at the next one. -/
  finest : d.toRat = x ∨ scale = maxScale ∨
    (coeffBound : Rat) ≤ |x| * 10 ^ (scale + 1) + 1 / 2

/-- A checked result for `x`: a nearest decimal, or nothing when `x` is out of range. -/
def IsRounding (x : Rat) : Option Decimal → Prop
  | some d => ∃ scale, Rounds x d scale
  | none => (coeffBound : Rat) ≤ |x| + 1 / 2

/-- Only the number counts. -/
theorem Rounds.congr {x : Rat} {a b : Decimal} {scale : Nat} (h : Rounds x a scale)
    (heq : b.toRat = a.toRat) : Rounds x b scale := by
  obtain ⟨hscale, hmultiple, hnear, hfinest⟩ := h
  rw [← heq] at hmultiple hnear hfinest
  exact ⟨hscale, hmultiple, hnear, hfinest⟩

theorem IsRounding.congr {x : Rat} {r r' : Option Decimal} (h : IsRounding x r)
    (heq : r'.map toRat = r.map toRat) : IsRounding x r' := by
  cases r with
  | none =>
    obtain rfl : r' = none := by simpa using heq
    exact h
  | some d =>
    obtain ⟨d', rfl, hvalue⟩ := Option.map_eq_some_iff.mp heq
    obtain ⟨scale, hrounds⟩ := h
    exact ⟨scale, hrounds.congr hvalue⟩

/-- Below `10 ^ k` there is room for `28 - k` fraction digits, so that a nearest
decimal is off by at most half a unit of the last of them. -/
theorem Rounds.abs_sub_le {x : Rat} {d : Decimal} {scale k : Nat} (h : Rounds x d scale)
    (hk : k ≤ maxScale) (hx : |x| < 10 ^ k) : |d.toRat - x| ≤ 1 / 2 / 10 ^ (maxScale - k) := by
  rcases h.finest with heq | hroom
  · rw [heq, sub_self, abs_zero]
    positivity
  · have hscale : maxScale - k ≤ scale := by
      rcases hroom with heq | hroom
      · omega
      · -- with fewer digits the next scale would have room
        by_contra hlt
        have hpow : |x| * 10 ^ (scale + 1) ≤ 10 ^ maxScale := by
          calc |x| * 10 ^ (scale + 1) ≤ 10 ^ k * 10 ^ (scale + 1) := by gcongr
            _ = 10 ^ (k + (scale + 1)) := (pow_add _ _ _).symm
            _ ≤ 10 ^ maxScale := pow_le_pow_right₀ (by norm_num) (by omega)
        have hbound : (10 : Rat) ^ maxScale + 1 / 2 < (coeffBound : Rat) := by
          norm_num [maxScale, coeffBound]
        linarith
    refine h.near.trans ?_
    gcongr
    norm_num

/-- A number below `10 ^ 28` is never out of range. -/
theorem IsRounding.exists_of_lt {x : Rat} {r : Option Decimal} (h : IsRounding x r)
    (hx : |x| < 10 ^ maxScale) : ∃ d scale, r = some d ∧ Rounds x d scale := by
  cases r with
  | some d =>
    obtain ⟨scale, hrounds⟩ := h
    exact ⟨d, scale, rfl, hrounds⟩
  | none =>
    have hbound : (10 : Rat) ^ maxScale + 1 / 2 < (coeffBound : Rat) := by
      norm_num [maxScale, coeffBound]
    have : (coeffBound : Rat) ≤ |x| + 1 / 2 := h
    linarith

/-! ## 3. The largest scale that fits -/

theorem lt_coeffBound_iff {c : Int} : c.natAbs < coeffBound ↔ |(c : Rat)| < coeffBound := by
  rw [← Int.cast_abs, Int.abs_eq_natAbs]
  exact_mod_cast Iff.rfl

theorem abs_coeffAt_sub_le (x : Rat) (scale : Nat) :
    |(coeffAt x scale : Rat) - x * 10 ^ scale| ≤ 1 / 2 := by
  rw [coeffAt, cast_tenTo]
  exact Rounding.abs_toEven_sub_le _

/-- A coefficient without room belongs to a number that has none either. -/
theorem le_of_not_fits {x : Rat} {scale : Nat}
    (h : ¬(coeffAt x scale).natAbs < coeffBound) :
    (coeffBound : Rat) ≤ |x| * 10 ^ scale + 1 / 2 := by
  rw [lt_coeffBound_iff, not_lt] at h
  have hnear := abs_coeffAt_sub_le x scale
  have htri : |(coeffAt x scale : Rat)| ≤ |(coeffAt x scale : Rat) - x * 10 ^ scale|
      + |x * 10 ^ scale| := by
    simpa using abs_add_le ((coeffAt x scale : Rat) - x * 10 ^ scale) (x * 10 ^ scale)
  rw [abs_mul_ten_pow] at htri
  linarith

theorem fittingScale?_eq_none {x : Rat} {places : Nat} (h : fittingScale? x places = none) :
    ¬(coeffAt x 0).natAbs < coeffBound := by
  induction places with
  | zero =>
    rw [fittingScale?] at h
    split at h
    · simp at h
    · assumption
  | succ places ih =>
    rw [fittingScale?] at h
    split at h
    · simp at h
    · exact ih h

/-- The scale that is found fits, and it is the last one or the next does not fit. -/
theorem fittingScale?_eq_some {x : Rat} {places scale : Nat}
    (h : fittingScale? x places = some scale) :
    scale ≤ places ∧ (coeffAt x scale).natAbs < coeffBound ∧
      (scale = places ∨ ¬(coeffAt x (scale + 1)).natAbs < coeffBound) := by
  induction places with
  | zero =>
    rw [fittingScale?] at h
    split at h
    · rename_i hfits
      obtain rfl : 0 = scale := by simpa using h
      exact ⟨le_refl _, hfits, .inl rfl⟩
    · simp at h
  | succ places ih =>
    rw [fittingScale?] at h
    split at h
    · rename_i hfits
      obtain rfl : places + 1 = scale := by simpa using h
      exact ⟨le_refl _, hfits, .inl rfl⟩
    · rename_i hnext
      obtain ⟨hle, hfits, hlast⟩ := ih h
      refine ⟨by omega, hfits, .inr ?_⟩
      rcases hlast with rfl | hlast
      · exact hnext
      · exact hlast

theorem ofParts?_of_lt {c : Int} {scale : Nat} (hc : c.natAbs < coeffBound)
    (hscale : scale ≤ maxScale) :
    ∃ d, ofParts? c scale = some d ∧ d.toRat = c / 10 ^ scale := by
  refine ⟨_, by rw [ofParts?, dif_pos ⟨hc, hscale⟩], ?_⟩
  rw [toRat_eq]

theorem toRat_of_ofParts? {c : Int} {scale : Nat} {d : Decimal}
    (h : ofParts? c scale = some d) : d.toRat = c / 10 ^ scale := by
  rw [ofParts?] at h
  split at h
  · obtain rfl := Option.some.inj h
    rw [toRat_eq]
  · simp at h

/-! ## 4. Numbers with so many places -/

/-- `x` has no more than the given number of fraction digits. -/
def HasPlaces (x : Rat) (places : Nat) : Prop := ∃ c : Int, x = c / 10 ^ places

theorem toEven_eq_of_eq {x : Rat} {c : Int} (h : x = c) : Rounding.toEven x = c := by
  rw [h, Rounding.toEven_intCast]

/-- The nearest decimal has the coefficient at the scale that was found. There is none when
`x` has no room as a whole number. -/
theorem nearest?_cases (x : Rat) (places : Nat) :
    (nearest? x places = none ∧ (coeffBound : Rat) ≤ |x| + 1 / 2) ∨
      ∃ d scale, nearest? x places = some d ∧ scale ≤ min places maxScale ∧
        (coeffAt x scale).natAbs < coeffBound ∧ d.toRat = coeffAt x scale / 10 ^ scale ∧
        (scale = min places maxScale ∨
          (coeffBound : Rat) ≤ |x| * 10 ^ (scale + 1) + 1 / 2) := by
  rw [nearest?]
  cases hfit : fittingScale? x (min places maxScale) with
  | none =>
    have hlarge := le_of_not_fits (fittingScale?_eq_none hfit)
    rw [pow_zero, mul_one] at hlarge
    exact .inl ⟨rfl, hlarge⟩
  | some scale =>
    obtain ⟨hle, hfits, hlast⟩ := fittingScale?_eq_some hfit
    obtain ⟨d, hd, hvalue⟩ := ofParts?_of_lt hfits (hle.trans (min_le_right _ _))
    exact .inr ⟨d, scale, hd, hle, hfits, hvalue, hlast.imp_right le_of_not_fits⟩

/-- It is as near as there is room for. -/
theorem abs_coeffAt_div_sub_le (x : Rat) (scale : Nat) :
    |(coeffAt x scale : Rat) / 10 ^ scale - x| ≤ 1 / 2 / 10 ^ scale := by
  rw [abs_div_ten_pow_sub]
  exact div_le_div_of_nonneg_right (abs_coeffAt_sub_le x scale) (by positivity)

/-- **The nearest decimal** with as many fraction digits as `x` has, or with all there
are, is a rounding of `x`. -/
theorem isRounding_nearest? {x : Rat} {places : Nat} (hplaces : HasPlaces x places) :
    IsRounding x (nearest? x places) := by
  rcases nearest?_cases x places with ⟨hnone, hlarge⟩ | ⟨d, scale, hd, hle, hfits, hvalue, hlast⟩
  · rw [hnone]
    exact hlarge
  · rw [hd]
    refine ⟨scale, hle.trans (min_le_right _ _), ⟨_, hfits, hvalue⟩,
      hvalue ▸ abs_coeffAt_div_sub_le x scale, ?_⟩
    rcases hlast with hlast | hlast
    · rcases le_total maxScale places with hmax | hmax
      · exact .inr (.inl (by omega))
      · -- all the digits of `x` are there
        obtain rfl : scale = places := by omega
        obtain ⟨c, rfl⟩ := hplaces
        left
        rw [hvalue, coeffAt, toEven_eq_of_eq (c := c)]
        rw [cast_tenTo]
        field_simp
    · exact .inr (.inr hlast)

theorem hasPlaces_toRat (d : Decimal) : HasPlaces d.toRat d.scale := ⟨d.coeff, d.toRat_eq⟩

theorem HasPlaces.mono {x : Rat} {p q : Nat} (h : HasPlaces x p) (hpq : p ≤ q) :
    HasPlaces x q := by
  obtain ⟨c, rfl⟩ := h
  refine ⟨c * 10 ^ (q - p), ?_⟩
  have hsplit : (10 : Rat) ^ q = 10 ^ p * 10 ^ (q - p) := by rw [← pow_add]; congr 1; omega
  rw [hsplit]
  push_cast
  field_simp

theorem HasPlaces.add {x y : Rat} {p : Nat} (hx : HasPlaces x p) (hy : HasPlaces y p) :
    HasPlaces (x + y) p := by
  obtain ⟨c, rfl⟩ := hx
  obtain ⟨c', rfl⟩ := hy
  exact ⟨c + c', by push_cast; ring⟩

theorem HasPlaces.neg {x : Rat} {p : Nat} (hx : HasPlaces x p) : HasPlaces (-x) p := by
  obtain ⟨c, rfl⟩ := hx
  exact ⟨-c, by push_cast; ring⟩

theorem HasPlaces.mul {x y : Rat} {p q : Nat} (hx : HasPlaces x p) (hy : HasPlaces y q) :
    HasPlaces (x * y) (p + q) := by
  obtain ⟨c, rfl⟩ := hx
  obtain ⟨c', rfl⟩ := hy
  exact ⟨c * c', by rw [pow_add]; push_cast; field_simp⟩

theorem hasPlaces_add (a b : Decimal) : HasPlaces (a.toRat + b.toRat) (max a.scale b.scale) :=
  (a.hasPlaces_toRat.mono (le_max_left _ _)).add (b.hasPlaces_toRat.mono (le_max_right _ _))

theorem hasPlaces_sub (a b : Decimal) : HasPlaces (a.toRat - b.toRat) (max a.scale b.scale) := by
  rw [sub_eq_add_neg]
  exact (a.hasPlaces_toRat.mono (le_max_left _ _)).add
    (b.hasPlaces_toRat.mono (le_max_right _ _)).neg

/-! ## 5. The places that are asked for -/

/-- More places than `x` has make no difference to the number. -/
theorem map_toRat_nearest?_succ {x : Rat} {places : Nat} (h : HasPlaces x places) :
    (nearest? x (places + 1)).map toRat = (nearest? x places).map toRat := by
  rcases Nat.lt_or_ge places maxScale with hlt | hge
  · rw [nearest?, nearest?, Nat.min_eq_left hlt, Nat.min_eq_left hlt.le, fittingScale?]
    split
    · -- one place more than needed has room, so the places needed have room too
      rename_i hfits
      obtain ⟨c, hc⟩ := h
      have hcoeff : coeffAt x places = c := by
        rw [coeffAt, cast_tenTo]
        exact toEven_eq_of_eq (by rw [hc]; field_simp)
      have hnext : coeffAt x (places + 1) = 10 * c := by
        rw [coeffAt, cast_tenTo]
        exact toEven_eq_of_eq (by rw [hc, pow_succ]; push_cast; field_simp)
      rw [hnext] at hfits
      have hfits' : c.natAbs < coeffBound := by omega
      rw [fittingScale?_of_fits (by rwa [hcoeff])]
      obtain ⟨d, hd, hvalue⟩ := ofParts?_of_lt hfits hlt
      obtain ⟨d', hd', hvalue'⟩ := ofParts?_of_lt hfits' hlt.le
      simp only [Option.bind_eq_bind, Option.bind_some, hcoeff, hnext, hd, hd', Option.map_some,
        Option.some.injEq]
      rw [hvalue, hvalue', Nat.succ_eq_add_one, pow_succ]
      push_cast
      field_simp
    · rfl
  · rw [nearest?, nearest?, Nat.min_eq_right hge, Nat.min_eq_right (by omega)]

theorem map_toRat_nearest?_of_le {x : Rat} {p q : Nat} (h : HasPlaces x p) (hpq : p ≤ q) :
    (nearest? x q).map toRat = (nearest? x p).map toRat := by
  induction q, hpq using Nat.le_induction with
  | base => rfl
  | succ q hpq ih => rw [map_toRat_nearest?_succ (h.mono hpq), ih]

/-- **How many places are asked for** makes no difference to the number, if `x` has no more. -/
theorem map_toRat_nearest?_congr {x : Rat} {p q : Nat} (hp : HasPlaces x p)
    (hq : HasPlaces x q) : (nearest? x p).map toRat = (nearest? x q).map toRat := by
  rcases le_total p q with hpq | hqp
  · exact (map_toRat_nearest?_of_le hp hpq).symm
  · exact map_toRat_nearest?_of_le hq hqp

/-- A number that some decimal has is its own nearest decimal. -/
theorem map_toRat_nearest?_of_eq {x : Rat} {places : Nat} (hplaces : HasPlaces x places)
    {d : Decimal} (h : x = d.toRat) : (nearest? x places).map toRat = some d.toRat := by
  rw [map_toRat_nearest?_congr hplaces (h ▸ d.hasPlaces_toRat), h, map_toRat_nearest?_toRat]

/-! ## 6. Sums and products -/

/-- **A sum** is the nearest decimal to the exact sum, whether or not an operand is left out
because it is zero. -/
theorem map_toRat_add? (a b : Decimal) :
    (a.add? b).map toRat =
      (nearest? (a.toRat + b.toRat) (max a.scale b.scale)).map toRat := by
  rw [add?]
  split_ifs with ha hb
  · rw [map_toRat_nearest?_of_eq (hasPlaces_add a b) (d := b)
      (by rw [toRat_eq_zero_iff.mpr ha, zero_add]), Option.map_some]
  · rw [map_toRat_nearest?_of_eq (hasPlaces_add a b) (d := a)
      (by rw [toRat_eq_zero_iff.mpr hb, add_zero]), Option.map_some]
  · rfl

/-- **A difference** is the nearest decimal to the exact difference. -/
theorem map_toRat_sub? (a b : Decimal) :
    (a.sub? b).map toRat =
      (nearest? (a.toRat - b.toRat) (max a.scale b.scale)).map toRat := by
  rw [sub?]
  split_ifs with ha hb
  · rw [map_toRat_nearest?_of_eq (hasPlaces_sub a b) (d := -b)
      (by rw [toRat_eq_zero_iff.mpr ha, zero_sub, toRat_neg]), Option.map_some]
  · rw [map_toRat_nearest?_of_eq (hasPlaces_sub a b) (d := a)
      (by rw [toRat_eq_zero_iff.mpr hb, sub_zero]), Option.map_some]
  · rfl

/-- **A product** is the nearest decimal to the exact product. -/
theorem map_toRat_mul? (a b : Decimal) :
    (a.mul? b).map toRat = (nearest? (a.toRat * b.toRat) (a.scale + b.scale)).map toRat := by
  rw [mul?]
  split_ifs with hzero
  · have hproduct : a.toRat * b.toRat = zero.toRat := by
      rw [toRat_eq_zero_iff.mpr (rfl : zero.coeff = 0), mul_eq_zero, toRat_eq_zero_iff,
        toRat_eq_zero_iff]
      exact hzero
    rw [map_toRat_nearest?_of_eq (a.hasPlaces_toRat.mul b.hasPlaces_toRat) hproduct,
      Option.map_some]
  · rfl

/-- A sum is a rounding of the exact sum. -/
theorem isRounding_add? (a b : Decimal) : IsRounding (a.toRat + b.toRat) (a.add? b) :=
  (isRounding_nearest? (hasPlaces_add a b)).congr (map_toRat_add? a b)

/-- A difference is a rounding of the exact difference. -/
theorem isRounding_sub? (a b : Decimal) : IsRounding (a.toRat - b.toRat) (a.sub? b) :=
  (isRounding_nearest? (hasPlaces_sub a b)).congr (map_toRat_sub? a b)

/-- A product is a rounding of the exact product. -/
theorem isRounding_mul? (a b : Decimal) : IsRounding (a.toRat * b.toRat) (a.mul? b) :=
  (isRounding_nearest? (a.hasPlaces_toRat.mul b.hasPlaces_toRat)).congr (map_toRat_mul? a b)

/-! ## 7. Only the numbers count -/

variable {a a' b b' : Decimal}

/-- The spelling of the summands makes no difference to the sum. -/
theorem map_toRat_add?_congr (ha : a.toRat = a'.toRat) (hb : b.toRat = b'.toRat) :
    (a.add? b).map toRat = (a'.add? b').map toRat := by
  rw [map_toRat_add?, map_toRat_add?, ha, hb]
  exact map_toRat_nearest?_congr (ha ▸ hb ▸ hasPlaces_add a b) (hasPlaces_add a' b')

/-- Nor does that of the two numbers of a difference. -/
theorem map_toRat_sub?_congr (ha : a.toRat = a'.toRat) (hb : b.toRat = b'.toRat) :
    (a.sub? b).map toRat = (a'.sub? b').map toRat := by
  rw [map_toRat_sub?, map_toRat_sub?, ha, hb]
  exact map_toRat_nearest?_congr (ha ▸ hb ▸ hasPlaces_sub a b) (hasPlaces_sub a' b')

/-- Nor that of the factors of a product. -/
theorem map_toRat_mul?_congr (ha : a.toRat = a'.toRat) (hb : b.toRat = b'.toRat) :
    (a.mul? b).map toRat = (a'.mul? b').map toRat := by
  have hplaces : HasPlaces (a'.toRat * b'.toRat) (a.scale + b.scale) :=
    ha ▸ hb ▸ a.hasPlaces_toRat.mul b.hasPlaces_toRat
  rw [map_toRat_mul?, map_toRat_mul?, ha, hb]
  exact map_toRat_nearest?_congr hplaces (a'.hasPlaces_toRat.mul b'.hasPlaces_toRat)

/-- To subtract a number is to add its opposite. -/
theorem map_toRat_sub?_eq (a : Decimal) (h : b.toRat = -b'.toRat) :
    (a.sub? b).map toRat = (a.add? b').map toRat := by
  have heq : a.toRat - b.toRat = a.toRat + b'.toRat := by rw [h]; ring
  rw [map_toRat_sub?, map_toRat_add?, heq]
  exact map_toRat_nearest?_congr (heq ▸ hasPlaces_sub a b) (hasPlaces_add a b')

end Decimal
end CurrencyPad
