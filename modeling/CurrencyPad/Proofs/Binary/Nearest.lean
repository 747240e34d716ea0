/-
CurrencyPad.Proofs.Binary.Nearest — the numbers of a binary format, and
rounding to them.

A positive number of a format is a coefficient times a power of two, in
exactly one way: the coefficient uses all bits, or the exponent is the
smallest one (`Spells`). Rounding finds such a number (`nearest_cases`),
and all rationals up to half a unit away from a number of the format round
to it (`Spells.nearest_eq_of_near`), with one exception: below a power of
two the numbers lie twice as dense.
-/
import Mathlib.Algebra.Order.Field.Power
import Mathlib.Tactic.GCongr
import CurrencyPad.Binary.Basic
import CurrencyPad.Proofs.Decimal.Nearest

namespace CurrencyPad

/-! ## 1. Powers and whole numbers -/

theorem power_eq (base : Nat) (e : Int) : power base e = (base : Rat) ^ e := by
  rw [power]
  split
  · rename_i h
    obtain ⟨n, rfl⟩ := Int.eq_ofNat_of_zero_le h
    change ((base ^ n : Nat) : Rat) = _
    simp
  · rename_i h
    obtain ⟨n, hn⟩ := Int.eq_ofNat_of_zero_le (show 0 ≤ -e by omega)
    obtain rfl : e = -n := by omega
    change 1 / ((base ^ (- -(n : Int)).toNat : Nat) : Rat) = _
    simp

theorem two_zpow_pos (e : Int) : (0 : Rat) < 2 ^ e := by positivity

theorem floor_eq {z : Rat} {k : Int} (hlow : k ≤ z) (hhigh : z < k + 1) : z.floor = k := by
  have hle : k ≤ z.floor := Rat.le_floor_iff.mpr hlow
  have hlt : z.floor < k + 1 := Rat.floor_lt_iff.mpr (by exact_mod_cast hhigh)
  omega

theorem zpow_log2 {n : Nat} (hn : n ≠ 0) :
    (2 : Rat) ^ (Nat.log2 n : Int) ≤ n ∧ (n : Rat) < 2 ^ ((Nat.log2 n : Int) + 1) := by
  constructor
  · rw [zpow_natCast]
    exact_mod_cast Nat.log2_self_le hn
  · rw [show ((Nat.log2 n : Int) + 1) = ((Nat.log2 n + 1 : Nat) : Int) by push_cast; rfl,
      zpow_natCast]
    exact_mod_cast Nat.lt_log2_self

namespace Rounding

/-- A whole number nearer than a half is the nearest one. -/
theorem toEven_eq_of_lt {z : Rat} {k : Int} (h : |z - k| < 1 / 2) : toEven z = k := by
  have hnear := abs_toEven_sub_le z
  have hlt : |((toEven z - k : Int) : Rat)| < 1 := by
    push_cast
    calc |(toEven z : Rat) - k| = |((toEven z : Rat) - z) + (z - k)| := by ring_nf
      _ ≤ |(toEven z : Rat) - z| + |z - k| := abs_add_le _ _
      _ < 1 := by linarith
  have hzero : |toEven z - k| < 1 := by exact_mod_cast hlt
  rw [abs_lt] at hzero
  omega

/-- An even number no further than a half is the nearest one. -/
theorem toEven_eq_of_even {z : Rat} {k : Int} (h : |z - k| ≤ 1 / 2) (heven : k % 2 = 0) :
    toEven z = k := by
  rcases h.lt_or_eq with hlt | heq
  · exact toEven_eq_of_lt hlt
  · rcases (abs_eq (by norm_num)).mp heq with heq | heq
    · -- half above
      have hfloor : z.floor = k := floor_eq (by linarith) (by linarith)
      rw [toEven, hfloor, if_neg (by linarith), if_neg (by linarith), if_pos heven]
    · -- half below
      have hfloor : z.floor = k - 1 :=
        floor_eq (by push_cast; linarith) (by push_cast; linarith)
      rw [toEven, hfloor]
      push_cast
      rw [if_neg (by linarith), if_neg (by linarith), if_neg (by omega)]
      omega

/-- A half goes to an even number. -/
theorem abs_lt_or_even (z : Rat) : |z - toEven z| < 1 / 2 ∨ toEven z % 2 = 0 := by
  have hlow : (z.floor : Rat) ≤ z := Rat.floor_le z
  have hhigh : z < z.floor + 1 := by exact_mod_cast Rat.lt_floor_add_one z
  rw [toEven]
  split_ifs with hbelow habove heven
  · exact .inl (by rw [abs_of_nonneg (by linarith)]; exact hbelow)
  · refine .inl ?_
    push_cast
    rw [abs_of_nonpos (by linarith)]
    linarith
  · exact .inr heven
  · exact .inr (by omega)

theorem toEven_nonneg {z : Rat} (h : 0 ≤ z) : 0 ≤ toEven z := by
  have hfloor : 0 ≤ z.floor := Rat.le_floor_iff.mpr (by exact_mod_cast h)
  rw [toEven]
  split_ifs <;> omega

/-- Rounding does not go beyond a whole number. -/
theorem toEven_le_of_le {z : Rat} {n : Int} (h : z ≤ n) : toEven z ≤ n := by
  have hnear := (abs_le.mp (abs_toEven_sub_le z)).2
  have hlt : (toEven z : Rat) < n + 1 := by linarith
  have : toEven z < n + 1 := by exact_mod_cast hlt
  omega

theorem le_toEven_of_le {z : Rat} {n : Int} (h : (n : Rat) ≤ z) : n ≤ toEven z := by
  have hnear := (abs_le.mp (abs_toEven_sub_le z)).1
  have hlt : (n : Rat) < toEven z + 1 := by linarith
  have : n < toEven z + 1 := by exact_mod_cast hlt
  omega

end Rounding

namespace Binary

/-! ## 2. The leading bit -/

/-- The leading bit of a positive number is worth no more than it, and half of it less. -/
theorem zpow_leadingBit {x : Rat} (hx : 0 < x) :
    (2 : Rat) ^ leadingBit x ≤ x ∧ x < 2 ^ (leadingBit x + 1) := by
  have hnum : 0 < x.num := Rat.num_pos.mpr hx
  have hdpos : (0 : Rat) < x.den := by exact_mod_cast x.den_pos
  have hvalue : x = (x.num.natAbs : Rat) / x.den := by
    have hcast : ((x.num.natAbs : Int) : Rat) = (x.num : Rat) := by
      rw [Int.natAbs_of_nonneg hnum.le]
    rw [← Int.cast_natCast, hcast]
    exact (Rat.num_div_den x).symm
  obtain ⟨hnlow, hnhigh⟩ := zpow_log2 (n := x.num.natAbs) (by omega)
  obtain ⟨hdlow, hdhigh⟩ := zpow_log2 (n := x.den) x.den_nz
  rw [leadingBit, power_eq]
  generalize (Nat.log2 x.num.natAbs : Int) = a at *
  generalize (Nat.log2 x.den : Int) = b at *
  have hlow : (2 : Rat) ^ (a - b - 1) ≤ x := by
    rw [hvalue, le_div_iff₀ hdpos]
    calc (2 : Rat) ^ (a - b - 1) * x.den ≤ 2 ^ (a - b - 1) * 2 ^ (b + 1) := by gcongr
      _ = 2 ^ a := by rw [← zpow_add₀ (by norm_num)]; congr 1; omega
      _ ≤ x.num.natAbs := hnlow
  have hhigh : x < 2 ^ (a - b + 1) := by
    rw [hvalue, div_lt_iff₀ hdpos]
    calc (x.num.natAbs : Rat) < 2 ^ (a + 1) := hnhigh
      _ = 2 ^ (a - b + 1) * 2 ^ b := by rw [← zpow_add₀ (by norm_num)]; congr 1; omega
      _ ≤ 2 ^ (a - b + 1) * x.den := by gcongr
  push_cast
  split
  · rename_i hle
    exact ⟨hle, hhigh⟩
  · rename_i hlt
    rw [sub_add_cancel]
    exact ⟨hlow, not_le.mp hlt⟩

theorem leadingBit_lt {x : Rat} {e : Int} (hx : 0 < x) (h : x < 2 ^ e) : leadingBit x < e :=
  (zpow_lt_zpow_iff_right₀ (by norm_num)).mp ((zpow_leadingBit hx).1.trans_lt h)

theorem le_leadingBit {x : Rat} {e : Int} (hx : 0 < x) (h : (2 : Rat) ^ e ≤ x) :
    e ≤ leadingBit x := by
  have hlt : e < leadingBit x + 1 :=
    (zpow_lt_zpow_iff_right₀ (a := (2 : Rat)) (by norm_num)).mp (h.trans_lt (zpow_leadingBit hx).2)
  omega

/-! ## 3. The numbers of a format -/

/-- A positive number of the format: a coefficient with all its bits, or with the smallest
exponent. -/
structure Format.Spells (f : Format) (x : Rat) (m : Nat) (q : Int) : Prop where
  value : x = m * 2 ^ q
  pos : 0 < m
  lt : m < 2 ^ f.precision
  lowest_le : f.lowest ≤ q
  full : q = f.lowest ∨ 2 ^ (f.precision - 1) ≤ m

variable {f : Format} {x : Rat} {m : Nat} {q : Int}

theorem Format.Spells.pos_value (h : f.Spells x m q) : 0 < x := by
  have hm : (0 : Rat) < m := by exact_mod_cast h.pos
  rw [h.value]
  positivity

/-- The exponent that is kept of a number between `2 ^ (q + precision - 1)` and
`2 ^ (q + precision)`, and of a smaller one, if `q` is the smallest exponent. -/
theorem Format.lastBit_eq (hf : 0 < f.precision) (hx : 0 < x) (hq : f.lowest ≤ q)
    (hlow : q = f.lowest ∨ 2 ^ (q + (f.precision - 1 : Nat)) ≤ x)
    (hhigh : x < 2 ^ (q + f.precision)) : f.lastBit x = q := by
  have hlt := leadingBit_lt hx hhigh
  rw [Format.lastBit]
  rcases hlow with rfl | hlow
  · omega
  · have hle := le_leadingBit hx hlow
    omega

/-- The exponent of the last bit and the coefficient that it leaves. -/
theorem Format.Spells.lastBit_eq (hf : 0 < f.precision) (h : f.Spells x m q) :
    f.lastBit x = q := by
  refine f.lastBit_eq hf h.pos_value h.lowest_le ?_ ?_
  · refine h.full.imp_right fun hm => ?_
    have hcast : (2 : Rat) ^ (f.precision - 1) ≤ m := by exact_mod_cast hm
    rw [h.value, zpow_add₀ (by norm_num), zpow_natCast, mul_comm]
    gcongr
  · have hcast : (m : Rat) < 2 ^ f.precision := by exact_mod_cast h.lt
    rw [h.value, zpow_add₀ (by norm_num), zpow_natCast, mul_comm]
    gcongr

/-- Rounding a positive number. -/
theorem Format.nearest_of_pos (hx : 0 < x) :
    f.nearest x = Rounding.toEven (x / 2 ^ f.lastBit x) * 2 ^ f.lastBit x := by
  rw [Format.nearest, if_neg hx.ne', if_neg (not_lt.mpr hx.le), power_eq]
  push_cast
  rfl

@[simp] theorem Format.nearest_zero : f.nearest 0 = 0 := if_pos rfl

/-- The distance to a number of the format, in units of `2 ^ q`. -/
theorem abs_div_sub (y : Rat) (m : Int) (q : Int) :
    |y / 2 ^ q - m| = |y - m * 2 ^ q| / 2 ^ q := by
  have hpow := two_zpow_pos q
  have hscaled : y / 2 ^ q - m = (y - m * 2 ^ q) / 2 ^ q := by field_simp
  rw [hscaled, abs_div, abs_of_pos hpow]

/-! ## 4. What rounds to a number of the format -/

/-- Within half a unit, from above or where the numbers do not lie denser below. -/
theorem Format.Spells.nearest_eq_of_near (hf : 0 < f.precision) (h : f.Spells x m q) {y : Rat}
    (hnear : |y - x| ≤ 1 / 2 * 2 ^ q) (htie : |y - x| < 1 / 2 * 2 ^ q ∨ m % 2 = 0)
    (hside : q = f.lowest ∨ 2 ^ (f.precision - 1) < m ∨ x ≤ y) : f.nearest y = x := by
  have hu := two_zpow_pos q
  obtain ⟨hbelow, habove⟩ := abs_le.mp hnear
  have hmpos : (1 : Rat) ≤ m := by exact_mod_cast h.pos
  have hmlt : (m : Rat) + 1 ≤ 2 ^ f.precision := by exact_mod_cast h.lt
  have hypos : 0 < y := by
    have : (1 : Rat) * 2 ^ q ≤ m * 2 ^ q := by gcongr
    rw [h.value] at hbelow
    linarith
  have hlast : f.lastBit y = q := by
    refine f.lastBit_eq hf hypos h.lowest_le ?_ ?_
    · rcases hside with hlow | hlt | hle
      · exact .inl hlow
      · have hm : ((2 : Rat) ^ (f.precision - 1) + 1) ≤ m := by exact_mod_cast hlt
        have hscaled : ((2 : Rat) ^ (f.precision - 1) + 1) * 2 ^ q ≤ m * 2 ^ q := by gcongr
        rw [h.value] at hbelow
        rw [zpow_add₀ (by norm_num), zpow_natCast]
        exact .inr (by linarith)
      · refine h.full.imp_right fun hm => ?_
        have hcast : (2 : Rat) ^ (f.precision - 1) ≤ m := by exact_mod_cast hm
        have hscaled : (2 : Rat) ^ (f.precision - 1) * 2 ^ q ≤ m * 2 ^ q := by gcongr
        rw [h.value] at hle
        rw [zpow_add₀ (by norm_num), zpow_natCast]
        linarith
    · have hscaled : ((m : Rat) + 1) * 2 ^ q ≤ 2 ^ f.precision * 2 ^ q := by gcongr
      rw [h.value] at habove
      rw [zpow_add₀ (by norm_num), zpow_natCast]
      linarith
  have hcoeff : Rounding.toEven (y / 2 ^ q) = m := by
    have hvalue : x = (m : Int) * 2 ^ q := by exact_mod_cast h.value
    rcases htie with hlt | heven
    · refine Rounding.toEven_eq_of_lt ?_
      rwa [abs_div_sub, ← hvalue, div_lt_iff₀ hu]
    · refine Rounding.toEven_eq_of_even ?_ (by omega)
      rwa [abs_div_sub, ← hvalue, div_le_iff₀ hu]
  rw [f.nearest_of_pos hypos, hlast, hcoeff, h.value]
  push_cast
  rfl

/-- Below a power of two the numbers lie twice as dense. -/
theorem Format.Spells.nearest_eq_of_below (hf : 0 < f.precision) (h : f.Spells x m q) {y : Rat}
    (hm : m = 2 ^ (f.precision - 1)) (hq : f.lowest < q) (hnear : x - 1 / 4 * 2 ^ q ≤ y)
    (hlt : y < x) : f.nearest y = x := by
  have hu := two_zpow_pos q
  have hhalf : (2 : Rat) ^ q = 2 * 2 ^ (q - 1) := by
    rw [← zpow_one_add₀ (by norm_num)]
    congr 1
    omega
  have hmcast : (m : Rat) = 2 ^ (f.precision - 1) := by rw [hm]; push_cast; rfl
  have hone : (1 : Rat) ≤ 2 ^ (f.precision - 1) := one_le_pow₀ (by norm_num)
  have hvalue : x = 2 ^ (f.precision - 1) * (2 * 2 ^ (q - 1)) := by rw [h.value, hmcast, hhalf]
  have hpow : (2 : Rat) ^ (q - 1 + (f.precision - 1 : Nat)) = 2 ^ (f.precision - 1) * 2 ^ (q - 1) := by
    rw [zpow_add₀ (by norm_num), zpow_natCast, mul_comm]
  have hmul : (1 : Rat) * 2 ^ (q - 1) ≤ 2 ^ (f.precision - 1) * 2 ^ (q - 1) := by gcongr
  have hu' := two_zpow_pos (q - 1)
  have hypos : 0 < y := by linarith
  have hlast : f.lastBit y = q - 1 := by
    refine f.lastBit_eq hf hypos (by omega) (.inr ?_) ?_
    · rw [hpow]
      linarith
    · have hsucc : (2 : Rat) ^ (q - 1 + f.precision) = 2 * 2 ^ (q - 1 + (f.precision - 1 : Nat)) := by
        rw [← zpow_one_add₀ (by norm_num)]
        congr 1
        omega
      rw [hsucc, hpow]
      linarith
  have hcoeff : Rounding.toEven (y / 2 ^ (q - 1)) = ((2 * m : Nat) : Int) := by
    refine Rounding.toEven_eq_of_even ?_ (by omega)
    rw [abs_div_sub, div_le_iff₀ hu']
    push_cast
    rw [hmcast, abs_le]
    constructor <;> linarith
  rw [f.nearest_of_pos hypos, hlast, hcoeff, hvalue]
  push_cast
  rw [hmcast]
  ring

/-! ## 5. Rounding gives a number of the format -/

/-- In units of its last bit a number has no more bits than the format keeps, and all of them
unless the exponent is the smallest one. -/
theorem Format.lastBit_bounds (hf : 0 < f.precision) (hx : 0 < x) :
    x ≤ 2 ^ f.precision * 2 ^ f.lastBit x ∧
      (f.lastBit x = f.lowest ∨ 2 ^ (f.precision - 1) * 2 ^ f.lastBit x ≤ x) := by
  obtain ⟨hlow, hhigh⟩ := zpow_leadingBit hx
  constructor
  · have hle : leadingBit x + 1 ≤ f.precision + f.lastBit x := by
      rw [Format.lastBit]
      omega
    rw [← zpow_natCast, ← zpow_add₀ (by norm_num)]
    exact hhigh.le.trans (zpow_le_zpow_right₀ (by norm_num) hle)
  · rcases max_choice f.lowest (leadingBit x - (f.precision - 1)) with heq | heq
    · exact .inl heq
    · have hle : ((f.precision - 1 : Nat) : Int) + f.lastBit x ≤ leadingBit x := by
        rw [Format.lastBit]
        omega
      rw [← zpow_natCast, ← zpow_add₀ (by norm_num)]
      exact .inr ((zpow_le_zpow_right₀ (by norm_num) hle).trans hlow)

/-- Rounding moves a number by half a unit at most. -/
theorem Format.abs_nearest_sub_le (f : Format) (hx : 0 < x) :
    |f.nearest x - x| ≤ 1 / 2 * 2 ^ f.lastBit x := by
  have hu := two_zpow_pos (f.lastBit x)
  have hnear := Rounding.abs_toEven_sub_le (x / 2 ^ f.lastBit x)
  rw [abs_sub_comm, abs_div_sub, div_le_iff₀ hu, abs_sub_comm] at hnear
  rwa [f.nearest_of_pos hx]

/-- The rounded coefficient is that of a number of the format, or it was carried to the next
power of two. -/
theorem Format.spells_or_carried (hf : 0 < f.precision) (hx : 0 < x) (hne : f.nearest x ≠ 0) :
    ∃ k : Nat, Rounding.toEven (x / 2 ^ f.lastBit x) = k ∧
      (f.Spells (f.nearest x) k (f.lastBit x) ∨
        k = 2 ^ f.precision ∧
          f.Spells (f.nearest x) (2 ^ (f.precision - 1)) (f.lastBit x + 1)) := by
  have hq : f.lowest ≤ f.lastBit x := le_max_left _ _
  obtain ⟨hmost, hleast⟩ := f.lastBit_bounds hf hx
  rw [f.nearest_of_pos hx] at hne ⊢
  generalize f.lastBit x = q at *
  have hu := two_zpow_pos q
  obtain ⟨k, hk⟩ := Int.eq_ofNat_of_zero_le (Rounding.toEven_nonneg (div_nonneg hx.le hu.le))
  have hkle : k ≤ 2 ^ f.precision := by
    have hle : x / 2 ^ q ≤ ((2 ^ f.precision : Nat) : Int) := by
      rw [div_le_iff₀ hu]
      exact_mod_cast hmost
    have := Rounding.toEven_le_of_le hle
    rw [hk] at this
    exact_mod_cast this
  have hkfull : q = f.lowest ∨ 2 ^ (f.precision - 1) ≤ k := by
    refine hleast.imp_right fun hleast => ?_
    have hle : ((2 ^ (f.precision - 1) : Nat) : Int) ≤ x / 2 ^ q := by
      rw [le_div_iff₀ hu]
      exact_mod_cast hleast
    have := Rounding.le_toEven_of_le hle
    rw [hk] at this
    exact_mod_cast this
  rw [hk] at hne ⊢
  have hkpos : 0 < k := by
    rcases Nat.eq_zero_or_pos k with rfl | hkpos
    · simp at hne
    · exact hkpos
  refine ⟨k, rfl, ?_⟩
  rcases hkle.lt_or_eq with hklt | rfl
  · exact .inl ⟨by push_cast; rfl, hkpos, hklt, hq, hkfull⟩
  · refine .inr ⟨rfl, ?_, by positivity, ?_, by omega, .inr le_rfl⟩
    · push_cast
      rw [zpow_add_one₀ (by norm_num), ← mul_assoc, mul_right_comm, ← pow_succ]
      congr 2
      omega
    · exact Nat.pow_lt_pow_right (by norm_num) (by omega)

/-- **Rounding** a positive number gives zero or a number of the format. -/
theorem Format.nearest_cases (hf : 0 < f.precision) (hx : 0 < x) :
    f.nearest x = 0 ∨ ∃ m q, f.Spells (f.nearest x) m q := by
  refine or_iff_not_imp_left.mpr fun hne => ?_
  obtain ⟨k, -, hspells | ⟨-, hspells⟩⟩ := f.spells_or_carried hf hx hne
  · exact ⟨_, _, hspells⟩
  · exact ⟨_, _, hspells⟩

/-- Rounding keeps a number from falling below zero. -/
theorem Format.nearest_nonneg (hf : 0 < f.precision) (hx : 0 ≤ x) : 0 ≤ f.nearest x := by
  rcases hx.eq_or_lt with rfl | hpos
  · simp
  · rcases f.nearest_cases hf hpos with heq | ⟨m, q, hspells⟩
    · rw [heq]
    · exact hspells.pos_value.le

/-- A power of two that is not less than the last bit is a whole number of units. -/
theorem Format.exists_units (hf : 0 < f.precision) {k : Int} (hk : f.lowest ≤ k)
    (hle : leadingBit x ≤ k) : ∃ n : Int, (2 : Rat) ^ k = n * 2 ^ f.lastBit x := by
  have hlast : f.lastBit x ≤ k := by
    rw [Format.lastBit]
    omega
  refine ⟨2 ^ (k - f.lastBit x).toNat, ?_⟩
  push_cast
  rw [← zpow_natCast, Int.toNat_of_nonneg (by omega), ← zpow_add₀ (by norm_num), sub_add_cancel]

/-- Rounding does not go beyond a power of two. -/
theorem Format.nearest_le_zpow (hf : 0 < f.precision) {k : Int} (hk : f.lowest ≤ k) (hx : 0 ≤ x)
    (h : x ≤ 2 ^ k) : f.nearest x ≤ 2 ^ k := by
  rcases hx.eq_or_lt with rfl | hpos
  · rw [f.nearest_zero]
    exact (two_zpow_pos k).le
  · have hleading : leadingBit x < k + 1 :=
      leadingBit_lt hpos (h.trans_lt (zpow_lt_zpow_right₀ (by norm_num) (by omega)))
    obtain ⟨n, hn⟩ := f.exists_units hf (x := x) hk (by omega)
    have hcoeff : Rounding.toEven (x / 2 ^ f.lastBit x) ≤ n :=
      Rounding.toEven_le_of_le (by rwa [div_le_iff₀ (two_zpow_pos _), ← hn])
    rw [f.nearest_of_pos hpos, hn]
    gcongr

/-- Rounding does not fall below a power of two. -/
theorem Format.zpow_le_nearest (hf : 0 < f.precision) {k : Int} (hk : f.lowest ≤ k)
    (h : 2 ^ k ≤ x) : 2 ^ k ≤ f.nearest x := by
  have hpos : 0 < x := (two_zpow_pos k).trans_le h
  have hleading : k ≤ leadingBit x := le_leadingBit hpos h
  obtain ⟨n, hn⟩ := f.exists_units hf (x := x) (hk.trans hleading) le_rfl
  have hcoeff : n ≤ Rounding.toEven (x / 2 ^ f.lastBit x) :=
    Rounding.le_toEven_of_le
      (by rw [le_div_iff₀ (two_zpow_pos _), ← hn]; exact (zpow_leadingBit hpos).1)
  calc (2 : Rat) ^ k ≤ 2 ^ leadingBit x := zpow_le_zpow_right₀ (by norm_num) hleading
    _ = n * 2 ^ f.lastBit x := hn
    _ ≤ Rounding.toEven (x / 2 ^ f.lastBit x) * 2 ^ f.lastBit x := by gcongr
    _ = f.nearest x := (f.nearest_of_pos hpos).symm

/-! ## 6. Exact and nearly exact -/

/-- A coefficient of as many bits as the format keeps is not rounded. -/
theorem Format.nearest_mul_zpow {k : Nat} (hk : k < 2 ^ f.precision) (hq : f.lowest ≤ q) :
    f.nearest (k * 2 ^ q) = k * 2 ^ q := by
  rcases Nat.eq_zero_or_pos k with rfl | hpos
  · simp
  · have hkpos : (0 : Rat) < k := by exact_mod_cast hpos
    have hkcast : (k : Rat) < 2 ^ f.precision := by exact_mod_cast hk
    have hxpos : (0 : Rat) < k * 2 ^ q := by positivity
    have hlt : (k : Rat) * 2 ^ q < 2 ^ (f.precision + q) := by
      rw [zpow_add₀ (by norm_num), zpow_natCast]
      gcongr
    have hleading := leadingBit_lt hxpos hlt
    have hlast : f.lastBit (k * 2 ^ q) ≤ q := by
      rw [Format.lastBit]
      omega
    rw [f.nearest_of_pos hxpos]
    generalize f.lastBit (k * 2 ^ q) = r at *
    -- in units of the last bit it is a whole number
    have hpow : (2 : Rat) ^ q = 2 ^ (q - r).toNat * 2 ^ r := by
      rw [← zpow_natCast, Int.toNat_of_nonneg (by omega), ← zpow_add₀ (by norm_num),
        sub_add_cancel]
    have hunits : k * 2 ^ q / 2 ^ r = ((k * 2 ^ (q - r).toNat : Int) : Rat) := by
      rw [hpow]
      push_cast
      field_simp
    rw [hunits, Rounding.toEven_intCast, hpow]
    push_cast
    ring

/-- A number that is not tiny is moved by rounding in its last bit only. -/
theorem Format.abs_nearest_sub_le_div (hf : 0 < f.precision)
    (hx : 2 ^ (f.lowest + (f.precision - 1 : Nat)) ≤ x) :
    |f.nearest x - x| ≤ x / 2 ^ f.precision := by
  have hpos : 0 < x := (two_zpow_pos _).trans_le hx
  have hunit : 2 ^ (f.precision - 1) * (2 : Rat) ^ f.lastBit x ≤ x := by
    rcases (f.lastBit_bounds hf hpos).2 with hlowest | hfull
    · rwa [hlowest, mul_comm, ← zpow_natCast, ← zpow_add₀ (by norm_num)]
    · exact hfull
  have hpow : (2 : Rat) ^ f.precision = 2 * 2 ^ (f.precision - 1) := by
    rw [← pow_succ', Nat.sub_add_cancel hf]
  refine (f.abs_nearest_sub_le hpos).trans ?_
  rw [le_div_iff₀ (by positivity), hpow]
  linarith

end Binary
end CurrencyPad
