/-
CurrencyPad.Proofs.Json.Double — what is read from the numeral of a double.

The numeral of a double spells its shortest decimal, whatever notation is
chosen for it (`parts_ofSpelling`), and its digits have room in 64 bits,
so that all of them are read (`magnitude?_ofSpelling`). From there two
roundings lead to the double that is read: the digits become a double, and
so does that times a power of ten.

Often this is the double that was written. It need not be, as the digits
may have a bit more than a double. What can be said is that something is
read, if the double is not huge (`isSome_double?_ofDouble`), and that the
double itself is read where the digits and the power of ten are doubles,
so that one rounding is left (`double?_ofDouble_of_exact`). The double of
a short decimal is such a one (`double?_ofDouble_toDouble`).
-/
import CurrencyPad.Proofs.Decimal.Double
import CurrencyPad.Proofs.Json.Numeral

namespace CurrencyPad.Json.Numeral

open Text Binary

/-! ## 1. The digits that are read -/

/-- The digits of a numeral, read as a whole number. -/
def coefficient (n : Numeral) : Nat := Text.number (n.whole ++ n.fraction)

/-- The power of ten that its last digit is worth. -/
def lastPlace (n : Numeral) : Int := n.exponentValue - n.fraction.length

/-- All digits are read when the number that they make has 64 bits. -/
theorem readDigits_of_lt {m : Nat} {ds : List Char}
    (h : Nat.ofDigitChars 10 ds m < 18446744073709551616) :
    readDigits m ds = (Nat.ofDigitChars 10 ds m, 0) := by
  induction ds generalizing m with
  | nil => rfl
  | cons c r ih =>
    rw [ofDigitChars_cons, Nat.mul_comm] at h ⊢
    rw [readDigits, if_pos (lt_of_le_of_lt (le_ofDigitChars r _) h), ih h]

theorem significand_eq {n : Numeral} (h : n.coefficient < 18446744073709551616) :
    n.significand = (n.coefficient, n.lastPlace) := by
  have hsplit : n.coefficient = Nat.ofDigitChars 10 n.fraction (Text.number n.whole) := by
    rw [coefficient, Text.number, Nat.ofDigitChars_append]
    rfl
  have hwhole : readDigits 0 n.whole = (Text.number n.whole, 0) :=
    readDigits_of_lt (lt_of_le_of_lt (hsplit ▸ le_ofDigitChars n.fraction _) h)
  rw [hsplit] at h ⊢
  simp only [significand, hwhole, readDigits_of_lt h, lastPlace]
  congr 1
  omega

/-! ## 2. The numeral of a spelling -/

/-- An exponent is written with its sign. -/
theorem exponentValue_signed (negative : Bool) (whole fraction : List Char) (k : Int) :
    exponentValue ⟨negative, whole, fraction, (if k < 0 then '-' else '+') :: digits k.natAbs⟩ =
      k := by
  by_cases hk : k < 0
  · simp only [exponentValue, if_pos hk, number_digits]
    omega
  · simp only [exponentValue, if_neg hk, number_digits]
    omega

/-- **Whatever the notation**, the digits of the numeral are those of the spelling. A whole
number of up to sixteen digits has a zero more, which is the digit after its point. -/
theorem parts_ofSpelling (negative : Bool) (s : Spelling) :
    ((ofSpelling negative s).coefficient = s.coeff ∧
        (ofSpelling negative s).lastPlace = s.exponent) ∨
      ∃ n : Nat, n < 10 ^ 16 ∧ (n : Rat) = s.value ∧
        (ofSpelling negative s).coefficient = 10 * n ∧
        (ofSpelling negative s).lastPlace = -1 := by
  simp only [ofSpelling]
  split
  · rename_i hleading
    split
    · -- a whole number, with one zero after the point
      rename_i hexponent
      obtain ⟨e, he⟩ := Int.eq_ofNat_of_zero_le hexponent
      refine .inr ⟨s.coeff * tenTo e, ?_, ?_, ?_, ?_⟩
      · have hdigits : s.coeff < 10 ^ (digits s.coeff).length := by
          have hlt : Text.number (digits s.coeff) < 10 ^ (digits s.coeff).length :=
            number_lt fun c => isDigit_of_mem_digits
          rwa [number_digits] at hlt
        calc s.coeff * tenTo e < 10 ^ (digits s.coeff).length * tenTo e :=
              Nat.mul_lt_mul_of_pos_right hdigits (tenTo_pos e)
          _ = 10 ^ ((digits s.coeff).length + e) := (pow_add _ _ _).symm
          _ ≤ 10 ^ 16 := Nat.pow_le_pow_right (by norm_num) (by omega)
      · rw [Spelling.value, he, Nat.cast_mul, cast_tenTo]
        rfl
      · rw [coefficient, number_append, number_digits, he]
        rfl
      · simp [lastPlace, exponentValue, Text.number, Nat.ofDigitChars_nil]
    · rename_i hexponent
      obtain ⟨p, hp⟩ := Int.eq_ofNat_of_zero_le (show 0 ≤ -s.exponent by omega)
      have hplaces : (-s.exponent).toNat = p := by omega
      refine .inl ⟨?_, ?_⟩
      · rw [coefficient]
        simp only [hplaces]
        rw [number_append, number_digits, number_padded, length_padded, Nat.mod_mod]
        exact Nat.div_add_mod s.coeff (tenTo p)
      · have hzero : Text.number [] = 0 := rfl
        simp only [lastPlace, exponentValue, hplaces, length_padded, hzero]
        omega
  · -- one digit before the point, the others after it
    have hlength : 0 < (digits s.coeff).length := List.length_pos_of_ne_nil (digits_ne_nil _)
    refine .inl ⟨?_, ?_⟩
    · rw [coefficient, List.take_append_drop, number_digits]
    · rw [lastPlace, exponentValue_signed]
      simp only [List.length_drop]
      omega

/-- The numeral denotes what is spelled. -/
theorem value_ofSpelling (negative : Bool) (s : Spelling) :
    ((ofSpelling negative s).coefficient : Rat) * 10 ^ (ofSpelling negative s).lastPlace =
      s.value := by
  rcases parts_ofSpelling negative s with ⟨hcoefficient, hlast⟩ | ⟨n, -, hn, hcoefficient, hlast⟩
  · rw [hcoefficient, hlast, Spelling.value]
  · rw [hcoefficient, hlast, ← hn, zpow_neg_one]
    push_cast
    ring

theorem negative_ofSpelling (negative : Bool) (s : Spelling) :
    (ofSpelling negative s).negative = negative := by
  simp only [ofSpelling]
  split
  · split <;> rfl
  · rfl

/-! ## 3. The numeral of a double -/

variable {x : Rat} {m : Nat} {q : Int}

/-- The numeral of a double spells its shortest decimal, with the sign. -/
theorem ofDouble_of_ne_zero (hx : x ≠ 0) :
    ofDouble x = ofSpelling (decide (x < 0)) (shortest .even |x|) := by
  rw [ofDouble, if_neg hx]
  split
  · rename_i hneg
    rw [abs_of_neg hneg, decide_eq_true hneg]
  · rename_i hneg
    rw [abs_of_nonneg (not_lt.mp hneg), decide_eq_false hneg]

/-- The shortest decimal is off by less than half of the double. -/
theorem value_shortest_bounds (h : double.Spells x m q) :
    x / 2 ≤ (shortest .even x).value ∧ (shortest .even x).value ≤ 3 / 2 * x := by
  obtain ⟨hbelow, habove⟩ := abs_le.mp
    (h.abs_sub_le_of_contains double_precision_pos (h.shortest_spec .even).1)
  have hunit : (1 : Rat) * 2 ^ q ≤ m * 2 ^ q := by
    gcongr
    exact_mod_cast h.pos
  rw [← h.value] at hunit
  constructor <;> linarith

/-- The shortest digits of a double have room in 64 bits. -/
theorem coeff_shortest_lt (h : double.Spells x m q) :
    (shortest .even x).coeff < 15 * 10 ^ 18 + 1 := by
  obtain ⟨-, hexponent, -⟩ := h.shortest_spec .even
  have hvalue := (value_shortest_bounds h).2
  have hx := (exponentAbove_bounds h.pos_value).2
  have hpow : (10 : Rat) ^ exponentAbove x = 10 ^ (exponentAbove x - 19) * 10 ^ 19 := by
    rw [← zpow_natCast, ← zpow_add₀ (by norm_num)]
    congr 1
    push_cast
    omega
  have hgrid : (10 : Rat) ^ (exponentAbove x - 19) ≤ 10 ^ (shortest .even x).exponent :=
    zpow_le_zpow_right₀ (by norm_num) hexponent
  have hstep : (0 : Rat) < 10 ^ (exponentAbove x - 19) := by positivity
  have hle : ((shortest .even x).coeff : Rat) * 10 ^ (exponentAbove x - 19) ≤
      (15 * 10 ^ 18 : Nat) * 10 ^ (exponentAbove x - 19) := by
    calc ((shortest .even x).coeff : Rat) * 10 ^ (exponentAbove x - 19)
        ≤ (shortest .even x).coeff * 10 ^ (shortest .even x).exponent := by gcongr
      _ ≤ 3 / 2 * 10 ^ exponentAbove x := hvalue.trans (by gcongr)
      _ = (15 * 10 ^ 18 : Nat) * 10 ^ (exponentAbove x - 19) := by
        rw [hpow]
        push_cast
        ring
  exact Nat.lt_succ_of_le (by exact_mod_cast le_of_mul_le_mul_right hle hstep)

theorem coefficient_shortest_lt (h : double.Spells x m q) (negative : Bool) :
    (ofSpelling negative (shortest .even x)).coefficient < 2 ^ 64 := by
  rcases parts_ofSpelling negative (shortest .even x) with ⟨heq, -⟩ | ⟨n, hn, -, heq, -⟩
  · have := coeff_shortest_lt h
    omega
  · omega

/-- **All digits of a double are read.** Two roundings are left. -/
theorem magnitude?_ofSpelling (h : double.Spells x m q) (negative : Bool) :
    (ofSpelling negative (shortest .even x)).magnitude? =
      timesTen? (double.nearest (ofSpelling negative (shortest .even x)).coefficient)
        (ofSpelling negative (shortest .even x)).lastPlace := by
  rw [magnitude?, significand_eq (coefficient_shortest_lt h negative)]

/-! ## 4. Something is read -/

theorem inRange_iff {y : Rat} (hy : 0 ≤ y) : double.inRange y = true ↔ y < 2 ^ (1024 : Int) := by
  have hlow : -(2 : Rat) ^ (1024 : Int) < y := (neg_lt_zero.mpr (two_zpow_pos 1024)).trans_le hy
  rw [Format.inRange, decide_eq_true_eq, power_eq]
  exact ⟨fun h => h.2, fun h => ⟨hlow, h⟩⟩

/-- A power of ten that is not huge is one of those that are doubles. -/
theorem le_of_ten_pow_le {n k : Nat} (h : (10 : Rat) ^ n ≤ 2 ^ k) (hk : k ≤ 300) : n ≤ 308 := by
  by_contra hlarge
  refine lt_irrefl ((10 : Rat) ^ 300) ?_
  calc (10 : Rat) ^ 300 < 10 ^ n := pow_lt_pow_right₀ (by norm_num) (by omega)
    _ ≤ 2 ^ k := h
    _ ≤ 10 ^ k := by gcongr; norm_num
    _ ≤ 10 ^ 300 := pow_le_pow_right₀ (by norm_num) hk

/-- A product that is not huge is in range. -/
theorem isSome_timesTen? {c k : Nat} {e : Int} (hk : k ≤ 300) (hc : (c : Rat) ≤ 2 ^ (k : Int))
    (he : (10 : Rat) ^ e ≤ 2 ^ (k : Int)) : (timesTen? (double.nearest c) e).isSome = true := by
  rw [timesTen?]
  split
  · rename_i hwhole
    obtain ⟨n, rfl⟩ := Int.eq_ofNat_of_zero_le hwhole
    rw [zpow_natCast, zpow_natCast] at he
    split
    · rfl
    · have hsmall : n ≤ 308 := le_of_ten_pow_le he hk
      have hlowest : double.lowest ≤ (k : Int) := by
        have : double.lowest = -1074 := rfl
        omega
      have hx := double.nearest_nonneg double_precision_pos (c.cast_nonneg : (0 : Rat) ≤ c)
      have hx' := double.nearest_le_zpow double_precision_pos hlowest c.cast_nonneg hc
      have hu : 0 ≤ unitDouble n := double.nearest_nonneg double_precision_pos (Nat.cast_nonneg _)
      have hu' : unitDouble n ≤ 2 ^ (k : Int) := by
        refine double.nearest_le_zpow double_precision_pos hlowest (Nat.cast_nonneg _) ?_
        rwa [cast_tenTo, zpow_natCast]
      have hxu := mul_nonneg hx hu
      have hproduct : double.nearest (double.nearest c * unitDouble n) ≤ 2 ^ (k + k : Int) := by
        refine double.nearest_le_zpow double_precision_pos (by omega) hxu ?_
        rw [zpow_add₀ (by norm_num)]
        gcongr
      have hrange : double.inRange (double.nearest (double.nearest c * unitDouble n)) = true := by
        rw [inRange_iff (double.nearest_nonneg double_precision_pos hxu)]
        exact hproduct.trans_lt (zpow_lt_zpow_right₀ (by norm_num) (by omega))
      rw [if_neg (by omega), Int.toNat_natCast, if_pos hrange]
      rfl
  · rfl

/-- The spelling of a double that is not huge is read. -/
theorem isSome_magnitude?_ofSpelling (h : double.Spells x m q) (hx : x ≤ 2 ^ (200 : Int))
    (negative : Bool) : (ofSpelling negative (shortest .even x)).magnitude?.isSome = true := by
  have hroom := coefficient_shortest_lt h negative
  have hvalue := value_ofSpelling negative (shortest .even x)
  obtain ⟨hbelow, habove⟩ := value_shortest_bounds h
  rw [← hvalue] at hbelow habove
  rw [magnitude?_ofSpelling h]
  generalize ofSpelling negative (shortest .even x) = n at *
  have hunit : (0 : Rat) < 10 ^ n.lastPlace := by positivity
  have hpos : (0 : Rat) < n.coefficient :=
    pos_of_mul_pos_left (by linarith [h.pos_value]) hunit.le
  have hone : (1 : Rat) ≤ n.coefficient := by exact_mod_cast hpos
  have hdouble : (2 : Rat) * 2 ^ (200 : Int) = 2 ^ ((201 : Nat) : Int) := by
    rw [← zpow_one_add₀ (by norm_num)]
    rfl
  refine isSome_timesTen? (k := 201) (by norm_num) ?_ ?_
  · calc (n.coefficient : Rat) ≤ (2 ^ 64 : Nat) := by exact_mod_cast hroom.le
      _ ≤ 2 ^ ((201 : Nat) : Int) := by
        rw [zpow_natCast]
        exact_mod_cast Nat.pow_le_pow_right (by norm_num) (by norm_num)
  · calc (10 : Rat) ^ n.lastPlace ≤ n.coefficient * 10 ^ n.lastPlace :=
          le_mul_of_one_le_left hunit.le hone
      _ ≤ 2 * 2 ^ (200 : Int) := by linarith
      _ = 2 ^ ((201 : Nat) : Int) := hdouble

/-- **Something is read** from the numeral of a double that is not huge. -/
theorem isSome_double?_ofDouble (h : IsDouble x) (hx : |x| ≤ 2 ^ (200 : Int)) :
    (ofDouble x).double?.isSome = true := by
  rcases h with rfl | ⟨⟨m, q, hspells⟩, -⟩
  · decide +kernel
  · rw [ofDouble_of_ne_zero (abs_pos.mp hspells.pos_value), double?, Option.isSome_map]
    exact isSome_magnitude?_ofSpelling hspells hx _

/-! ## 5. One rounding -/

/-- Times a power of ten that is a double itself, or divided by one. -/
theorem timesTen?_of_small {c : Nat} {e : Int} (hc : double.nearest c = c) (he : e.natAbs ≤ 22)
    (hrange : double.inRange (double.nearest (c * 10 ^ e)) = true) :
    timesTen? (double.nearest c) e = some (double.nearest (c * 10 ^ e)) := by
  rw [hc, timesTen?]
  split
  · rename_i hwhole
    obtain ⟨n, rfl⟩ := Int.eq_ofNat_of_zero_le hwhole
    split
    · rename_i hzero
      rw [hzero, zero_mul, double.nearest_zero]
    · rw [zpow_natCast] at hrange ⊢
      rw [if_neg (by omega), Int.toNat_natCast, unitDouble, Decimal.nearest_tenTo (by omega),
        cast_tenTo, if_pos hrange]
  · rename_i hbelow
    obtain ⟨n, hn⟩ := Int.eq_ofNat_of_zero_le (show 0 ≤ -e by omega)
    obtain rfl : e = -n := by omega
    have hplaces : (- -(n : Int)).toNat - 1 = n - 1 := by omega
    have hnone : (n - 1) / 308 = 0 := by omega
    have hall : (n - 1) % 308 + 1 = n := by omega
    simp only [hplaces, hnone, hall, lowered, unitDouble]
    rw [Decimal.nearest_tenTo (by omega), cast_tenTo, zpow_neg, zpow_natCast, div_eq_mul_inv]

/-- Where one rounding is left, the spelling of a double is read as that double: it is the
nearest one to its shortest decimal. -/
theorem magnitude?_ofSpelling_of_exact (h : double.Spells x m q) (hx : x < 2 ^ (1024 : Int))
    {negative : Bool}
    (hexact : double.nearest (ofSpelling negative (shortest .even x)).coefficient =
      (ofSpelling negative (shortest .even x)).coefficient)
    (hlast : (ofSpelling negative (shortest .even x)).lastPlace.natAbs ≤ 22) :
    (ofSpelling negative (shortest .even x)).magnitude? = some x := by
  have hnearest : double.nearest
      ((ofSpelling negative (shortest .even x)).coefficient *
        10 ^ (ofSpelling negative (shortest .even x)).lastPlace) = x := by
    rw [value_ofSpelling, h.nearest_shortest]
  have hrange : double.inRange x = true := (inRange_iff h.pos_value.le).mpr hx
  rw [← hnearest] at hrange
  rw [magnitude?_ofSpelling h, timesTen?_of_small hexact hlast hrange, hnearest]

/-- **A double is read from its numeral** where one rounding is left: the digits and the power
of ten are doubles themselves. -/
theorem double?_ofDouble_of_exact (h : IsDouble x)
    (hexact : double.nearest (ofDouble x).coefficient = (ofDouble x).coefficient)
    (hlast : (ofDouble x).lastPlace.natAbs ≤ 22) : (ofDouble x).double? = some x := by
  rcases h with rfl | ⟨⟨m, q, hspells⟩, hx⟩
  · decide +kernel
  · rw [ofDouble_of_ne_zero (abs_pos.mp hspells.pos_value)] at hexact hlast ⊢
    rw [double?, magnitude?_ofSpelling_of_exact hspells hx hexact hlast, negative_ofSpelling]
    by_cases hneg : x < 0
    · simp [hneg, abs_of_neg hneg]
    · simp [hneg, abs_of_nonneg (not_lt.mp hneg)]

/-! ## 6. Short decimals -/

/-- A whole number of fifteen digits with a zero after it is a double. -/
theorem nearest_ten_mul {n : Nat} (h : n < 10 ^ 15) :
    double.nearest ((10 * n : Nat) : Rat) = (10 * n : Nat) := by
  have hbits : 5 * n < 2 ^ double.precision := by
    have : 2 ^ double.precision = 9007199254740992 := rfl
    omega
  have hvalue : ((10 * n : Nat) : Rat) = (5 * n : Nat) * 2 ^ (1 : Int) := by
    push_cast
    ring
  rw [hvalue, double.nearest_mul_zpow hbits (by decide)]

/-- A short decimal is spelled with no more digits than it has, and has no more than fifteen
before the point. -/
theorem spelling_of_short {c s : Nat} (hpos : 0 < c) (hc : c < 10 ^ 15) {y : Spelling}
    (hexponent : -(s : Int) ≤ y.exponent) (hvalue : y.value = c / (tenTo s : Nat)) :
    y.value ≤ c ∧ y.coeff ≤ c ∧ y.exponent < 15 := by
  have hcpos : (0 : Rat) < c := by exact_mod_cast hpos
  have hunit : (1 : Rat) ≤ (tenTo s : Nat) := by exact_mod_cast tenTo_pos s
  have hstep : (0 : Rat) < 10 ^ y.exponent := by positivity
  have hle : y.value ≤ c := hvalue.trans_le (div_le_self hcpos.le hunit)
  refine ⟨hle, ?_, ?_⟩
  · have hgrid : (10 : Rat) ^ (-(s : Int)) ≤ 10 ^ y.exponent :=
      zpow_le_zpow_right₀ (by norm_num) hexponent
    have hscaled : (y.coeff : Rat) * 10 ^ (-(s : Int)) ≤ c * 10 ^ (-(s : Int)) := by
      calc (y.coeff : Rat) * 10 ^ (-(s : Int)) ≤ y.coeff * 10 ^ y.exponent := by gcongr
        _ = c * 10 ^ (-(s : Int)) := by
          rw [← Spelling.value, hvalue, cast_tenTo, zpow_neg, zpow_natCast, div_eq_mul_inv]
    exact_mod_cast le_of_mul_le_mul_right hscaled (by positivity)
  · have hcoeff : (1 : Rat) ≤ y.coeff := by
      have hyvalue : 0 < y.value := by rw [hvalue]; positivity
      exact_mod_cast pos_of_mul_pos_left hyvalue hstep.le
    have hcast : (c : Rat) < 10 ^ (15 : Int) := by exact_mod_cast hc
    refine (zpow_lt_zpow_iff_right₀ (a := (10 : Rat)) (by norm_num)).mp ?_
    calc (10 : Rat) ^ y.exponent ≤ y.coeff * 10 ^ y.exponent :=
          le_mul_of_one_le_left hstep.le hcoeff
      _ ≤ c := hle
      _ < 10 ^ (15 : Int) := hcast

/-- The digits of a short decimal and their power of ten are doubles. -/
theorem parts_of_short {c s : Nat} (hpos : 0 < c) (hc : c < 10 ^ 15) (hs : s ≤ 22)
    {y : Spelling} (hexponent : -(s : Int) ≤ y.exponent) (hvalue : y.value = c / (tenTo s : Nat))
    (negative : Bool) :
    double.nearest (ofSpelling negative y).coefficient = (ofSpelling negative y).coefficient ∧
      (ofSpelling negative y).lastPlace.natAbs ≤ 22 := by
  obtain ⟨hle, hcoeff, hplace⟩ := spelling_of_short hpos hc hexponent hvalue
  rcases parts_ofSpelling negative y with ⟨hcoefficient, hlast⟩ | ⟨n, -, hn, hcoefficient, hlast⟩
  · rw [hcoefficient, hlast]
    exact ⟨Decimal.nearest_natCast (hcoeff.trans_lt hc), by omega⟩
  · rw [hcoefficient, hlast]
    rw [← hn] at hle
    have hshort : n ≤ c := by exact_mod_cast hle
    exact ⟨nearest_ten_mul (hshort.trans_lt hc), by decide⟩

/-- **The double of a short decimal** is read from its numeral. -/
theorem double?_ofDouble_toDouble {d : Decimal} (h : d.Short) :
    (ofDouble d.toDouble).double? = some d.toDouble := by
  have hsize : |d.toDouble| = double.nearest (d.coeff.natAbs / (tenTo d.scale : Nat)) := by
    rw [d.abs_toDouble, h.doubleOfParts_eq]
  rcases Nat.eq_zero_or_pos d.coeff.natAbs with hzero | hpos
  · have hnone : d.toDouble = 0 := by
      rw [← abs_eq_zero, hsize, hzero, Nat.cast_zero, zero_div, double.nearest_zero]
    rw [hnone]
    decide +kernel
  · obtain ⟨hx, hexponent, hvalue⟩ := Decimal.value_shortest_of_short hpos h.1 h.2 .even
    rw [← hsize] at hx hexponent hvalue
    obtain ⟨hexact, hlast⟩ :=
      parts_of_short hpos h.1 h.2 hexponent hvalue (decide (d.toDouble < 0))
    rw [← ofDouble_of_ne_zero (abs_pos.mp hx)] at hexact hlast
    exact double?_ofDouble_of_exact d.isDouble_toDouble hexact hlast

end CurrencyPad.Json.Numeral
