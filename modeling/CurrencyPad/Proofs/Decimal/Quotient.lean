/-
CurrencyPad.Proofs.Decimal.Quotient — quotients are rounded once.

Long division draws digits from a remainder in groups, ends in one of
three ways and then drops zeros. What comes out is a rounding of the exact
quotient all the same (`isRounding_div?`): a multiple of a power of ten
that no other multiple is nearer to, at the finest scale with room for it;
and nothing comes out only when even the whole part has no room.

A half goes to the even neighbour, with one exception. Where the digits
drawn last leave no room and the divisor is long, it goes up
(`isEvenRounding_div?`). How many digits are drawn last depends on the
scales, so there the quotient depends on how its operands are written.
Every other quotient depends on the two numbers alone
(`map_toRat_div?_eq_of_settled`).

## How the proof goes

* A division under way `Represents` the exact quotient `x`: coefficient and
  remainder together are `x`, moved by `scale` places. Drawing digits keeps
  this (`Represents.draw`).
* The three endings are `isEvenRounding_complete?` (nothing is left),
  `isEvenRounding_rounded?` (no room for a digit) and
  `isEvenRounding_giveBack?` (the digits drawn last left no room).
* Every turn of the loop draws a digit or closes the division, so the
  induction is on the places that can still be drawn
  (`isEvenRounding_finish?`).
-/
import Mathlib.Tactic.NormNum
import CurrencyPad.Decimal.Division
import CurrencyPad.Proofs.Decimal.HalfEven

namespace CurrencyPad.Decimal

namespace Division

/-! ## 1. A division under way -/

/-- The division by `n` stands for the exact quotient `x`. -/
structure Represents (n : Nat) (x : Rat) (q : Division) : Prop where
  rest_lt : q.rest < n
  value : x * (10 : Rat) ^ q.scale = q.coeff + q.rest / n

variable {n : Nat} {x : Rat} {q : Division}

theorem represents_start (m : Nat) (hn : 0 < n) (scale : Int) :
    Represents n ((m : Rat) / n / (10 : Rat) ^ scale) (start m n scale) := by
  refine ⟨start_rest_lt m scale hn, ?_⟩
  have hn' : (n : Rat) ≠ 0 := by exact_mod_cast hn.ne'
  have hpow : (10 : Rat) ^ scale ≠ 0 := zpow_ne_zero _ (by norm_num)
  have hspec : (n : Rat) * (start m n scale).coeff + (start m n scale).rest = m := by
    exact_mod_cast start_spec m n scale
  change _ / _ / _ * (10 : Rat) ^ scale = _
  rw [div_mul_cancel₀ _ hpow, ← hspec]
  field_simp

/-- **Drawing digits** keeps what the division stands for. -/
theorem Represents.draw (h : Represents n x q) (p : Nat) : Represents n x (q.draw n p) := by
  have hn : 0 < n := Nat.lt_of_le_of_lt (Nat.zero_le _) h.rest_lt
  have hn' : (n : Rat) ≠ 0 := by exact_mod_cast hn.ne'
  refine ⟨draw_rest_lt p q hn, ?_⟩
  have hspec : (n : Rat) * (q.draw n p).coeff + (q.draw n p).rest
      = (n * q.coeff + q.rest) * 10 ^ p := by
    rw [← cast_tenTo]
    exact_mod_cast draw_spec n p q
  have hscale : (10 : Rat) ^ (q.draw n p).scale = 10 ^ q.scale * 10 ^ p := by
    change (10 : Rat) ^ (q.scale + p) = _
    rw [zpow_add₀ (by norm_num), zpow_natCast]
  calc x * (10 : Rat) ^ (q.draw n p).scale
      = (x * 10 ^ q.scale) * 10 ^ p := by rw [hscale, mul_assoc]
    _ = (n * q.coeff + q.rest) * 10 ^ p / n := by
        rw [h.value]
        field_simp
    _ = (q.draw n p).coeff + (q.draw n p).rest / n := by
        rw [← hspec]
        field_simp

theorem Represents.coeff_le (h : Represents n x q) : (q.coeff : Rat) ≤ x * 10 ^ q.scale := by
  rw [h.value]
  have : (0 : Rat) ≤ q.rest / n := by positivity
  linarith

theorem Represents.nonneg (h : Represents n x q) : 0 ≤ x := by
  have hpow : (0 : Rat) < 10 ^ q.scale := zpow_pos (by norm_num) _
  have : 0 ≤ x * 10 ^ q.scale := le_trans (by positivity) h.coeff_le
  exact nonneg_of_mul_nonneg_left this hpow

/-- What is large at a scale below zero is larger as a whole number. -/
theorem Represents.le_of_scale_le (h : Represents n x q) {y : Rat} {e : Int} (he : e ≤ 0)
    (hy : y ≤ x * 10 ^ e + 1 / 2) : y ≤ |x| + 1 / 2 := by
  have hpow : (10 : Rat) ^ e ≤ 1 := zpow_le_one_of_nonpos₀ (by norm_num) he
  have := mul_le_of_le_one_right h.nonneg hpow
  rw [abs_of_nonneg h.nonneg]
  linarith

/-! ## 2. The three endings -/

/-- A coefficient near the quotient is a rounding of it when a finer scale has no
room. A scale below zero stands for a number that is out of range. -/
theorem isEvenRounding_atScale? (h : Represents n x q) {c : Nat} {scale : Int}
    (hc : c < coeffBound) (hscale : scale ≤ maxScale)
    (hnear : |(c : Rat) - x * 10 ^ scale| ≤ 1 / 2)
    (hfinest : scale = maxScale ∨ (coeffBound : Rat) ≤ x * 10 ^ (scale + 1) + 1 / 2)
    (hhalf : |(c : Rat) - x * 10 ^ scale| = 1 / 2 →
      c % 2 = 0 ∨ longDivisor ≤ n ∧ scale < maxScale ∧ (c : Rat) = x * 10 ^ scale + 1 / 2) :
    IsEvenRounding (longDivisor ≤ n) x (atScale? c scale) := by
  rw [atScale?]
  split
  · rename_i hpos
    obtain ⟨s, rfl⟩ := Int.eq_ofNat_of_zero_le hpos
    have hs : s ≤ maxScale := by omega
    have hnat : (c : Int).natAbs < coeffBound := by rwa [Int.natAbs_natCast]
    obtain ⟨d, hd, hvalue⟩ := ofParts?_of_lt hnat hs
    rw [Int.toNat_natCast, hd]
    have hpow : (0 : Rat) < 10 ^ s := by positivity
    simp only [zpow_natCast] at hnear hhalf
    refine ⟨s, ⟨hs, ⟨c, hnat, hvalue⟩, ?_, ?_⟩, fun htie => ?_⟩
    · rw [hvalue, Int.cast_natCast, abs_div_ten_pow_sub]
      exact div_le_div_of_nonneg_right hnear hpow.le
    · rcases hfinest with hmax | hroom
      · exact .inr (.inl (by omega))
      · refine .inr (.inr ?_)
        rw [abs_of_nonneg h.nonneg]
        exact_mod_cast hroom
    · rw [abs_toRat_sub_eq_iff hvalue, Int.cast_natCast] at htie
      rcases hhalf htie with heven | ⟨hlong, hlt, hup⟩
      · exact .inl ⟨c, by omega, hvalue⟩
      · refine .inr ⟨hlong, by omega, ?_⟩
        rw [hvalue, Int.cast_natCast, hup, abs_of_nonneg h.nonneg,
          abs_of_nonneg (by have := h.nonneg; positivity), add_div, mul_div_cancel_right₀ _ hpow.ne']
  · rename_i hneg
    rcases hfinest with hmax | hroom
    · rw [maxScale] at hmax
      omega
    · exact h.le_of_scale_le (by omega) hroom

/-- **Nothing is left**: the quotient is exact. -/
theorem isEvenRounding_complete? (h : Represents n x q) (hrest : q.rest = 0)
    (hc : q.coeff < coeffBound) (hscale : q.scale ≤ maxScale) :
    IsEvenRounding (longDivisor ≤ n) x q.complete? := by
  have hvalue : x * 10 ^ q.scale = q.coeff := by rw [h.value, hrest]; simp
  rw [complete?]
  split
  · rename_i hpos
    obtain ⟨s, hs⟩ := Int.eq_ofNat_of_zero_le hpos
    rw [hs] at hvalue hscale ⊢
    rw [atScale?, if_pos (Int.natCast_nonneg s), Int.toNat_natCast]
    have hnat : (q.coeff : Int).natAbs < coeffBound := by rwa [Int.natAbs_natCast]
    obtain ⟨d, hd, -⟩ := ofParts?_of_lt hnat (show s ≤ maxScale by exact_mod_cast hscale)
    rw [hd]
    refine isEvenRounding_of_eq hd ?_
    rw [eq_div_iff (by positivity)]
    exact_mod_cast hvalue
  · -- zeros are added up to the point
    obtain ⟨k, hk⟩ := Int.eq_ofNat_of_zero_le (a := -q.scale) (by omega)
    have hx : x = q.coeff * 10 ^ k := by
      rw [← hvalue, show q.scale = -(k : Int) by omega, zpow_neg, zpow_natCast]
      field_simp
    rw [hk, Int.toNat_natCast, atScale?, if_pos (le_refl 0), Int.toNat_zero]
    cases hd : ofParts? ((q.coeff * tenTo k : Nat) : Int) 0 with
    | some d =>
      refine isEvenRounding_of_eq hd ?_
      rw [hx, pow_zero, div_one]
      push_cast [cast_tenTo]
      rfl
    | none =>
      have hlarge : coeffBound ≤ q.coeff * tenTo k := by
        by_contra hlt
        rw [ofParts?, dif_pos ⟨by rw [Int.natAbs_natCast]; omega, by simp⟩] at hd
        simp at hd
      have hlarge' : (coeffBound : Rat) ≤ q.coeff * 10 ^ k := by
        rw [← cast_tenTo]
        exact_mod_cast hlarge
      change (coeffBound : Rat) ≤ |x| + 1 / 2
      rw [abs_of_nonneg h.nonneg, hx]
      linarith

/-- Rounding by the remainder goes no further than a half. -/
theorem abs_nearestCoeff_sub_le (h : Represents n x q) :
    |(q.nearestCoeff n : Rat) - x * 10 ^ q.scale| ≤ 1 / 2 := by
  have hn : (0 : Rat) < n := by
    exact_mod_cast Nat.lt_of_le_of_lt (Nat.zero_le _) h.rest_lt
  have hrest : (q.rest : Rat) < n := by exact_mod_cast h.rest_lt
  rw [h.value, nearestCoeff]
  split
  · rename_i hup
    have hhalf : (n : Rat) ≤ 2 * q.rest := by exact_mod_cast (show n ≤ 2 * q.rest by omega)
    have hlow : (1 : Rat) / 2 ≤ q.rest / n := by rw [div_le_div_iff₀ (by norm_num) hn]; linarith
    have hhigh : (q.rest : Rat) / n ≤ 1 := (div_le_one hn).mpr hrest.le
    rw [abs_le]
    push_cast
    constructor <;> linarith
  · rename_i hdown
    have hhalf : 2 * (q.rest : Rat) ≤ n := by exact_mod_cast (show 2 * q.rest ≤ n by omega)
    have hhigh : (q.rest : Rat) / n ≤ 1 / 2 := by
      rw [div_le_div_iff₀ hn (by norm_num)]
      linarith
    have hlow : (0 : Rat) ≤ q.rest / n := by positivity
    rw [abs_le]
    constructor <;> linarith

/-- A remainder of half the divisor rounds to the even coefficient. -/
theorem nearestCoeff_even (h : Represents n x q)
    (htie : |(q.nearestCoeff n : Rat) - x * 10 ^ q.scale| = 1 / 2) : q.nearestCoeff n % 2 = 0 := by
  have hn : (0 : Rat) < n := by
    exact_mod_cast Nat.lt_of_le_of_lt (Nat.zero_le _) h.rest_lt
  have hhalf : n = 2 * q.rest := by
    have hpart : (q.rest : Rat) / n = 1 / 2 := by
      rw [h.value, nearestCoeff] at htie
      split at htie
      · push_cast at htie
        rcases (abs_eq (by norm_num)).mp htie with heq | heq
        · linarith
        · have : (q.rest : Rat) / n ≤ 1 := (div_le_one hn).mpr (by exact_mod_cast h.rest_lt.le)
          linarith
      · rcases (abs_eq (by norm_num)).mp htie with heq | heq
        · have : (0 : Rat) ≤ q.rest / n := by positivity
          linarith
        · linarith
    rw [div_eq_iff hn.ne'] at hpart
    have : (n : Rat) = 2 * q.rest := by linarith
    exact_mod_cast this
  rw [nearestCoeff]
  split <;> omega

/-- Rounding by the last digit goes no further than a half, if what comes after a
five is not left out of account. -/
theorem abs_withoutLast_sub_le {c : Nat} {part : Rat} {more : Bool} (hpos : 0 ≤ part)
    (hlt : part < 1) (hmore : more = false → part = 0) :
    |(withoutLast more c : Rat) - (c + part) / 10| ≤ 1 / 2 := by
  have hdigits : (c : Rat) = 10 * (c / 10 : Nat) + (c % 10 : Nat) := by
    exact_mod_cast (Nat.div_add_mod c 10).symm
  have hlast : ((c % 10 : Nat) : Rat) ≤ 9 := by
    exact_mod_cast Nat.le_of_lt_succ (Nat.mod_lt c (by norm_num))
  rw [withoutLast, hdigits]
  split
  · rename_i hup
    have hfive : (5 : Rat) ≤ (c % 10 : Nat) := by exact_mod_cast (show 5 ≤ c % 10 by omega)
    rw [abs_le]
    push_cast
    constructor <;> linarith
  · rename_i hdown
    push Not at hdown
    obtain ⟨hle, htie⟩ := hdown
    have hfive : ((c % 10 : Nat) : Rat) + part ≤ 5 := by
      rcases Nat.lt_or_ge (c % 10) 5 with hfew | hmany
      · have : ((c % 10 : Nat) : Rat) ≤ 4 := by exact_mod_cast Nat.le_of_lt_succ hfew
        linarith
      · have hpart : part = 0 := hmore (by simpa using (htie (by omega)).1)
        have : ((c % 10 : Nat) : Rat) ≤ 5 := by exact_mod_cast hle
        linarith
    have hlow : (0 : Rat) ≤ (c % 10 : Nat) := by positivity
    rw [abs_le]
    constructor <;> linarith

/-- A last digit that stands for a half rounds to the even coefficient, or up where it is
taken for more. -/
theorem withoutLast_even {c : Nat} {part : Rat} {more : Bool} (hpos : 0 ≤ part)
    (hlt : part < 1) (hmore : more = false → part = 0)
    (htie : |(withoutLast more c : Rat) - (c + part) / 10| = 1 / 2) :
    withoutLast more c % 2 = 0 ∨
      more = true ∧ part = 0 ∧ (withoutLast more c : Rat) = (c + part) / 10 + 1 / 2 := by
  have hdigits : (c : Rat) = 10 * (c / 10 : Nat) + (c % 10 : Nat) := by
    exact_mod_cast (Nat.div_add_mod c 10).symm
  have hlast : ((c % 10 : Nat) : Rat) ≤ 9 := by
    exact_mod_cast Nat.le_of_lt_succ (Nat.mod_lt c (by norm_num))
  have hlast' : (0 : Rat) ≤ (c % 10 : Nat) := by positivity
  -- the last digit is a five, and nothing comes after it
  have hfive : ((c % 10 : Nat) : Rat) + part = 5 := by
    rw [withoutLast, hdigits] at htie
    split at htie
    · push_cast at htie
      rcases (abs_eq (by norm_num)).mp htie with heq | heq <;> linarith
    · rcases (abs_eq (by norm_num)).mp htie with heq | heq <;> linarith
  have hmod : c % 10 = 5 := by
    have hlow : (4 : Rat) < (c % 10 : Nat) := by linarith
    have hhigh : ((c % 10 : Nat) : Rat) ≤ 5 := by linarith
    have : 4 < c % 10 := by exact_mod_cast hlow
    have : c % 10 ≤ 5 := by exact_mod_cast hhigh
    omega
  have hzero : part = 0 := by
    rw [hmod] at hfive
    push_cast at hfive
    linarith
  cases more with
  | false =>
    left
    rw [withoutLast]
    split
    · rename_i hup
      have hodd : c / 10 % 2 = 1 := by simpa [hmod] using hup
      omega
    · rename_i hdown
      have heven : c / 10 % 2 = 0 := by simpa [hmod] using hdown
      exact heven
  | true =>
    refine .inr ⟨rfl, hzero, ?_⟩
    rw [withoutLast, if_pos (.inr ⟨hmod, .inl rfl⟩), hdigits, hmod, hzero]
    push_cast
    ring

theorem zpow_sub_one (x : Rat) (e : Int) : x * 10 ^ (e - 1) = x * 10 ^ e / 10 := by
  rw [zpow_sub_one₀ (by norm_num)]
  ring

theorem withoutLast_le (more : Bool) (c : Nat) : withoutLast more c ≤ c / 10 + 1 := by
  rw [withoutLast]
  split <;> omega

/-- **No room for a digit**: the quotient is rounded by its remainder. -/
theorem isEvenRounding_rounded? (h : Represents n x q) (hc : q.coeff < coeffBound)
    (hscale : q.scale ≤ maxScale) (hroom : q.scale = maxScale ∨ coeffBound ≤ q.coeff * 10) :
    IsEvenRounding (longDivisor ≤ n) x (q.rounded? n) := by
  have hnear := abs_nearestCoeff_sub_le h
  rw [rounded?]
  split
  · rename_i hfits
    refine isEvenRounding_atScale? h hfits hscale hnear (hroom.imp_right fun hlarge => ?_)
      fun htie => .inl (nearestCoeff_even h htie)
    have hlarge' : (coeffBound : Rat) ≤ q.coeff * 10 := by exact_mod_cast hlarge
    have hcoeff := h.coeff_le
    rw [zpow_add_one₀ (by norm_num)]
    linarith
  · -- rounding carries the coefficient onto its bound
    rename_i hfull
    have hcarry : q.nearestCoeff n = coeffBound := by
      have : q.nearestCoeff n ≤ q.coeff + 1 := by rw [nearestCoeff]; split <;> omega
      omega
    rw [hcarry] at hnear ⊢
    have hkept : withoutLast true coeffBound = 7922816251426433759354395034 := by decide
    have hlow := (abs_le.mp hnear).2
    have hhigh : x * 10 ^ q.scale ≤ coeffBound := by
      have hrest : (q.rest : Rat) / n ≤ 1 :=
        div_le_one_of_le₀ (by exact_mod_cast h.rest_lt.le) (by positivity)
      have hcoeff : (q.coeff : Rat) + 1 ≤ coeffBound := by exact_mod_cast hc
      rw [h.value]
      linarith
    have hless : |((7922816251426433759354395034 : Nat) : Rat) - x * 10 ^ (q.scale - 1)| < 1 / 2 := by
      rw [zpow_sub_one, abs_lt]
      simp only [coeffBound] at hlow hhigh
      push_cast at hlow hhigh ⊢
      constructor <;> linarith
    rw [hkept]
    refine isEvenRounding_atScale? h (by decide) (by omega) hless.le (.inr ?_)
      fun htie => absurd htie hless.ne
    rw [sub_add_cancel]
    linarith

/-- **The last digits left no room**: one of them is given back. -/
theorem isEvenRounding_giveBack? (h : Represents n x q) (hfull : coeffBound ≤ q.coeff)
    (hfew : q.coeff < coeffBound + tenTo 9) (hscale : q.scale ≤ maxScale) :
    IsEvenRounding (longDivisor ≤ n) x (q.giveBack? n) := by
  have hn : (0 : Rat) < n := by
    exact_mod_cast Nat.lt_of_le_of_lt (Nat.zero_le _) h.rest_lt
  have hpart : (0 : Rat) ≤ q.rest / n := by positivity
  have hpart' : (q.rest : Rat) / n < 1 := by
    rw [div_lt_one hn]
    exact_mod_cast h.rest_lt
  have hmore : decide (q.rest ≠ 0 ∨ longDivisor ≤ n) = false → (q.rest : Rat) / n = 0 := by
    intro hmore
    have hrest : q.rest = 0 := by
      by_contra hne
      simp [hne] at hmore
    rw [hrest]
    simp
  rw [giveBack?]
  refine isEvenRounding_atScale? h ?_ (by omega) ?_ (.inr ?_) fun htie => ?_
  · refine Nat.lt_of_le_of_lt (withoutLast_le _ _) ?_
    simp only [coeffBound, tenTo] at hfew ⊢
    norm_num at hfew
    omega
  · rw [zpow_sub_one, h.value]
    exact abs_withoutLast_sub_le hpart hpart' hmore
  · have hfull' : (coeffBound : Rat) ≤ q.coeff := by exact_mod_cast hfull
    have hcoeff := h.coeff_le
    rw [sub_add_cancel]
    linarith
  · rw [zpow_sub_one, h.value] at htie ⊢
    refine (withoutLast_even hpart hpart' hmore htie).imp_right ?_
    rintro ⟨hup, hzero, hvalue⟩
    -- nothing is left, so it is the divisor that is long
    have hrest : q.rest = 0 := by
      rw [div_eq_zero_iff] at hzero
      exact_mod_cast hzero.resolve_right hn.ne'
    exact ⟨by simpa [hrest] using hup, by omega, hvalue⟩

/-! ## 3. The loop -/

/-- The digits that are drawn next have room, as far as it can be seen beforehand, and
if none are, then there is no room for one. -/
theorem room_spec (q : Division) (p : Nat) :
    q.room p ≤ p ∧
      (0 < q.room p → q.scale + q.room p ≤ maxScale ∧ q.coeff * tenTo (q.room p) < coeffBound) ∧
      (0 < p → q.room p = 0 → ¬(q.scale + 1 ≤ maxScale ∧ q.coeff * tenTo 1 < coeffBound)) := by
  induction p with
  | zero => simp [room]
  | succ p ih =>
    rw [room]
    split
    · rename_i hfits
      exact ⟨le_refl _, fun _ => by exact_mod_cast hfits, by omega⟩
    · rename_i hfull
      obtain ⟨hle, hfits, hnone⟩ := ih
      refine ⟨by omega, hfits, fun _ hzero => ?_⟩
      cases p with
      | zero => simpa using hfull
      | succ p => exact hnone (by omega) hzero

/-- A division that is closed has nothing left, or no room. -/
theorem isEvenRounding_close? (h : Represents n x q) (hc : q.coeff < coeffBound)
    (hscale : q.scale ≤ maxScale)
    (hroom : q.rest ≠ 0 → q.scale = maxScale ∨ coeffBound ≤ q.coeff * 10) :
    IsEvenRounding (longDivisor ≤ n) x (q.close? n) := by
  rw [close?]
  split
  · rename_i hrest
    exact isEvenRounding_complete? h hrest hc hscale
  · rename_i hrest
    exact isEvenRounding_rounded? h hc hscale (hroom hrest)

/-- The digits that are drawn cannot carry the coefficient far over its bound. -/
theorem coeff_draw_lt {p : Nat} (hrest : q.rest < n) (hp : p ≤ 9)
    (hroom : q.coeff * tenTo p < coeffBound) : (q.draw n p).coeff < coeffBound + tenTo 9 := by
  have hdigits : q.rest * tenTo p / n < tenTo p := by
    rw [Nat.div_lt_iff_lt_mul (by omega), Nat.mul_comm]
    exact Nat.mul_lt_mul_of_pos_left hrest (tenTo_pos p)
  have hmono : tenTo p ≤ tenTo 9 := Nat.pow_le_pow_right (by norm_num) hp
  change q.coeff * tenTo p + q.rest * tenTo p / n < _
  omega

/-- **The loop**, with places enough to draw all digits there is room for. -/
theorem isEvenRounding_finish? (places : Nat) (h : Represents n x q) (hc : q.coeff < coeffBound)
    (hscale : q.scale ≤ maxScale) (hplaces : (maxScale : Int) ≤ q.scale + places) :
    IsEvenRounding (longDivisor ≤ n) x (finish? n places q) := by
  induction places generalizing q with
  | zero => exact isEvenRounding_close? h hc hscale fun _ => .inl (by omega)
  | succ places ih =>
    obtain ⟨hnine, hfits, hnone⟩ := q.room_spec 9
    rw [finish?]
    split
    · rename_i hnext
      refine isEvenRounding_close? h hc hscale fun hrest => ?_
      rw [next, if_neg hrest] at hnext
      have hfull := hnone (by omega) hnext
      rw [tenTo_succ, tenTo_zero] at hfull
      omega
    · rename_i hnext
      have hroom : q.next = q.room 9 := by
        rw [next] at hnext ⊢
        split
        · simp_all
        · rfl
      rw [hroom] at hnext ⊢
      obtain ⟨hlonger, hcoeff⟩ := hfits (by omega)
      have hdraw : (q.draw n (q.room 9)).scale = q.scale + q.room 9 := rfl
      dsimp only
      split
      · rename_i hlt
        exact ih (h.draw _) hlt (by omega) (by omega)
      · rename_i hge
        exact isEvenRounding_giveBack? (h.draw _) (by omega) (coeff_draw_lt h.rest_lt hnine hcoeff)
          (by omega)

theorem isEvenRounding_quotient? (h : Represents n x q) (hc : q.coeff < coeffBound)
    (hscale : q.scale ≤ maxScale) : IsEvenRounding (longDivisor ≤ n) x (q.quotient? n) :=
  isEvenRounding_finish? _ h hc hscale (by omega)

end Division

/-! ## 4. Dropping zeros -/

theorem toRat_dropZeros (d : Decimal) (places : Nat) : (d.dropZeros places).toRat = d.toRat := by
  rw [dropZeros]
  split
  · rename_i hzeros
    obtain ⟨hplaces, hmod, -⟩ := hzeros
    cases hd : ofParts? (d.coeff / tenTo places) (d.scale - places) with
    | none => rfl
    | some d' =>
      rw [Option.getD_some, toRat_of_ofParts? hd, toRat_eq]
      have hcoeff : ((d.coeff / (tenTo places : Int) : Int) : Rat) * 10 ^ places = d.coeff := by
        rw [← cast_tenTo]
        exact_mod_cast Int.ediv_mul_cancel (Int.dvd_of_emod_eq_zero hmod)
      have hpow : (10 : Rat) ^ d.scale = 10 ^ (d.scale - places) * 10 ^ places := by
        rw [← pow_add]
        congr 1
        omega
      rw [← hcoeff, hpow]
      field_simp
  · rfl

theorem toRat_dropGroups (d : Decimal) : d.dropGroups.toRat = d.toRat := by
  simp only [dropGroups, List.foldl_cons, List.foldl_nil, toRat_dropZeros]

/-! ## 5. The quotient -/

/-- The quotient without signs, as it is divided. -/
theorem abs_toRat_div_abs_toRat (a b : Decimal) :
    |a.toRat| / |b.toRat| =
      (a.coeff.natAbs : Rat) / b.coeff.natAbs / (10 : Rat) ^ ((a.scale : Int) - b.scale) := by
  have habs (d : Decimal) : |d.toRat| = (d.coeff.natAbs : Rat) / 10 ^ d.scale := by
    rw [toRat_eq, abs_div_ten_pow, ← Int.cast_abs, Int.abs_eq_natAbs, Int.cast_natCast]
  rw [habs, habs, zpow_sub₀ (by norm_num), zpow_natCast, zpow_natCast]
  field_simp

theorem isEvenRounding_divAbs? (a : Decimal) {b : Decimal} (hb : b.toRat ≠ 0) :
    IsEvenRounding (Division.longDivisor ≤ b.coeff.natAbs) (|a.toRat| / |b.toRat|)
      (divAbs? a b) := by
  have hcoeff : b.coeff ≠ 0 := mt toRat_eq_zero_iff.mpr hb
  rw [divAbs?]
  dsimp only
  rw [if_neg (Int.natAbs_ne_zero.mpr hcoeff)]
  split
  · rename_i hzero
    have hzero' : ofParts? 0 0 = some zero := rfl
    refine isEvenRounding_of_eq hzero' ?_
    rw [toRat, Int.natAbs_eq_zero.mp hzero]
    simp
  · rw [abs_toRat_div_abs_toRat]
    have hstart := Division.represents_start a.coeff.natAbs (Int.natAbs_pos.mpr hcoeff)
      ((a.scale : Int) - b.scale)
    have hlt : (Division.start a.coeff.natAbs b.coeff.natAbs
        ((a.scale : Int) - b.scale)).coeff < coeffBound :=
      Nat.lt_of_le_of_lt (Nat.div_le_self _ _) a.coeff_lt
    have hscale : (Division.start a.coeff.natAbs b.coeff.natAbs
        ((a.scale : Int) - b.scale)).scale ≤ maxScale := by
      change (a.scale : Int) - b.scale ≤ maxScale
      have := a.scale_le
      omega
    split
    · rename_i hrest
      exact Division.isEvenRounding_complete? hstart hrest hlt hscale
    · exact (Division.isEvenRounding_quotient? hstart hlt hscale).map toRat_dropGroups

/-- The sign of a quotient is below zero when the signs differ. -/
theorem toRat_div_toRat (a b : Decimal) :
    a.toRat / b.toRat =
      if a.isNegative = b.isNegative then |a.toRat| / |b.toRat|
      else -(|a.toRat| / |b.toRat|) := by
  have habs (d : Decimal) : d.toRat = if d.isNegative then -|d.toRat| else |d.toRat| := by
    cases h : d.isNegative with
    | true => rw [abs_of_neg (isNegative_iff.mp h), neg_neg, if_pos rfl]
    | false => rw [abs_of_nonneg (nonneg_of_not_isNegative h), if_neg (by decide)]
  rw [habs a, habs b]
  cases a.isNegative <;> cases b.isNegative <;> simp [neg_div, div_neg]

/-- **A quotient** is a rounding of the exact quotient to even, unless the divisor is long. -/
theorem isEvenRounding_div? (a : Decimal) {b : Decimal} (hb : b.toRat ≠ 0) :
    IsEvenRounding (Division.longDivisor ≤ b.coeff.natAbs) (a.toRat / b.toRat) (a.div? b) := by
  have habs := isEvenRounding_divAbs? a hb
  rw [div?, toRat_div_toRat]
  split
  · rwa [Option.map_id']
  · exact habs.neg

/-- **A quotient** is a rounding of the exact quotient. -/
theorem isRounding_div? (a : Decimal) {b : Decimal} (hb : b.toRat ≠ 0) :
    IsRounding (a.toRat / b.toRat) (a.div? b) :=
  (isEvenRounding_div? a hb).isRounding

/-! ## 6. The spelling of the operands -/

/-- The quotient is half way between two decimals and the divisor has three words. Which of
the two it is depends on the zeros at the end of the operands. -/
def Unsettled (a b : Decimal) : Prop :=
  Division.longDivisor ≤ b.coeff.natAbs ∧ Halfway (a.toRat / b.toRat)

theorem div?_eq_none_of_zero (a : Decimal) {b : Decimal} (hb : b.toRat = 0) : a.div? b = none := by
  simp [div?, divAbs?, toRat_eq_zero_iff.mp hb]

/-- **Settled quotients** of equal numbers by equal numbers are equal. -/
theorem map_toRat_div?_eq_of_settled {a a' b b' : Decimal} (ha : a.toRat = a'.toRat)
    (hb : b.toRat = b'.toRat) (hab : ¬Unsettled a b) (hab' : ¬Unsettled a' b') :
    (a.div? b).map toRat = (a'.div? b').map toRat := by
  by_cases hzero : b.toRat = 0
  · rw [div?_eq_none_of_zero a hzero, div?_eq_none_of_zero a' (hb ▸ hzero)]
  · have heven := (isEvenRounding_div? a hzero).of_not_halfway hab
    have heven' := (isEvenRounding_div? a' (hb ▸ hzero)).of_not_halfway hab'
    rw [← ha, ← hb] at heven'
    exact heven.map_toRat_eq heven'

/-- A settled quotient depends on the number that is divided, not on its spelling. -/
theorem map_toRat_div?_congr {a a' b : Decimal} (h : a.toRat = a'.toRat) (hab : ¬Unsettled a b) :
    (a.div? b).map toRat = (a'.div? b).map toRat :=
  map_toRat_div?_eq_of_settled h rfl hab (by rwa [Unsettled, ← h])

/-- The normal divisor has no more words than any other spelling of it. -/
theorem Unsettled.of_normalize {a b : Decimal} (h : Unsettled a b.normalize) : Unsettled a b := by
  obtain ⟨hlong, hhalfway⟩ := h
  rw [toRat_normalize] at hhalfway
  exact ⟨hlong.trans b.natAbs_coeff_normalize_le, hhalfway⟩

/-- **Dividing by the normal divisor** gives the same number, if the quotient is settled. -/
theorem map_toRat_div?_normalize {a b : Decimal} (hab : ¬Unsettled a b) :
    (a.div? b.normalize).map toRat = (a.div? b).map toRat :=
  map_toRat_div?_eq_of_settled rfl b.toRat_normalize (mt Unsettled.of_normalize hab) hab

/-! ## 7. The mark of a zero -/

theorem Division.unmarked_of_atScale? {c : Nat} {scale : Int} {d : Decimal}
    (h : atScale? c scale = some d) : d.fromBelow = false := by
  rw [atScale?] at h
  split at h
  · exact unmarked_of_ofParts? h
  · simp at h

theorem Division.unmarked_of_close? {n : Nat} {q : Division} {d : Decimal}
    (h : q.close? n = some d) : d.fromBelow = false := by
  unfold close? complete? rounded? at h
  dsimp only at h
  split_ifs at h <;> exact unmarked_of_atScale? h

theorem Division.unmarked_of_finish? {n places : Nat} {q : Division} {d : Decimal}
    (h : q.finish? n places = some d) : d.fromBelow = false := by
  induction places generalizing q with
  | zero => exact unmarked_of_close? h
  | succ places ih =>
    rw [finish?] at h
    split at h
    · exact unmarked_of_close? h
    · dsimp only at h
      split at h
      · exact ih h
      · exact unmarked_of_atScale? h

theorem unmarked_dropZeros {d : Decimal} (h : d.fromBelow = false) (places : Nat) :
    (d.dropZeros places).fromBelow = false := by
  rw [dropZeros]
  split
  · cases hd : ofParts? (d.coeff / tenTo places) (d.scale - places) with
    | none => exact h
    | some d' => exact unmarked_of_ofParts? hd
  · exact h

theorem unmarked_dropGroups {d : Decimal} (h : d.fromBelow = false) :
    d.dropGroups.fromBelow = false := by
  unfold dropGroups
  exact List.foldlRecOn (motive := fun d : Decimal => d.fromBelow = false) _ _ h
    fun _ hd places _ => unmarked_dropZeros hd places

theorem unmarked_of_divAbs? {a b d : Decimal} (h : divAbs? a b = some d) :
    d.fromBelow = false := by
  unfold divAbs? at h
  dsimp only at h
  split_ifs at h with hn hm hrest
  · obtain rfl := Option.some.inj h
    rfl
  · exact Division.unmarked_of_close? (n := b.coeff.natAbs)
      (by rwa [Division.close?, if_pos hrest])
  · obtain ⟨q, hq, rfl⟩ := Option.map_eq_some_iff.mp h
    exact unmarked_dropGroups (Division.unmarked_of_finish? hq)

end CurrencyPad.Decimal
