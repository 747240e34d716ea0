/-
CurrencyPad.Proofs.Decimal.HalfUp — literals of any length are rounded half
up.

What a literal is read as depends only on the number it denotes
(`halfUp?`). The digits are taken at the largest scale at which those of
the number, cut off there, still make a coefficient (`finestScale`), and
rounded half up. A coefficient that reaches the bound in this way gives up
one more place, and the number is rounded half up there. Without a place to
give up there is no number, and none where the whole part has no room.

How the proof goes. The reader keeps a coefficient and a scale and takes in
one digit after the other. While it goes on, the digits it has and the
digits that are left make the same number (`ofDigitChars_div_eq`). Where it
runs out of digits it has the number itself (`halfUp?_exact`). Where it
stops before, it has reached the finest scale, and since what is left is
less than one unit the next digit alone tells on which side of a half the
number lies (`StopsAt.map_toRat_carried`).
-/
import Mathlib.Data.Nat.Find
import CurrencyPad.Proofs.Decimal.Denotation

namespace CurrencyPad

/-! ## 1. The rule -/

/-- The nearest integer; a half goes up. -/
def Rounding.halfUp (x : Rat) : Int := (x + 1 / 2).floor

theorem Rounding.halfUp_eq {x : Rat} {n : Int} (hlow : n - 1 / 2 ≤ x) (hhigh : x < n + 1 / 2) :
    halfUp x = n := by
  have hle : n ≤ halfUp x := Rat.le_floor_iff.mpr (by linarith)
  have hlt : halfUp x < n + 1 := Rat.floor_lt_iff.mpr (by push_cast; linarith)
  omega

namespace Decimal

open Rounding Text

/-- Cut off at a scale, `x` has a coefficient within its bound. -/
def HasRoom (x : Rat) (scale : Nat) : Prop := (x * 10 ^ scale).floor < coeffBound

instance (x : Rat) : DecidablePred (HasRoom x) :=
  fun scale => inferInstanceAs (Decidable ((x * 10 ^ scale).floor < coeffBound))

/-- The largest scale at which `x` has room. -/
def finestScale (x : Rat) : Nat := Nat.findGreatest (HasRoom x) maxScale

/-- `x` rounded half up to a number of places. -/
def halfUpTo (places : Nat) (x : Rat) : Rat := halfUp (x * 10 ^ places) / 10 ^ places

/-- `x` rounded half up to as many places as it has room for, and to one less where this
reaches the bound. None when `x` has no room, or no place to give up. -/
def halfUp? (x : Rat) : Option Rat :=
  let scale := finestScale x
  if HasRoom x 0 then
    if halfUp (x * 10 ^ scale) < coeffBound then some (halfUpTo scale x)
    else if scale = 0 then none
    else some (halfUpTo (scale - 1) x)
  else none

/-! ## 2. The finest scale -/

variable {x : Rat} {s : Nat}

theorem hasRoom_iff : HasRoom x s ↔ x * 10 ^ s < coeffBound := by
  rw [HasRoom, Rat.floor_lt_iff]
  push_cast
  exact Iff.rfl

/-- What has room has room with fewer places. -/
theorem HasRoom.mono (h : HasRoom x s) (hx : 0 ≤ x) {k : Nat} (hk : k ≤ s) : HasRoom x k := by
  have hpow : (10 : Rat) ^ k ≤ 10 ^ s := pow_le_pow_right₀ (by norm_num) hk
  have hscaled : x * 10 ^ k ≤ x * 10 ^ s := mul_le_mul_of_nonneg_left hpow hx
  exact hasRoom_iff.mpr (hscaled.trans_lt (hasRoom_iff.mp h))

/-- A scale with room is the finest if there is none after it, or no room. -/
theorem finestScale_eq (hx : 0 ≤ x) (hs : s ≤ maxScale) (hroom : HasRoom x s)
    (hlast : s = maxScale ∨ ¬HasRoom x (s + 1)) : finestScale x = s := by
  rw [finestScale, Nat.findGreatest_eq_iff]
  refine ⟨hs, fun _ => hroom, fun k hlt hle hk => ?_⟩
  rcases hlast with rfl | hlast
  · omega
  · exact hlast (hk.mono hx hlt)

theorem halfUp?_of_lt {c : Int} (hroom : HasRoom x 0) (hcoeff : halfUp (x * 10 ^ finestScale x) = c)
    (hc : c < coeffBound) : halfUp? x = some ((c : Rat) / 10 ^ finestScale x) := by
  simp only [halfUp?, halfUpTo]
  rw [if_pos hroom, hcoeff, if_pos hc]

/-- No whole part that large has room. -/
theorem halfUp?_of_le_self (hx : coeffBound ≤ x) : halfUp? x = none := by
  have hroom : ¬HasRoom x 0 := by
    rw [hasRoom_iff, pow_zero, mul_one]
    exact not_lt.mpr hx
  simp only [halfUp?]
  rw [if_neg hroom]

/-- Where rounding reaches the bound, a place is given up. -/
theorem halfUp?_of_le (hroom : HasRoom x 0)
    (hcoeff : coeffBound ≤ halfUp (x * 10 ^ finestScale x)) :
    halfUp? x = if finestScale x = 0 then none else some (halfUpTo (finestScale x - 1) x) := by
  simp only [halfUp?]
  rw [if_pos hroom, if_neg hcoeff.not_gt]

/-- **What has room for all its places** is not rounded. -/
theorem halfUp?_exact (hx : 0 ≤ x) (hs : s ≤ maxScale) (hroom : HasRoom x s)
    (hplaces : HasPlaces x s) : halfUp? x = some x := by
  have hfinest : HasRoom x (finestScale x) := Nat.findGreatest_spec hs hroom
  have hmore : s ≤ finestScale x := Nat.le_findGreatest hs hroom
  obtain ⟨c, hc⟩ := hplaces.mono hmore
  have hscaled : x * 10 ^ finestScale x = c := (eq_div_iff (by positivity)).mp hc
  have hcoeff : halfUp (x * 10 ^ finestScale x) = c := by
    rw [hscaled, halfUp, floor_add_half]
  have hfits : c < coeffBound := by
    rw [hasRoom_iff, hscaled] at hfinest
    exact_mod_cast hfinest
  rw [halfUp?_of_lt (hroom.mono hx s.zero_le) hcoeff hfits, ← hc]

/-! ## 3. Where the reader stops -/

variable {cs : List Char}

theorem map_toRat_ofParts? {m : Nat} (hm : m < coeffBound) (hs : s ≤ maxScale) :
    (ofParts? m s).map toRat = some ((m : Rat) / 10 ^ s) := by
  obtain ⟨d, hd, hvalue⟩ := ofParts?_of_lt (c := m) (by rwa [Int.natAbs_natCast]) hs
  rw [hd, Option.map_some, hvalue, Int.cast_natCast]

/-- A carry onto the bound leaves a coefficient that rounds the number with one place less. -/
theorem halfUpTo_of_carry {m k : Nat} (hm : m + 1 = coeffBound)
    (hlow : (m : Rat) + 1 / 2 ≤ x * 10 ^ (k + 1)) (hhigh : x * 10 ^ (k + 1) < m + 1) :
    halfUpTo k x = ((m + 1 + 4) / 10 : Nat) / 10 ^ k := by
  obtain rfl : m = 79228162514264337593543950335 := by
    rw [coeffBound] at hm
    omega
  rw [pow_succ, ← mul_assoc] at hlow hhigh
  have hcoeff : halfUp (x * 10 ^ k) = 7922816251426433759354395034 :=
    halfUp_eq (by push_cast at hlow ⊢; linarith) (by push_cast at hhigh ⊢; linarith)
  rw [halfUpTo, hcoeff]
  norm_num

/-- The reading of `x` stops: `m / 10 ^ s` was read, there is no room for the next digit, and
`rest` follows that digit, in units of it. -/
structure StopsAt (x : Rat) (m s digit : Nat) (rest : Rat) : Prop where
  coeff_lt : m < coeffBound
  scale_le : s ≤ maxScale
  digit_lt : digit < 10
  rest_nonneg : 0 ≤ rest
  rest_lt : rest < 1
  value : x * 10 ^ s = m + (digit + rest) / 10
  full : ¬(s < maxScale ∧ 10 * m + digit < coeffBound)

namespace StopsAt

variable {m digit : Nat} {rest : Rat}

theorem nonneg (h : StopsAt x m s digit rest) : 0 ≤ x := by
  have hrest := h.rest_nonneg
  have hscaled : 0 ≤ x * 10 ^ s := by
    rw [h.value]
    positivity
  exact nonneg_of_mul_nonneg_left hscaled (by positivity)

/-- What is left over is less than a unit. -/
theorem lt_succ (h : StopsAt x m s digit rest) : x * 10 ^ s < m + 1 := by
  have hdigit : (digit : Rat) ≤ 9 := by exact_mod_cast Nat.le_of_lt_succ h.digit_lt
  rw [h.value]
  linarith [h.rest_lt]

theorem hasRoom (h : StopsAt x m s digit rest) : HasRoom x s := by
  have hfits : (m : Rat) + 1 ≤ coeffBound := by exact_mod_cast h.coeff_lt
  exact hasRoom_iff.mpr (h.lt_succ.trans_le hfits)

/-- The reading has reached the finest scale. -/
theorem finestScale_eq (h : StopsAt x m s digit rest) : finestScale x = s := by
  refine Decimal.finestScale_eq h.nonneg h.scale_le h.hasRoom ?_
  rcases h.scale_le.eq_or_lt with heq | hlt
  · exact .inl heq
  · refine .inr fun hnext => h.full ⟨hlt, ?_⟩
    rw [hasRoom_iff, pow_succ, ← mul_assoc, h.value] at hnext
    have hfits : ((10 * m + digit : Nat) : Rat) < coeffBound := by
      push_cast
      linarith [h.rest_nonneg]
    exact_mod_cast hfits

/-- The digit tells on which side of a half the number lies. -/
theorem half_le (h : StopsAt x m s digit rest) (hup : 5 ≤ digit) :
    (m : Rat) + 1 / 2 ≤ x * 10 ^ s := by
  have hdigit : (5 : Rat) ≤ digit := by exact_mod_cast hup
  rw [h.value]
  linarith [h.rest_nonneg]

theorem lt_half (h : StopsAt x m s digit rest) (hdown : ¬5 ≤ digit) :
    x * 10 ^ s < m + 1 / 2 := by
  have hdigit : (digit : Rat) ≤ 4 := by exact_mod_cast Nat.le_of_lt_succ (Nat.not_le.mp hdown)
  rw [h.value]
  linarith [h.rest_lt]

/-- **The first digit that is left over** rounds the number half up. -/
theorem map_toRat_carried (h : StopsAt x m s digit rest) :
    (carried (decide (5 ≤ digit)) m s).map toRat = halfUp? x := by
  have hroom := h.hasRoom.mono h.nonneg s.zero_le
  have hlow : (m : Rat) ≤ x * 10 ^ s := by
    have hrest := h.rest_nonneg
    rw [h.value]
    exact le_add_of_nonneg_right (by positivity)
  obtain rfl := h.finestScale_eq
  by_cases hup : 5 ≤ digit
  · have hcoeff : halfUp (x * 10 ^ finestScale x) = (m + 1 : Nat) :=
      halfUp_eq (by push_cast; linarith [h.half_le hup]) (by push_cast; linarith [h.lt_succ])
    rw [carried, if_pos (decide_eq_true hup)]
    rcases Nat.lt_or_ge (m + 1) coeffBound with hfits | hcarry
    · rw [if_pos hfits, map_toRat_ofParts? hfits h.scale_le,
        halfUp?_of_lt hroom hcoeff (by exact_mod_cast hfits), Int.cast_natCast]
    · rw [if_neg hcarry.not_gt, halfUp?_of_le hroom (by rw [hcoeff]; exact_mod_cast hcarry)]
      have hbound : m + 1 = coeffBound := Nat.le_antisymm h.coeff_lt hcarry
      cases hscale : finestScale x with
      | zero => rfl
      | succ k =>
        -- a place is given up, where the number lies just below the bound
        rw [hscale] at h
        rw [if_neg k.succ_ne_zero, if_neg k.succ_ne_zero, Nat.add_sub_cancel,
          map_toRat_ofParts? (by rw [hbound]; decide) (Nat.le_of_succ_le h.scale_le),
          halfUpTo_of_carry hbound (h.half_le hup) h.lt_succ]
  · have hcoeff : halfUp (x * 10 ^ finestScale x) = m :=
      halfUp_eq (by push_cast; linarith) (by push_cast; linarith [h.lt_half hup])
    rw [carried, if_neg (by simpa using hup), map_toRat_ofParts? h.coeff_lt h.scale_le,
      halfUp?_of_lt hroom hcoeff (by exact_mod_cast h.coeff_lt), Int.cast_natCast]

end StopsAt

/-! ## 4. The reader -/

/-- The digits before and after the point, read in one go. -/
theorem ofDigitChars_div_eq (cs : List Char) (m s : Nat) :
    (Nat.ofDigitChars 10 cs m : Rat) / 10 ^ (s + cs.length) =
      (m + number cs / 10 ^ cs.length) / 10 ^ s := by
  rw [Nat.ofDigitChars_eq_ofDigitChars_zero, ← number, pow_add]
  push_cast
  field_simp

/-- What is left to be read is less than a unit. -/
theorem number_div_lt_one (hdigits : ∀ c ∈ cs, c.isDigit = true) :
    (number cs : Rat) / 10 ^ cs.length < 1 := by
  rw [div_lt_one (by positivity)]
  exact_mod_cast number_lt hdigits

/-- Its first digit apart, it is that digit's tenths and less than another. -/
theorem number_cons_div (c : Char) (r : List Char) :
    (number (c :: r) : Rat) / 10 ^ (c :: r).length =
      (digitValue c + number r / 10 ^ r.length) / 10 := by
  rw [number_cons, List.length_cons, pow_succ]
  push_cast
  field_simp

/-- **Fraction digits** round the number they make half up. -/
theorem map_toRat_readFraction (hdigits : ∀ c ∈ cs, c.isDigit = true) {m s : Nat}
    (hm : m < coeffBound) (hs : s ≤ maxScale) :
    (readFraction m s cs).map toRat =
      halfUp? ((Nat.ofDigitChars 10 cs m : Rat) / 10 ^ (s + cs.length)) := by
  induction cs generalizing m s with
  | nil =>
    have hroom : HasRoom ((m : Rat) / 10 ^ s) s := by
      rw [hasRoom_iff, div_mul_cancel₀ _ (by positivity)]
      exact_mod_cast hm
    rw [readFraction, Nat.ofDigitChars_nil, List.length_nil, Nat.add_zero,
      map_toRat_ofParts? hm hs, halfUp?_exact (by positivity) hs hroom ⟨m, by push_cast; rfl⟩]
  | cons c r ih =>
    have hc : c.isDigit = true := hdigits c (by simp)
    have hr : ∀ x ∈ r, x.isDigit = true := fun x hx => hdigits x (by simp [hx])
    rw [readFraction, if_pos hc]
    by_cases hfits : s < maxScale ∧ 10 * m + digitValue c < coeffBound
    · have hlength : s + (c :: r).length = s + 1 + r.length := by
        rw [List.length_cons]
        omega
      rw [if_pos hfits, hlength, ofDigitChars_cons]
      exact ih hr hfits.2 hfits.1
    · rw [if_neg hfits, if_pos (by simpa using hr)]
      have hvalue : (Nat.ofDigitChars 10 (c :: r) m : Rat) / 10 ^ (s + (c :: r).length) * 10 ^ s =
          m + (digitValue c + number r / 10 ^ r.length) / 10 := by
        rw [ofDigitChars_div_eq, div_mul_cancel₀ _ (by positivity), number_cons_div]
      exact StopsAt.map_toRat_carried
        ⟨hm, hs, digitValue_lt hc, by positivity, number_div_lt_one hr, hvalue, hfits⟩

/-- Whole digits are refused when the number they make does not fit. -/
theorem readWhole_eq_none (hdigits : ∀ c ∈ cs, c.isDigit = true) {m : Nat} (hm : m < coeffBound)
    (hlarge : coeffBound ≤ Nat.ofDigitChars 10 cs m) (rest : List Char) :
    readWhole m (cs ++ rest) = none := by
  induction cs generalizing m with
  | nil =>
    rw [Nat.ofDigitChars_nil] at hlarge
    omega
  | cons c r ih =>
    have hc : c.isDigit = true := hdigits c (by simp)
    rw [ofDigitChars_cons] at hlarge
    rw [List.cons_append, readWhole, if_neg (ne_point_of_isDigit hc), if_pos hc]
    dsimp only
    split
    · exact ih (fun x hx => hdigits x (by simp [hx])) ‹_› hlarge
    · rfl

/-- A literal is read as its whole digits and then as fraction digits. These are a zero
where it ends in its point, and none where it has no point. -/
theorem exists_fraction (hshape : LiteralShape cs) :
    ∃ rest fraction, withFraction cs = literalWhole cs ++ rest ∧
      (∀ m, readWhole m rest = readFraction m 0 fraction) ∧
      (∀ c ∈ fraction, c.isDigit = true) ∧
      literalRat cs = number (literalWhole cs) + number fraction / 10 ^ fraction.length := by
  have hfraction := hshape.isDigit_fraction
  have hpoint (r : List Char) (m : Nat) : readWhole m ('.' :: r) = readFraction m 0 r := by
    rw [readWhole, if_pos rfl]
  rcases literal_cases cs with ⟨hwhole, hnil⟩ | hsplit
  · have hclosed : withFraction cs = cs := by
      rw [withFraction, if_neg]
      intro hlast
      rw [hwhole] at hlast
      exact point_not_mem_literalWhole cs (List.mem_of_getLast? hlast)
    exact ⟨[], [], by rw [hclosed, List.append_nil, ← hwhole], fun _ => rfl, by simp,
      by rw [literalRat, hnil]⟩
  · cases hlast : (literalFraction cs).getLast? with
    | none =>
      have hnil : literalFraction cs = [] := by simpa using hlast
      rw [hnil] at hsplit
      refine ⟨_, ['0'], ?_, hpoint ['0'], List.forall_mem_singleton.mpr rfl, ?_⟩
      · rw [withFraction, if_pos (by rw [hsplit]; simp)]
        nth_rewrite 1 [hsplit]
        simp
      · rw [literalRat, hnil]
        simp [number, Nat.ofDigitChars]
    | some c =>
      have hend : cs.getLast? = some c := by
        rw [hsplit, List.getLast?_append, List.getLast?_cons, hlast]
        rfl
      have hclosed : withFraction cs = cs :=
        withFraction_of_isDigit hend (hfraction c (List.mem_of_getLast? hlast))
      exact ⟨_, literalFraction cs, hclosed.trans hsplit, hpoint _, hfraction, rfl⟩

/-- **A literal** is read as the number it denotes, rounded half up. -/
theorem map_toRat_ofLiteral? (hshape : LiteralShape cs) :
    (ofLiteral? cs).map toRat = halfUp? (literalRat cs) := by
  obtain ⟨rest, fraction, hclosed, hread, hfraction, hvalue⟩ := exists_fraction hshape
  rw [ofLiteral?, if_pos (by simpa using hshape.digit), hclosed]
  rcases Nat.lt_or_ge (number (literalWhole cs)) coeffBound with hfits | hlarge
  · calc (readWhole 0 (literalWhole cs ++ rest)).map toRat
        = (readFraction (number (literalWhole cs)) 0 fraction).map toRat := by
          rw [readWhole_digits hshape.isDigit_whole 0 hfits, hread, number]
      _ = halfUp? ((Nat.ofDigitChars 10 fraction (number (literalWhole cs)) : Rat) /
            10 ^ (0 + fraction.length)) :=
          map_toRat_readFraction hfraction hfits (Nat.zero_le _)
      _ = halfUp? (literalRat cs) := by rw [ofDigitChars_div_eq, pow_zero, div_one, hvalue]
  · have hle : (coeffBound : Rat) ≤ literalRat cs := by
      have hlarge' : (coeffBound : Rat) ≤ number (literalWhole cs) := by exact_mod_cast hlarge
      rw [hvalue]
      exact hlarge'.trans (le_add_of_nonneg_right (by positivity))
    rw [readWhole_eq_none hshape.isDigit_whole (by decide) hlarge, halfUp?_of_le_self hle,
      Option.map_none]

end Decimal
end CurrencyPad
