/-
CurrencyPad.Proofs.Decimal.Order — arithmetic and the order of numbers.

A rounding takes the finest scale that has room, so a larger number may be
rounded to a coarser grid than a smaller one. It is not rounded past it all
the same: of two different numbers the smaller one never has the larger
rounding (`Rounds.toRat_le_of_lt`). The grids meet where the room ends, and
there the coarser one has steps of ten, which is too far for the finer one
to reach.

A number below zero is treated as its opposite is: the opposite of an
operand gives the opposite of the result, digit by digit
(`mul?_neg`, `div?_neg`).
-/
import CurrencyPad.Proofs.Binary.Nearest
import CurrencyPad.Proofs.Decimal.Quotient

namespace CurrencyPad

namespace Decimal

/-! ## 1. Roundings keep the order -/

variable {x y : Rat} {d e : Decimal}

theorem Rounds.toRat_le_of_same_scale {scale : Nat} (hx : Rounds x d scale)
    (hy : Rounds y e scale) (hlt : x < y) : d.toRat ≤ e.toRat := by
  obtain ⟨c, -, hc, hcnear⟩ := hx.exists_coeff
  obtain ⟨m, -, hm, hmnear⟩ := hy.exists_coeff
  have hpow : (0 : Rat) < 10 ^ scale := by positivity
  have hscaled : x * 10 ^ scale < y * 10 ^ scale := mul_lt_mul_of_pos_right hlt hpow
  have hbelow : (c : Rat) < m + 1 := by
    have := (abs_le.mp hcnear).2
    have := (abs_le.mp hmnear).1
    linarith
  have hle : c ≤ m := Int.lt_add_one_iff.mp (by exact_mod_cast hbelow)
  rw [hc, hm]
  gcongr

/-- A rounding has room at its scale and at every coarser one. -/
theorem Rounds.abs_toRat_mul_le {scale k : Nat} (h : Rounds x d scale) (hk : k ≤ scale) :
    |d.toRat| * 10 ^ k ≤ coeffBound - 1 := by
  obtain ⟨c, hc, hvalue⟩ := h.multiple
  have hfine : (10 : Rat) ^ k ≤ 10 ^ scale := pow_le_pow_right₀ (by norm_num) hk
  calc |d.toRat| * (10 : Rat) ^ k ≤ |d.toRat| * 10 ^ scale := by gcongr
    _ = |(c : Rat)| := by rw [hvalue, abs_div_ten_pow, div_mul_cancel₀ _ (by positivity)]
    _ ≤ coeffBound - 1 := abs_le_of_natAbs_lt hc

/-- Where a number below zero has no room at the next scale, its rounding is a multiple of ten
there, and so it lies below all that has room. -/
theorem Rounds.toRat_mul_le_of_full {scale : Nat} (h : Rounds x d scale) (hneg : x < 0)
    (hroom : (coeffBound : Rat) ≤ |x| * 10 ^ (scale + 1) + 1 / 2) :
    d.toRat * 10 ^ (scale + 1) ≤ -(coeffBound - 1) := by
  obtain ⟨c, -, hvalue, hnear⟩ := h.exists_coeff
  have hten : d.toRat * 10 ^ (scale + 1) = (10 * c : Int) := by
    rw [hvalue, pow_succ]
    push_cast
    field_simp
  have hbelow : ((10 * c : Int) : Rat) < (-79228162514264337593543950330 : Int) := by
    have hhigh := (abs_le.mp hnear).2
    rw [abs_of_neg hneg, pow_succ] at hroom
    simp only [coeffBound] at hroom
    push_cast at hroom ⊢
    linarith
  have hmultiple : 10 * c ≤ -79228162514264337593543950335 := by
    have : 10 * c < -79228162514264337593543950330 := by exact_mod_cast hbelow
    omega
  rw [hten]
  have hcast : ((10 * c : Int) : Rat) ≤ (-79228162514264337593543950335 : Int) := by
    exact_mod_cast hmultiple
  refine hcast.trans (le_of_eq ?_)
  norm_num [coeffBound]

/-- Where the smaller number has the coarser grid, the larger one has room that the smaller
one has not. So the smaller one lies far below zero, and its grid reaches further down. -/
theorem Rounds.toRat_le_of_coarser {scale scale' : Nat} (hx : Rounds x d scale)
    (hy : Rounds y e scale') (hlt : x < y) (hscale : scale < scale') : d.toRat ≤ e.toRat := by
  rcases hx.finest with hmet | hmax | hroom
  · obtain ⟨c, -, hc⟩ := hx.multiple
    have hplaces : HasPlaces x scale' := HasPlaces.mono ⟨c, hmet ▸ hc⟩ hscale.le
    rw [hmet]
    exact hy.le_toRat_of_hasPlaces hplaces hlt.le
  · have := hy.scale_le
    omega
  · have hpow : (0 : Rat) < 10 ^ (scale + 1) := by positivity
    have hsize : |y| ≤ |x| := by
      have hfine : (10 : Rat) ^ (scale + 1) ≤ 10 ^ scale' :=
        pow_le_pow_right₀ (by norm_num) hscale
      have hgrow : |y| * (10 : Rat) ^ (scale + 1) ≤ |y| * 10 ^ scale' := by gcongr
      have := hy.abs_mul_le
      exact le_of_mul_le_mul_right (by linarith) hpow
    have hneg : x < 0 := by
      by_contra hpos
      rw [not_lt] at hpos
      rw [abs_of_nonneg hpos, abs_of_nonneg (hpos.trans hlt.le)] at hsize
      linarith
    refine le_of_mul_le_mul_right ?_ hpow
    calc d.toRat * 10 ^ (scale + 1) ≤ -(coeffBound - 1) := hx.toRat_mul_le_of_full hneg hroom
      _ ≤ -(|e.toRat| * 10 ^ (scale + 1)) := neg_le_neg (hy.abs_toRat_mul_le hscale)
      _ = -|e.toRat| * 10 ^ (scale + 1) := (neg_mul _ _).symm
      _ ≤ e.toRat * 10 ^ (scale + 1) := mul_le_mul_of_nonneg_right (neg_abs_le _) hpow.le

/-- **Roundings keep the order** of different numbers. -/
theorem Rounds.toRat_le_of_lt {scale scale' : Nat} (hx : Rounds x d scale)
    (hy : Rounds y e scale') (hlt : x < y) : d.toRat ≤ e.toRat := by
  rcases lt_trichotomy scale scale' with hscale | rfl | hscale
  · exact hx.toRat_le_of_coarser hy hlt hscale
  · exact hx.toRat_le_of_same_scale hy hlt
  · have hopposite := hy.neg.toRat_le_of_coarser hx.neg (neg_lt_neg hlt) hscale
    rw [toRat_neg, toRat_neg] at hopposite
    exact neg_le_neg_iff.mp hopposite

theorem IsRounding.toRat_le_of_lt {r r' : Option Decimal} (hx : IsRounding x r)
    (hy : IsRounding y r') (hlt : x < y) (hr : r = some d) (hr' : r' = some e) :
    d.toRat ≤ e.toRat := by
  subst hr hr'
  obtain ⟨scale, hrounds⟩ := hx
  obtain ⟨scale', hrounds'⟩ := hy
  exact hrounds.toRat_le_of_lt hrounds' hlt

/-- The products by a number that is not below zero are in the order of the factors. -/
theorem toRat_mul?_le {a b t r r' : Decimal} (hab : a.toRat ≤ b.toRat) (ht : 0 ≤ t.toRat)
    (hr : a.mul? t = some r) (hr' : b.mul? t = some r') : r.toRat ≤ r'.toRat := by
  rcases (mul_le_mul_of_nonneg_right hab ht).lt_or_eq with hlt | heq
  · exact (isRounding_mul? a t).toRat_le_of_lt (isRounding_mul? b t) hlt hr hr'
  · have hplaces := a.hasPlaces_toRat.mul t.hasPlaces_toRat
    have hsame := map_toRat_nearest?_congr hplaces (heq ▸ b.hasPlaces_toRat.mul t.hasPlaces_toRat)
    rw [← map_toRat_mul?, heq, ← map_toRat_mul?, hr, hr'] at hsame
    exact le_of_eq (Option.some.inj hsame)

/-- So are the quotients of different numbers by a number above zero. -/
theorem toRat_div?_le_of_lt {a b s q q' : Decimal} (hab : a.toRat < b.toRat) (hs : 0 < s.toRat)
    (hq : a.div? s = some q) (hq' : b.div? s = some q') : q.toRat ≤ q'.toRat :=
  (isRounding_div? a hs.ne').toRat_le_of_lt (isRounding_div? b hs.ne')
    (div_lt_div_of_pos_right hab hs) hq hq'

end Decimal

/-! ## 2. Opposite numbers -/

theorem Rounding.toEven_neg (x : Rat) : toEven (-x) = -toEven x := by
  have hdistance : |-x - ((-toEven x : Int) : Rat)| = |x - toEven x| := by
    push_cast
    rw [← neg_sub', abs_neg]
  rcases abs_lt_or_even x with hlt | heven
  · exact toEven_eq_of_lt (hdistance ▸ hlt)
  · refine toEven_eq_of_even ?_ (by omega)
    rw [hdistance, abs_sub_comm]
    exact abs_toEven_sub_le x

namespace Decimal

theorem neg_neg_of_unmarked {d : Decimal} (h : d.fromBelow = false) : - -d = d := by
  have hcoeff : - -d.coeff = d.coeff := neg_neg _
  change neg (neg d) = d
  cases d
  simp_all [neg]

theorem ofParts?_neg (c : Int) (scale : Nat) :
    ofParts? (-c) scale = (ofParts? c scale).map (-·) := by
  unfold ofParts?
  simp only [Int.natAbs_neg]
  split <;> rfl

theorem coeffAt_neg (x : Rat) (scale : Nat) : coeffAt (-x) scale = -coeffAt x scale := by
  rw [coeffAt, coeffAt, neg_mul, Rounding.toEven_neg]

theorem fittingScale?_neg (x : Rat) (places : Nat) :
    fittingScale? (-x) places = fittingScale? x places := by
  induction places with
  | zero => simp only [fittingScale?, coeffAt_neg, Int.natAbs_neg]
  | succ places ih => simp only [fittingScale?, coeffAt_neg, Int.natAbs_neg, ih]

theorem nearest?_neg (x : Rat) (places : Nat) :
    nearest? (-x) places = (nearest? x places).map (-·) := by
  unfold nearest?
  rw [fittingScale?_neg]
  cases fittingScale? x (min places maxScale) with
  | none => rfl
  | some scale => exact (congrArg (ofParts? · scale) (coeffAt_neg x scale)).trans (ofParts?_neg _ _)

theorem coeff_neg (a : Decimal) : (-a).coeff = -a.coeff := rfl

theorem mul?_neg (a b : Decimal) : (-a).mul? b = (a.mul? b).map (-·) := by
  unfold mul?
  simp only [coeff_neg, neg_eq_zero]
  split
  · rfl
  · rw [toRat_neg, neg_mul, nearest?_neg]
    rfl

theorem divAbs?_neg (a b : Decimal) : divAbs? (-a) b = divAbs? a b := by
  have hcoeff : (-a).coeff.natAbs = a.coeff.natAbs := Int.natAbs_neg a.coeff
  have hscale : (-a).scale = a.scale := rfl
  unfold divAbs?
  rw [hcoeff, hscale]

theorem isNegative_neg {a : Decimal} (h : a.coeff ≠ 0) : (-a).isNegative = !a.isNegative := by
  simp only [isNegative, coeff_neg]
  by_cases hneg : a.coeff < 0
  · simp [hneg]
    omega
  · simp [hneg]
    omega

theorem div?_neg (a b : Decimal) : (-a).div? b = (a.div? b).map (-·) := by
  unfold div?
  rw [divAbs?_neg, Option.map_map]
  by_cases hcoeff : a.coeff = 0
  · -- a quotient of zero is the zero without places, which is its own opposite
    have hneg : a.isNegative = false := by simp [isNegative, hcoeff]
    have hneg' : (-a).isNegative = false := by
      have hcoeff' : (-a).coeff = 0 := by rw [← Int.neg_zero, ← hcoeff]; rfl
      simp [isNegative, hcoeff']
    rw [hneg, hneg']
    have hquotient : divAbs? a b = none ∨ divAbs? a b = some zero := by
      unfold divAbs?
      dsimp only
      split_ifs <;> simp_all
    rcases hquotient with hq | hq <;> rw [hq]
    · rfl
    · cases b.isNegative <;> rfl
  · refine Option.map_congr fun d hd => ?_
    have hunmarked := unmarked_of_divAbs? hd
    rw [isNegative_neg hcoeff, Function.comp_apply]
    cases a.isNegative <;> cases b.isNegative
    · rfl
    · exact (neg_neg_of_unmarked hunmarked).symm
    · exact (neg_neg_of_unmarked hunmarked).symm
    · rfl

end Decimal
end CurrencyPad
