/-
CurrencyPad.Proofs.Decimal.Exactness — what the decimals can hold is not
rounded.

A number is `Representable` when some coefficient and scale within bounds
make it. A rounding of such a number is the number itself
(`IsRounding.exact`): where the scale that was taken is too coarse for it,
the next one would have had room.

A literal may have any number of digits. If the number is representable
there is room for all its places, so that no literal of it is rounded or
refused (`ofLiteral?_exact`).
-/
import CurrencyPad.Proofs.Decimal.HalfUp
import CurrencyPad.Proofs.Decimal.Quotient

namespace CurrencyPad.Decimal

/-! ## 1. Representable numbers -/

/-- A coefficient of at most 96 bits with at most 28 fraction digits. -/
def Representable (x : Rat) : Prop :=
  ∃ (m : Int) (k : Nat), m.natAbs < coeffBound ∧ k ≤ maxScale ∧ x = m / 10 ^ k

variable {x : Rat}

theorem representable_toRat (d : Decimal) : Representable d.toRat :=
  ⟨d.coeff, d.scale, d.coeff_lt, d.scale_le, toRat_eq d⟩

/-- A representable number has no more places than a scale, or it has room at the next. -/
theorem Representable.hasPlaces_or (h : Representable x) (scale : Nat) :
    HasPlaces x scale ∨
      scale < maxScale ∧ |x| * 10 ^ (scale + 1) ≤ coeffBound - 1 := by
  obtain ⟨m, k, hm, hk, rfl⟩ := h
  rcases Nat.lt_or_ge scale k with hlt | hle
  · refine .inr ⟨by omega, ?_⟩
    have hfine : (10 : Rat) ^ (scale + 1) ≤ 10 ^ k := pow_le_pow_right₀ (by norm_num) hlt
    calc |(m : Rat) / 10 ^ k| * 10 ^ (scale + 1) ≤ |(m : Rat) / 10 ^ k| * 10 ^ k := by gcongr
      _ = |(m : Rat)| := by rw [abs_div_ten_pow, div_mul_cancel₀ _ (by positivity)]
      _ ≤ coeffBound - 1 := abs_le_of_natAbs_lt hm
  · exact .inl (HasPlaces.mono ⟨m, rfl⟩ hle)

theorem Representable.abs_le (h : Representable x) : |x| ≤ coeffBound - 1 := by
  obtain ⟨m, k, hm, -, rfl⟩ := h
  have hone : (1 : Rat) ≤ 10 ^ k := one_le_pow₀ (by norm_num)
  rw [abs_div_ten_pow]
  exact (div_le_self (abs_nonneg _) hone).trans (abs_le_of_natAbs_lt hm)

/-- **A representable number is its own rounding.** -/
theorem IsRounding.exact {r : Option Decimal} (h : IsRounding x r) (hx : Representable x) :
    ∃ d, r = some d ∧ d.toRat = x := by
  cases r with
  | none =>
    have hlarge : (coeffBound : Rat) ≤ |x| + 1 / 2 := h
    have := hx.abs_le
    linarith
  | some d =>
    obtain ⟨scale, hrounds⟩ := h
    refine ⟨d, rfl, ?_⟩
    rcases hx.hasPlaces_or scale with hplaces | ⟨hscale, hroom⟩
    · exact hrounds.toRat_eq_of_hasPlaces hplaces
    · rcases hrounds.finest with hmet | hmax | hfull
      · exact hmet
      · omega
      · linarith

/-- A representable number that is not below zero has room for all its places. -/
theorem Representable.exists_room (h : Representable x) (hx : 0 ≤ x) :
    ∃ s, s ≤ maxScale ∧ HasRoom x s ∧ HasPlaces x s := by
  obtain ⟨m, k, hm, hk, rfl⟩ := h
  refine ⟨k, hk, ?_, m, rfl⟩
  rw [hasRoom_iff, div_mul_cancel₀ _ (by positivity)]
  exact (le_abs_self _).trans_lt (lt_coeffBound_iff.mp hm)

/-! ## 2. Reading a representable number -/

variable {cs : List Char}

/-- **A literal of a representable number reads as that number**, whatever zeros it is
written with. -/
theorem ofLiteral?_exact (hshape : LiteralShape cs) (h : Representable (literalRat cs)) :
    ∃ d, ofLiteral? cs = some d ∧ d.toRat = literalRat cs := by
  have hnonneg : 0 ≤ literalRat cs := by
    rw [literalRat]
    positivity
  obtain ⟨s, hs, hroom, hplaces⟩ := h.exists_room hnonneg
  have hread := map_toRat_ofLiteral? hshape
  rw [halfUp?_exact hnonneg hs hroom hplaces] at hread
  exact Option.map_eq_some_iff.mp hread

end CurrencyPad.Decimal
