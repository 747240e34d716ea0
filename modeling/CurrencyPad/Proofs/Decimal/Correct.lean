/-
CurrencyPad.Proofs.Decimal.Correct — the correctly rounded quotient.

The correctly rounded result for a number is its nearest decimal with all
the places there are, half to even (`nearest?`). Long division gives this
very number for every quotient that is settled (`map_toRat_div?_eq`), and
no result exactly when the divisor is zero or the quotient overflows
(`div?_eq_none_iff`).

What the decimals can hold comes out exactly, so a number divided by
itself is one and a number divided by one is the same number; and quotients
by one divisor are in the order of the numbers that are divided
(`toRat_div?_le`).
-/
import CurrencyPad.Proofs.Decimal.Exactness
import CurrencyPad.Proofs.Decimal.Order

namespace CurrencyPad.Decimal

/-! ## 1. The correctly rounded result -/

/-- The correctly rounded result for `x`: the nearest decimal at the largest scale with room
for it, a half going to the even neighbour. -/
def correctlyRounded? (x : Rat) : Option Decimal := nearest? x maxScale

/-- **The nearest decimal** is a rounding to even without exemption. -/
theorem isEvenRounding_correctlyRounded? (x : Rat) :
    IsEvenRounding False x (correctlyRounded? x) := by
  rw [correctlyRounded?]
  rcases nearest?_cases x maxScale with
    ⟨hnone, hlarge⟩ | ⟨d, scale, hd, hle, hfits, hvalue, hlast⟩
  · rw [hnone]
    exact hlarge
  · rw [min_self] at hle hlast
    rw [hd]
    refine ⟨scale, ⟨hle, ⟨_, hfits, hvalue⟩, hvalue ▸ abs_coeffAt_div_sub_le x scale,
      .inr hlast⟩, fun htie => .inl ⟨_, ?_, hvalue⟩⟩
    -- a half has been sent to the even coefficient
    rw [abs_toRat_sub_eq_iff hvalue, abs_sub_comm, coeffAt, cast_tenTo] at htie
    rw [coeffAt, cast_tenTo]
    exact (Rounding.abs_lt_or_even _).resolve_left htie.not_lt

variable {a b : Decimal}

/-- **A settled quotient** is correctly rounded. -/
theorem map_toRat_div?_eq (hb : b.toRat ≠ 0) (hab : ¬Unsettled a b) :
    (a.div? b).map toRat = (correctlyRounded? (a.toRat / b.toRat)).map toRat :=
  ((isEvenRounding_div? a hb).of_not_halfway hab).map_toRat_eq (isEvenRounding_correctlyRounded? _)

/-- **There is no quotient** exactly by zero, and where it overflows. -/
theorem div?_eq_none_iff : a.div? b = none ↔ b.toRat = 0 ∨ Overflows (a.toRat / b.toRat) := by
  by_cases hb : b.toRat = 0
  · simp [hb, div?_eq_none_of_zero a hb]
  · rw [(isEvenRounding_div? a hb).eq_none_iff]
    simp [hb]

/-! ## 2. Exact quotients -/

/-- **A quotient that the decimals can hold** is exact. -/
theorem div?_exact (hb : b.toRat ≠ 0) (h : Representable (a.toRat / b.toRat)) :
    ∃ q, a.div? b = some q ∧ q.toRat = a.toRat / b.toRat :=
  (isRounding_div? a hb).exact h

theorem toRat_one : one.toRat = 1 := by
  rw [toRat_eq]
  simp [one]

/-- A number divided by an equal one is one. -/
theorem div?_of_eq (hb : b.toRat ≠ 0) (h : a.toRat = b.toRat) :
    ∃ q, a.div? b = some q ∧ q.toRat = 1 := by
  have hone : a.toRat / b.toRat = one.toRat := by rw [h, div_self hb, toRat_one]
  obtain ⟨q, hq, hvalue⟩ := div?_exact hb (hone ▸ representable_toRat one)
  exact ⟨q, hq, by rw [hvalue, hone, toRat_one]⟩

/-- A number divided by one is that number. -/
theorem div?_of_eq_one (a : Decimal) (h : b.toRat = 1) :
    ∃ q, a.div? b = some q ∧ q.toRat = a.toRat := by
  have hb : b.toRat ≠ 0 := by rw [h]; norm_num
  have hquotient : a.toRat / b.toRat = a.toRat := by rw [h, div_one]
  obtain ⟨q, hq, hvalue⟩ := div?_exact hb (hquotient ▸ representable_toRat a)
  exact ⟨q, hq, hvalue.trans hquotient⟩

/-! ## 3. Order -/

/-- A quotient of numbers of one sign is not below zero. -/
theorem nonneg_of_div? {q : Decimal} (ha : 0 ≤ a.toRat) (hb : 0 < b.toRat)
    (hq : a.div? b = some q) : 0 ≤ q.toRat := by
  have hrounding := isRounding_div? a hb.ne'
  rw [hq] at hrounding
  obtain ⟨scale, hrounds⟩ := hrounding
  exact hrounds.nonneg (by positivity)

/-- **Quotients by one divisor** are in the order of the numbers that are divided; two spellings
of one number have the same quotient if it is settled. -/
theorem toRat_div?_le {a a' b q q' : Decimal} (hb : 0 < b.toRat) (hle : a.toRat ≤ a'.toRat)
    (hsettled : a.toRat = a'.toRat → a = a' ∨ ¬Unsettled a b) (hq : a.div? b = some q)
    (hq' : a'.div? b = some q') : q.toRat ≤ q'.toRat := by
  rcases hle.lt_or_eq with hlt | heq
  · exact toRat_div?_le_of_lt hlt hb hq hq'
  · rcases hsettled heq with rfl | hsettled
    · exact le_of_eq (by rw [Option.some.inj (hq.symm.trans hq')])
    · have hsame := map_toRat_div?_congr heq hsettled
      rw [hq, hq'] at hsame
      exact le_of_eq (Option.some.inj hsame)

end CurrencyPad.Decimal
