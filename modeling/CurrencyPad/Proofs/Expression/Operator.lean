/-
CurrencyPad.Proofs.Expression.Operator — the four operators as arithmetic.

An operator has an exact result, a rational, and what it gives is a
rounding of that (`isRounding_apply`). So it is exact where the decimals
can hold the exact result (`apply_exact`), and its result depends on the
numbers it is applied to, not on how they are spelled, apart from quotients
that are unsettled (`map_toRat_apply_congr`).
-/
import CurrencyPad.Expression.Operator
import CurrencyPad.Proofs.Decimal.Exactness

namespace CurrencyPad.Operator

open Decimal

/-- The exact result of an operation. -/
def exact : Operator → Rat → Rat → Rat
  | add => (· + ·)
  | subtract => (· - ·)
  | multiply => (· * ·)
  | divide => (· / ·)

variable {op : Operator} {a b : Decimal}

/-- **Every operation gives a rounding** of its exact result. -/
theorem isRounding_apply (hb : op = .divide → b.toRat ≠ 0) :
    IsRounding (op.exact a.toRat b.toRat) (op.apply a b) := by
  cases op with
  | add => exact isRounding_add? a b
  | subtract => exact isRounding_sub? a b
  | multiply => exact isRounding_mul? a b
  | divide => exact isRounding_div? a (hb rfl)

/-- **A representable result is exact.** -/
theorem apply_exact (hb : op = .divide → b.toRat ≠ 0)
    (h : Representable (op.exact a.toRat b.toRat)) :
    ∃ d, op.apply a b = some d ∧ d.toRat = op.exact a.toRat b.toRat :=
  (isRounding_apply hb).exact h

/-- **The spelling of the first operand** makes no difference, if a quotient is settled. -/
theorem map_toRat_apply_congr {a' : Decimal} (h : a.toRat = a'.toRat)
    (hsettled : op = .divide → ¬Unsettled a b) :
    (op.apply a b).map toRat = (op.apply a' b).map toRat := by
  cases op with
  | add => exact map_toRat_add?_congr h rfl
  | subtract => exact map_toRat_sub?_congr h rfl
  | multiply => exact map_toRat_mul?_congr h rfl
  | divide => exact map_toRat_div?_congr h (hsettled rfl)

end CurrencyPad.Operator
