/-
CurrencyPad.Decimal.Arithmetic — checked sums and products of decimals.

Every operation computes the exact rational result and then takes the
nearest decimal (`nearest?`): the largest scale at which the result,
rounded half to even, still has a 96-bit coefficient. When not even a
whole number fits, the operation overflows and there is no result.

A result has the number of fraction digits one would write by hand, the
longer operand's for a sum and both operands' together for a product, or
fewer where that many do not fit. The scale says nothing about the value,
so it is the same whether one asks for these or for all 28.

A zero takes no part in a sum or difference, so its fraction digits are
not counted: the other operand stays as it is written. A product with a
zero is the zero without fraction digits.
-/
import CurrencyPad.Rounding
import CurrencyPad.Decimal.Basic

namespace CurrencyPad.Decimal

open Rounding

/-! ## 1. The nearest decimal -/

/-- The coefficient of `x` at a given scale, rounded half to even. -/
def coeffAt (x : Rat) (scale : Nat) : Int := toEven (x * (tenTo scale : Rat))

/-- The largest scale up to the given one at which `x` fits. -/
def fittingScale? (x : Rat) : Nat → Option Nat
  | 0 => if (coeffAt x 0).natAbs < coeffBound then some 0 else none
  | s + 1 =>
    if (coeffAt x (s + 1)).natAbs < coeffBound then some (s + 1)
    else fittingScale? x s

/-- The decimal nearest to `x` with at most `places` fraction digits, or none when
`x` is out of range. -/
def nearest? (x : Rat) (places : Nat) : Option Decimal := do
  let scale ← fittingScale? x (min places maxScale)
  ofParts? (coeffAt x scale) scale

/-! ## 2. Sums and products -/

def add? (a b : Decimal) : Option Decimal :=
  if a.coeff = 0 then some b
  else if b.coeff = 0 then some a
  else nearest? (a.toRat + b.toRat) (max a.scale b.scale)

def sub? (a b : Decimal) : Option Decimal :=
  if a.coeff = 0 then some (-b)
  else if b.coeff = 0 then some a
  else nearest? (a.toRat - b.toRat) (max a.scale b.scale)

def mul? (a b : Decimal) : Option Decimal :=
  if a.coeff = 0 ∨ b.coeff = 0 then some zero
  else nearest? (a.toRat * b.toRat) (a.scale + b.scale)

/-! ## 3. Rounding for display -/

/-- At most `digits` fraction digits, a half going away from zero. A number
with no more than that is kept as it is. -/
def roundTo (digits : Nat) (d : Decimal) : Decimal :=
  if digits < d.scale then
    (ofParts? (awayFromZero (d.toRat * (tenTo digits : Rat))) digits).getD d
  else d

end CurrencyPad.Decimal
