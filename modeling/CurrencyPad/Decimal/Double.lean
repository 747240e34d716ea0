/-
CurrencyPad.Decimal.Double — decimals and doubles.

From a double, a decimal takes the shortest digits that spell the double,
so that `0.9` is nine tenths and not its binary neighbour.

To a double, a decimal is converted in steps that each round: the whole
part and the fraction apart, their sum, and at last the sum to as many
decimal places as the decimal has.
-/
import CurrencyPad.Decimal.Numeral
import CurrencyPad.Binary.Shortest

namespace CurrencyPad.Decimal

open Binary

/-! ## 1. From a double -/

/-- The decimal that the double's shortest digits spell. -/
def ofDouble? (x : Rat) : Option Decimal := ofSigned? (plainChars x)

/-! ## 2. To a double -/

/-- The double of `m / 10 ^ scale`. -/
def doubleOfParts (m scale : Nat) : Rat :=
  let unit := tenTo scale
  let whole := double.nearest (m / unit : Nat)
  let part := double.nearest (double.nearest (m % unit : Nat) / double.nearest unit)
  if part = 0 then whole
  else
    let sum := double.nearest (whole + part)
    let places := double.nearest unit
    double.nearest (Rounding.awayFromZero (double.nearest (sum * places)) / places)

/-- The double of a decimal. -/
def toDouble (d : Decimal) : Rat :=
  let x := doubleOfParts d.coeff.natAbs d.scale
  if d.isNegative then -x else x

end CurrencyPad.Decimal
