/-
CurrencyPad.Conversion — from one currency to another through the pivot.

An amount is divided by the rate of its own currency and multiplied by
the rate of the other. Between a currency and itself nothing is computed.
Without usable rates, and when the arithmetic overflows, the result is
zero: there is nothing to show yet.
-/
import CurrencyPad.Currency.Basic
import CurrencyPad.Decimal.Arithmetic
import CurrencyPad.Decimal.Division

namespace CurrencyPad

/-- `amount` units of `source`, in units of `target`. -/
def convert (amount : Decimal) (source target : Currency) : Decimal :=
  if source.code = target.code then amount
  else
    match source.rate, target.rate with
    | some s, some t =>
      if s.isPositive then ((amount.div? s).bind (·.mul? t)).getD .zero else .zero
    | _, _ => .zero

/-- One unit of `source`, in units of `target`. -/
def unitRate (source target : Currency) : Decimal := convert .one source target

end CurrencyPad
