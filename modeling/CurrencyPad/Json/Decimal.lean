/-
CurrencyPad.Json.Decimal — decimals and timestamps as JSON values.

A decimal is written as a double, which also knows a zero with a sign: the
one that a negative number was rounded to. It is read from an integer, from any
other number by the digits of its double, or from a string. A timestamp
is a string.
-/
import CurrencyPad.Json.Fields
import CurrencyPad.Decimal.Double
import CurrencyPad.Timestamp.Text

namespace CurrencyPad.Json

/-- A decimal, as a number. -/
def ofDecimal (d : Decimal) : Json :=
  number (if d.fromBelow then .negativeZero else .ofDouble d.toDouble)

/-- The decimal that a numeral denotes. -/
def Numeral.decimal? (n : Numeral) : Option Decimal :=
  match n.integer? with
  | some i => Decimal.ofParts? i 0
  | none => n.double?.bind Decimal.ofDouble?

/-- A decimal, from a number or a string. -/
def decimal? : Json → Option Decimal
  | .scalar (.number n) => n.decimal?
  | .scalar (.string s) => s.bind Decimal.ofText?
  | _ => none

/-- A timestamp, as a string. -/
def ofTimestamp (t : Timestamp) : Json := string t.text

/-- A timestamp, from a string. -/
def timestamp? (v : Json) : Option Timestamp := v.text?.bind Timestamp.ofText?

/-- A value, or null. -/
def ofOption {α : Type} (write : α → Json) : Option α → Json
  | some a => write a
  | none => null

/-- A list of strings. -/
def ofTexts (xs : List String) : Json := .array (xs.map string)

end CurrencyPad.Json
