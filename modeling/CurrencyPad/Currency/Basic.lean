/-
CurrencyPad.Currency.Basic — currencies and their codes.

A currency carries its rate to a pivot currency: one unit of the pivot is
`rate` units of it. The rate is unknown until the first refresh. All else
is presentation.

A valid code is three to five ASCII letters and digits; `canonicalCode?`
gives its upper-case spelling. A currency can hold any text as its code,
so what needs a valid code checks it.
-/
import CurrencyPad.Text.Blank
import CurrencyPad.Decimal.Basic
import CurrencyPad.Timestamp.Basic
import CurrencyPad.Error

namespace CurrencyPad

/-! ## 1. Codes -/

/-- Three to five ASCII letters and digits. -/
def isCode (cs : List Char) : Bool :=
  decide (3 ≤ cs.length ∧ cs.length ≤ 5) && cs.all Char.isAlphanum

/-- The upper-case spelling of a valid code, blanks around it left out. -/
def canonicalCode? (code : String) : Option String :=
  if isCode (Text.trimChars code.toList) then some (Text.normalize code) else none

/-- The upper-case spelling of a valid code. -/
def canonicalCode (code : String) : Except Error String :=
  match canonicalCode? code with
  | some c => .ok c
  | none => .error (.invalidCurrencyCode code)

/-! ## 2. Currencies -/

/-- A currency to convert from or to. -/
structure Currency where
  code : String
  name : String := ""
  symbol : String := ""
  flag : String := ""
  /-- Six or eight hexadecimal digits, with or without `#`. -/
  color : String := ""
  favorite : Bool := false
  /-- Units of this currency for one unit of the pivot. -/
  rate : Option Decimal := none
  /-- When the rate was written. -/
  updated : Option Timestamp := none
  /-- Place in the list that the user arranged. -/
  order : Int := 0
deriving DecidableEq, Inhabited

namespace Currency

/-- A currency without a rate, under a valid code. -/
def create (code name symbol : String) : Except Error Currency := do
  return { code := ← canonicalCode code, name, symbol }

def withAppearance (c : Currency) (flag color : String) : Currency :=
  { c with flag, color }

def withRate (c : Currency) (rate : Decimal) (time : Timestamp) : Currency :=
  { c with rate := some rate, updated := some time }

/-- A currency can be converted from when its rate is known and above zero. -/
def hasUsableRate (c : Currency) : Bool :=
  match c.rate with
  | some rate => rate.isPositive
  | none => false

/-- The order of the user's list: by place, then by code. -/
def displayOrder (a b : Currency) : Ordering :=
  (compare a.order b.order).then (compare a.code b.code)

end Currency
end CurrencyPad
