/-
CurrencyPad.Settings.Basic — configuration.

Settings name the pivot currency, the pair a session starts with and how
many fraction digits are shown. `validate` accepts exactly the settings
whose codes are valid and whose digit counts a decimal can carry, and
puts the codes into their upper-case spelling. The environment can set
each of them; a digit count that is no number is reported and ignored.
-/
import CurrencyPad.Currency.Basic
import CurrencyPad.Text.Digits
import CurrencyPad.Log

namespace CurrencyPad

/-! ## 1. Settings -/

/-- The pivot currency, the pair a session starts with, and the numbers of
fraction digits shown. -/
structure Settings where
  /-- Every stored rate is relative to this currency. -/
  pivot : String := "USD"
  source : String := "JPY"
  target : String := "USD"
  /-- Fraction digits of a converted amount. -/
  amountDigits : Nat := 2
  /-- Fraction digits of the rate of one unit. -/
  rateDigits : Nat := 5
deriving DecidableEq, Inhabited

namespace Settings

/-- A digit count that a decimal can carry. -/
def checkDigits (name : String) (digits : Nat) : Except Error Unit :=
  if digits ≤ maxScale then .ok ()
  else .error (.invalidSetting
    (name ++ " must be at most " ++ toString maxScale ++ ", got " ++ toString digits))

/-- The same settings with their codes in upper case. The codes are checked
before the digit counts. -/
def validate (s : Settings) : Except Error Settings := do
  let pivot ← canonicalCode s.pivot
  let source ← canonicalCode s.source
  let target ← canonicalCode s.target
  checkDigits "amountFractionDigits" s.amountDigits
  checkDigits "rateFractionDigits" s.rateDigits
  return { s with pivot, source, target }

/-! ## 2. The environment -/

def pivotVariable : String := "BETTERCONVERT_PIVOT_CURRENCY"
def sourceVariable : String := "BETTERCONVERT_SOURCE_CURRENCY"
def targetVariable : String := "BETTERCONVERT_TARGET_CURRENCY"
def amountDigitsVariable : String := "BETTERCONVERT_AMOUNT_FRACTION_DIGITS"
def rateDigitsVariable : String := "BETTERCONVERT_RATE_FRACTION_DIGITS"

/-- A whole number below two to the power 32, with an optional plus sign and
blanks around it. -/
def readCount? (text : String) : Option Nat :=
  let cs := Text.trimChars text.toList
  let ds := match cs with
    | '+' :: r => r
    | r => r
  if ds ≠ [] ∧ ds.all Char.isDigit ∧ Text.number ds < 4294967296 then
    some (Text.number ds)
  else none

/-- The count that a variable holds. One that holds no count is reported. -/
def lookupCount (lookup : String → Option String) (name : String) :
    Option Nat × List LogLine :=
  match lookup name with
  | none => (none, [])
  | some text =>
    match readCount? text with
    | some n => (some n, [])
    | none => (none, [⟨.warn, "Ignoring unparsable value '" ++ text ++ "' for " ++ name⟩])

/-- The settings that the environment's variables give, before they are checked.
A variable that is not set leaves the default. -/
def ofVariables (lookup : String → Option String) : Settings × List LogLine :=
  let default : Settings := {}
  let (amount, amountLog) := lookupCount lookup amountDigitsVariable
  let (rate, rateLog) := lookupCount lookup rateDigitsVariable
  ({ pivot := (lookup pivotVariable).getD default.pivot
     source := (lookup sourceVariable).getD default.source
     target := (lookup targetVariable).getD default.target
     amountDigits := amount.getD default.amountDigits
     rateDigits := rate.getD default.rateDigits },
   amountLog ++ rateLog)

/-- The checked settings of the environment, and what was ignored. -/
def ofEnvironment (lookup : String → Option String) :
    Except Error Settings × List LogLine :=
  let (settings, log) := ofVariables lookup
  (settings.validate, log)

end Settings
end CurrencyPad
