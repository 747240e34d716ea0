/-
CurrencyPad.Store.Basic — the stored currencies.

The store keeps one currency for each code, as the code is written in the
currency. What is asked by code is asked in the canonical spelling: the
code is checked and put in upper case first.

What writes to the store does so in place (`Writing`). It goes through its
checks, each of which may end it, and writes one record at the end. In
either case there is a store afterwards, so that what an operation that
failed leaves behind is a matter of the order of these steps.
-/
import Std.Data.ExtTreeMap
import CurrencyPad.Currency.Basic
import CurrencyPad.Decimal.Numeral

namespace CurrencyPad

/-- The stored currencies by their codes. -/
structure Store where
  records : Std.ExtTreeMap String Currency

namespace Store

def empty : Store := ⟨∅⟩

/-! ## 1. Reading -/

/-- All currencies, in the order of their codes. -/
def all (s : Store) : List Currency := s.records.toList.map (·.2)

/-- The currency under a code, in any spelling of a valid code. -/
def get (s : Store) (code : String) : Except Error (Option Currency) := do
  return s.records[← canonicalCode code]?

/-! ## 2. Writing in place -/

/-- What is done to a store. There is a store afterwards, also when it fails. -/
abbrev Writing := EStateM Error Store Unit

namespace Writing

/-- Adds a currency whose code is not taken. -/
def insert (c : Currency) : Writing := do
  if (← MonadState.get).records.contains c.code then throw (.duplicateCurrency c.code)
  modify fun s => ⟨s.records.insert c.code c⟩

/-- Changes the currency under a canonical code. -/
def change (code : String) (missing : Error) (f : Currency → Currency) : Writing := do
  let some c := (← MonadState.get).records[code]? | throw missing
  modify fun s => ⟨s.records.insert code (f c)⟩

/-- Marks a currency as a favourite, or no longer so. -/
def setFavorite (code : String) (favorite : Bool) : Writing := do
  let code ← MonadExcept.ofExcept (canonicalCode code)
  change code (.currencyNotFound code) ({ · with favorite })

/-- Writes the rate of a currency and the time of it. A rate below zero is
refused before the code is looked at. -/
def saveRate (code : String) (rate : Decimal) (time : Timestamp) : Writing := do
  if rate.isNegative then throw (.invalidRate code rate.text)
  let code ← MonadExcept.ofExcept (canonicalCode code)
  change code (.save ("unknown currency " ++ code)) (·.withRate rate time)

/-- The store that is there afterwards, or the error. -/
def outcome (w : Writing) (s : Store) : Except Error Store :=
  match w.run s with
  | .ok _ s' => .ok s'
  | .error e _ => .error e

end Writing

/-! ## 3. What writing makes of a store -/

def insert (s : Store) (c : Currency) : Except Error Store := (Writing.insert c).outcome s

def setFavorite (s : Store) (code : String) (favorite : Bool) : Except Error Store :=
  (Writing.setFavorite code favorite).outcome s

def saveRate (s : Store) (code : String) (rate : Decimal) (time : Timestamp) :
    Except Error Store :=
  (Writing.saveRate code rate time).outcome s

/-- The store of some currencies, whose codes must differ. -/
def ofCurrencies (currencies : List Currency) : Except Error Store :=
  currencies.foldlM insert empty

end Store
end CurrencyPad
