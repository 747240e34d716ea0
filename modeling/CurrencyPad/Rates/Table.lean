/-
CurrencyPad.Rates.Table — tables of exchange rates.

A table gives the rate of each currency relative to some base: one unit
of the base is `rate` units of it. Codes are stored and looked up without
the blanks around them and in upper case. A rate below zero is refused,
and the refusal is reported (`rejections`); a rate of zero is kept, it
means that the currency cannot be converted from.

`rebase?` expresses all rates relative to another currency of the table.
It goes through the entries in any order (`rebaseEntries?`).
-/
import Std.Data.ExtTreeMap
import CurrencyPad.Text.Blank
import CurrencyPad.Decimal.Division
import CurrencyPad.Decimal.Numeral
import CurrencyPad.Log

namespace CurrencyPad

/-! ## 1. Tables -/

/-- A rate for each of some codes. -/
structure RateTable where
  rates : Std.ExtTreeMap String Decimal

/-- A code and its rate. -/
abbrev RateEntry := String × Decimal

namespace RateTable

def empty : RateTable := ⟨∅⟩

/-- The entries, in the order of the codes. -/
def entries (t : RateTable) : List RateEntry := t.rates.toList

/-- The codes, in order. -/
def codes (t : RateTable) : List String := t.rates.keys

def size (t : RateTable) : Nat := t.rates.size

def isEmpty (t : RateTable) : Bool := t.rates.isEmpty

/-- The rate of a code, however it is spelled. -/
def get? (t : RateTable) (code : String) : Option Decimal := t.rates[Text.normalize code]?

def contains (t : RateTable) (code : String) : Bool := t.rates.contains (Text.normalize code)

/-- Equal codes and rates, rates compared by value. -/
def same (a b : RateTable) : Bool :=
  a.codes == b.codes &&
    (a.entries.zip b.entries).all fun (x, y) => x.2.sameValue y.2

/-! ## 2. Inserting -/

/-- A rate that a table takes. -/
def accepts (rate : Decimal) : Bool := !rate.isNegative

/-- Sets the rate of a code. A rate below zero leaves the table as it is. -/
def insert (t : RateTable) (code : String) (rate : Decimal) : RateTable :=
  if accepts rate then ⟨t.rates.insert (Text.normalize code) rate⟩ else t

/-- The report on a rate that is not taken. -/
def rejection? (e : RateEntry) : Option LogLine :=
  if accepts e.2 then none
  else some ⟨.warn, "Rejecting negative rate " ++ e.2.text ++ " for " ++ e.1⟩

/-- The reports on the entries that are not taken. -/
def rejections (entries : List RateEntry) : List LogLine := entries.filterMap rejection?

/-- Inserts entries one after the other. -/
def insertAll (t : RateTable) (entries : List RateEntry) : RateTable :=
  entries.foldl (fun t e => t.insert e.1 e.2) t

/-- The table of some entries, the last one counting for each code. -/
def ofEntries (entries : List RateEntry) : RateTable := empty.insertAll entries

/-! ## 3. Another base -/

/-- The entries with every rate divided by the rate of the new base. -/
def rebaseEntries? (baseRate : Decimal) (entries : List RateEntry) : Option (List RateEntry) :=
  entries.mapM fun e => (e.2.div? baseRate).map (e.1, ·)

/-- The rate of a new base, when it can be one. -/
def baseRate? (t : RateTable) (base : String) : Option Decimal :=
  (t.get? base).filter Decimal.isPositive

/-- The entries of the table relative to another base, which is not yet one. -/
def rebased? (t : RateTable) (base : String) : Option (List RateEntry) :=
  (t.baseRate? base).bind (rebaseEntries? · t.entries)

/-- All rates relative to another currency, whose own rate is exactly one. There is
no such table when that currency has no rate above zero, or on overflow. -/
def rebase? (t : RateTable) (base : String) : Option RateTable :=
  (t.rebased? base).map fun entries => (ofEntries entries).insert base .one

/-- The reports of a change of base. -/
def rebaseLog (t : RateTable) (base : String) : List LogLine :=
  rejections ((t.rebased? base).getD [])

end RateTable
end CurrencyPad
