/-
CurrencyPad.Rates.Json — a rate table as a JSON object.

A table is an object of rates. It is read as it stands: codes keep their
spelling, rates below zero are kept, and of two rates for one code the
last one counts.
-/
import CurrencyPad.Rates.Table
import CurrencyPad.Json.Decimal

namespace CurrencyPad.RateTable

/-- Reads members one after the other into a table. -/
def ofMembers? (t : RateTable) : List Json.Member → Option RateTable
  | [] => some t
  | (name, value) :: r => do
    let code ← name
    let rate ← value.decimal?
    ofMembers? ⟨t.rates.insert code rate⟩ r

def ofJson? : Json → Option RateTable
  | .object members => ofMembers? empty members
  | _ => none

def toJson (t : RateTable) : Json :=
  .ofFields (t.entries.map fun (code, rate) => (code, .ofDecimal rate))

/-- The text of a table. -/
def text (t : RateTable) : String := t.toJson.render

/-- The table that a text spells. -/
def ofText? (text : String) : Option RateTable := (Json.parse? text).bind ofJson?

end CurrencyPad.RateTable
