/-
CurrencyPad.Rates.Source — a rate source that holds its table.

The table is relative to the source's base and is rebased when another
base is asked for. A failure can be set, which every request then meets.
-/
import CurrencyPad.Rates.Table
import CurrencyPad.Error

namespace CurrencyPad

/-- A rate source with a table of its own. -/
structure RateSource where
  /-- In upper case, without blanks around it. -/
  base : String
  table : RateTable
  /-- What every request meets. -/
  failure : Option FetchError := none

namespace RateSource

/-- The name of the source in reports. -/
def id : String := "STATIC"

def create (base : String) (table : RateTable) : RateSource :=
  { base := Text.normalize base, table }

def setTable (s : RateSource) (table : RateTable) : RateSource := { s with table }

def failWith (s : RateSource) (failure : Option FetchError) : RateSource :=
  { s with failure }

/-- The table relative to `base`. -/
def fetch (s : RateSource) (base : String) : Except FetchError RateTable :=
  match s.failure with
  | some e => .error e
  | none =>
    if Text.sameIgnoringCase base s.base then .ok s.table
    else
      match s.table.rebase? base with
      | some t => .ok t
      | none => .error (.invalidResponse ("no rate available for base " ++ base))

/-- The reports of a request. -/
def fetchLog (s : RateSource) (base : String) : List LogLine :=
  if s.failure.isSome ∨ Text.sameIgnoringCase base s.base then []
  else s.table.rebaseLog base

end RateSource
end CurrencyPad
