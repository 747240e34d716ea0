/-
CurrencyPad.Settings.Json — settings as a JSON record.

A field that is missing has its default, also at the end of an array.
Settings are checked after they were read.
-/
import CurrencyPad.Settings.Basic
import CurrencyPad.Json.Fields

namespace CurrencyPad.Settings

def fieldNames : List String :=
  ["pivotCurrency", "defaultSourceCurrency", "defaultTargetCurrency", "amountFractionDigits",
    "rateFractionDigits"]

def toJson (s : Settings) : Json :=
  .ofFields [("pivotCurrency", .string s.pivot), ("defaultSourceCurrency", .string s.source),
    ("defaultTargetCurrency", .string s.target),
    ("amountFractionDigits", .number (.ofInt s.amountDigits)),
    ("rateFractionDigits", .number (.ofInt s.rateDigits))]

/-- The settings of a record, before they are checked. -/
def ofJson? (v : Json) : Option Settings := do
  let default : Settings := {}
  match ← v.fields? fieldNames with
  | [pivot, source, target, amountDigits, rateDigits] =>
    return {
      pivot := ← Json.orElse default.pivot Json.text? pivot
      source := ← Json.orElse default.source Json.text? source
      target := ← Json.orElse default.target Json.text? target
      amountDigits := ← Json.orElse default.amountDigits Json.count? amountDigits
      rateDigits := ← Json.orElse default.rateDigits Json.count? rateDigits }
  | _ => none

/-- The checked settings of a text. -/
def ofText (text : String) : Except Error Settings :=
  match (Json.parse? text).bind ofJson? with
  | some s => s.validate
  | none => .error .malformedJson

/-- The text of settings. -/
def text (s : Settings) : String := s.toJson.render

end CurrencyPad.Settings
