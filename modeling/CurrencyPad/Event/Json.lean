/-
CurrencyPad.Event.Json — announcements as tagged JSON records.

The tag `type` tells the two kinds apart.
-/
import CurrencyPad.Event.Basic
import CurrencyPad.Json.Decimal

namespace CurrencyPad.Event

def conversionFields : List String :=
  ["buffer", "calculated_value", "converted_amount", "source_code", "target_code"]

def ratesFields : List String := ["pivot_currency", "currency_codes"]

def toJson : Event → Json
  | conversionUpdated buffer value converted source target =>
    .ofFields [("type", .string "conversion_updated"), ("buffer", .string buffer),
      ("calculated_value", .ofOption .ofDecimal value),
      ("converted_amount", .ofDecimal converted),
      ("source_code", .ofOption .string source), ("target_code", .ofOption .string target)]
  | ratesUpdated pivot codes =>
    .ofFields [("type", .string "rates_updated"), ("pivot_currency", .string pivot),
      ("currency_codes", .ofTexts codes)]

def ofJson? (v : Json) : Option Event := do
  let (tag, record) ← v.tagged? "type"
  match tag with
  | "conversion_updated" =>
    match ← record.completeFields? conversionFields with
    | [buffer, value, converted, source, target] =>
      return conversionUpdated (← Json.required Json.text? buffer)
        (← Json.optional Json.decimal? value) (← Json.required Json.decimal? converted)
        (← Json.optional Json.text? source) (← Json.optional Json.text? target)
    | _ => none
  | "rates_updated" =>
    match ← record.completeFields? ratesFields with
    | [pivot, codes] =>
      return ratesUpdated (← Json.required Json.text? pivot)
        (← Json.required (Json.list? Json.text?) codes)
    | _ => none
  | _ => none

/-- The text of an announcement. -/
def text (e : Event) : String := e.toJson.render

/-- The announcement that a text spells. -/
def ofText? (text : String) : Option Event := (Json.parse? text).bind ofJson?

end CurrencyPad.Event
