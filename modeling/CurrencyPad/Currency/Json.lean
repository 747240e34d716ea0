/-
CurrencyPad.Currency.Json — a currency as a JSON record.

The rate and its time may be missing or null in an object.
-/
import CurrencyPad.Currency.Basic
import CurrencyPad.Json.Decimal

namespace CurrencyPad.Currency

def fieldNames : List String :=
  ["code", "name", "symbol", "flagEmoji", "colorHex", "isFavorite", "rateToPivot",
    "lastUpdated", "orderIndex"]

def toJson (c : Currency) : Json :=
  .ofFields [("code", .string c.code), ("name", .string c.name), ("symbol", .string c.symbol),
    ("flagEmoji", .string c.flag), ("colorHex", .string c.color),
    ("isFavorite", .bool c.favorite), ("rateToPivot", .ofOption .ofDecimal c.rate),
    ("lastUpdated", .ofOption .ofTimestamp c.updated), ("orderIndex", .number (.ofInt c.order))]

def ofJson? (v : Json) : Option Currency := do
  match ← v.completeFields? fieldNames with
  | [code, name, symbol, flag, color, favorite, rate, updated, order] =>
    return {
      code := ← Json.required Json.text? code
      name := ← Json.required Json.text? name
      symbol := ← Json.required Json.text? symbol
      flag := ← Json.required Json.text? flag
      color := ← Json.required Json.text? color
      favorite := ← Json.required Json.bool? favorite
      rate := ← Json.optional Json.decimal? rate
      updated := ← Json.optional Json.timestamp? updated
      order := ← Json.required (Json.integer? (-2147483648) 2147483647) order }
  | _ => none

/-- The text of a currency. -/
def text (c : Currency) : String := c.toJson.render

/-- The currency that a text spells. -/
def ofText? (text : String) : Option Currency := (Json.parse? text).bind ofJson?

end CurrencyPad.Currency
