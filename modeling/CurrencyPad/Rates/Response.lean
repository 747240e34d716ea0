/-
CurrencyPad.Rates.Response — the answer of a rate server.

The answer says whether the request succeeded, which base the rates are
relative to, what failed if something did, and gives a double for each
code. `toTable` makes a rate table of it: the answer must report success
and the expected base, every rate must be a decimal, and rates below zero
are left out. It goes through the entries in any order (`toTableBy`).
-/
import Std.Data.ExtTreeMap
import CurrencyPad.Rates.Table
import CurrencyPad.Json.Fields
import CurrencyPad.Decimal.Double
import CurrencyPad.Error

namespace CurrencyPad

/-! ## 1. Answers -/

/-- A double that an answer gives as a rate. JSON spells finite ones only. -/
inductive WireRate
  | finite (x : Rat)
  | infinite (negative : Bool)
  | notANumber
deriving DecidableEq

namespace WireRate

/-- The decimal that a finite double's shortest digits spell. -/
def decimal? : WireRate → Option Decimal
  | finite x => Decimal.ofDouble? x
  | infinite _ | notANumber => none

/-- The double as it is named in reports. -/
def chars : WireRate → List Char
  | finite x => Binary.plainChars x
  | infinite true => "-inf".toList
  | infinite false => "inf".toList
  | notANumber => "NaN".toList

end WireRate

/-- A code and its double. -/
abbrev WireEntry := String × WireRate

/-- The answer of a rate server. -/
structure RateResponse where
  result : String
  base : String := ""
  errorType : Option String := none
  /-- Units of each currency for one unit of the base. -/
  rates : Std.ExtTreeMap String WireRate := ∅

namespace RateResponse

/-! ## 2. Reading -/

/-- Reads members one after the other; of two with one name the last one counts. -/
def ratesOfMembers? (rates : Std.ExtTreeMap String WireRate) :
    List Json.Member → Option (Std.ExtTreeMap String WireRate)
  | [] => some rates
  | (name, value) :: r => do
    let code ← name
    let rate ← value.double?
    ratesOfMembers? (rates.insert code (.finite rate)) r

def rates? : Json → Option (Std.ExtTreeMap String WireRate)
  | .object members => ratesOfMembers? ∅ members
  | _ => none

def fieldNames : List String := ["result", "base_code", "error-type", "conversion_rates"]

/-- The answer that a record gives. All fields but the first may be missing. -/
def ofJson? (v : Json) : Option RateResponse := do
  match ← v.fields? fieldNames with
  | [result, base, errorType, rates] =>
    return {
      result := ← Json.required Json.text? result
      base := ← Json.orElse "" Json.text? base
      errorType := ← Json.optional Json.text? errorType
      rates := ← Json.orElse ∅ rates? rates }
  | _ => none

/-! ## 3. Tables -/

/-- The entries as decimals, up to the first that is none. -/
def decimalEntries (entries : List WireEntry) : List RateEntry × Option WireEntry :=
  match entries with
  | [] => ([], none)
  | (code, x) :: r =>
    match x.decimal? with
    | none => ([], some (code, x))
    | some d =>
      let (rest, failed) := decimalEntries r
      ((code, d) :: rest, failed)

def notDecimal (code : String) (x : WireRate) : FetchError :=
  .undecodable ("rate for " ++ code ++ " is not a decimal: " ++ String.ofList x.chars)

/-- The table of some entries of an answer, and the reports on the way. -/
def tableOf (entries : List WireEntry) : Except FetchError RateTable × List LogLine :=
  let (decimals, failed) := decimalEntries entries
  let log := RateTable.rejections decimals
  match failed with
  | some (code, x) => (.error (notDecimal code x), log)
  | none => (.ok (RateTable.ofEntries decimals), log)

/-- The table of an answer that is expected to be relative to `base`, with the
entries in a given order, and the reports on the way. -/
def toTableBy (r : RateResponse) (order : List WireEntry) (base : String) :
    Except FetchError RateTable × List LogLine :=
  if r.result ≠ "success" then
    (.error (.invalidResponse (r.errorType.getD ("result was '" ++ r.result ++ "'"))), [])
  else if !Text.sameIgnoringCase r.base base then
    (.error (.invalidResponse ("expected base " ++ base ++ " but received " ++ r.base)), [])
  else tableOf order

/-- The table of an answer that is expected to be relative to `base`, and the
reports on the way. -/
def toTable (r : RateResponse) (base : String) : Except FetchError RateTable × List LogLine :=
  r.toTableBy r.rates.toList base

/-- The table of an answer's text, and the reports on the way. -/
def decode (body : List Json.Glyph) (base : String) :
    Except FetchError RateTable × List LogLine :=
  match (Json.parseGlyphs? body).bind ofJson? with
  | some r => r.toTable base
  | none => (.error (.undecodable "the answer is not the expected JSON"), [])

end RateResponse
end CurrencyPad
