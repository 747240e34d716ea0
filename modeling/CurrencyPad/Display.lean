/-
CurrencyPad.Display — numbers as a person reads them.

A number is rounded to a number of fraction digits (a half goes away from
zero), its trailing fraction zeros are dropped, the whole part is grouped
by thousands and the separators of the reader's language are put in. A
result that rounds to zero has no sign.
-/
import CurrencyPad.Decimal.Arithmetic
import CurrencyPad.Decimal.Numeral

namespace CurrencyPad

open Text

/-- The separators of a written number. -/
structure NumberFormat where
  /-- Between groups of three whole digits; none leaves them together. -/
  grouping : Option Char := some ','
  /-- Before the fraction. -/
  point : Char := '.'
deriving DecidableEq, Inhabited

namespace NumberFormat

/-- Languages that write `1.234,5`. -/
def pointGrouped : List String := ["de", "es", "it", "nl", "pt", "id", "tr", "da"]

/-- Languages that write `1 234,5`, with a no-break space. -/
def spaceGrouped : List String := ["fr", "sv", "nb", "no", "cs", "pl", "ru", "fi", "hu"]

/-- The language of a tag such as `de-DE` or `fr_FR`, in lower case. -/
def language (tag : String) : String :=
  String.ofList ((tag.toList.takeWhile fun c => c != '-' && c != '_').map Char.toLower)

/-- The separators of a language tag; those of an unknown language are `1,234.5`. -/
def forLocale (tag : String) : NumberFormat :=
  let tongue := language tag
  if tongue ∈ pointGrouped then ⟨some '.', ','⟩
  else if tongue ∈ spaceGrouped then ⟨some (Char.ofNat 0xA0), ','⟩
  else {}

/-- A number with at most `digits` fraction digits. -/
def formatChars (f : NumberFormat) (digits : Nat) (d : Decimal) : List Char :=
  let shown := (d.roundTo digits).normalize
  let fraction := if shown.scale = 0 then [] else f.point :: shown.fractionDigits
  shown.signChars ++ groups f.grouping.toList shown.wholeDigits ++ fraction

/-- A number with at most `digits` fraction digits. -/
def format (f : NumberFormat) (digits : Nat) (d : Decimal) : String :=
  String.ofList (f.formatChars digits d)

end NumberFormat
end CurrencyPad
