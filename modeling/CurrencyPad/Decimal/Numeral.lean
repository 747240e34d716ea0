/-
CurrencyPad.Decimal.Numeral — decimals as text.

Reading. A literal is a run of digits with at most one point. Its digits
are read from the left as long as they fit a decimal: whole digits must
all fit, fraction digits are read while there are at most 28 of them and
the coefficient stays below its bound. The first fraction digit that is
left over rounds the number half up, the digits after it have no effect.
When that carries the coefficient onto its bound, one fraction digit is
given up; without one to give up there is no number. After a point at the
end of a literal a zero is read, as a fraction digit (`withFraction`).

Outside the calculator a number may also carry a sign, underscores
between its digits and a power of ten (`ofText?`). A negative power that
moves digits beyond the 28th place rounds them off, half away from zero.

Writing. `toChars` writes the number with all its fraction digits,
`render` the canonical spelling: no trailing fraction zeros and no point
after a whole number.
-/
import CurrencyPad.Text.Digits
import CurrencyPad.Rounding
import CurrencyPad.Decimal.Basic

namespace CurrencyPad.Decimal

open Text

/-! ## 1. Reading a literal -/

/-- `m / 10 ^ s` after its last digit was rounded up or down. A carry onto
the bound gives up one fraction digit. -/
def carried (up : Bool) (m s : Nat) : Option Decimal :=
  if up then
    if m + 1 < coeffBound then ofParts? (m + 1 : Nat) s
    else if s = 0 then none
    else ofParts? ((m + 1 + 4) / 10 : Nat) (s - 1)
  else ofParts? m s

/-- Reads fraction digits after `m / 10 ^ s`. -/
def readFraction (m s : Nat) : List Char → Option Decimal
  | [] => ofParts? m s
  | c :: r =>
    if c.isDigit then
      let next := 10 * m + digitValue c
      if s < maxScale ∧ next < coeffBound then readFraction next (s + 1) r
      else if r.all Char.isDigit then carried (decide (5 ≤ digitValue c)) m s
      else none
    else none

/-- Reads digits and a point after the whole number `m`. -/
def readWhole (m : Nat) : List Char → Option Decimal
  | [] => ofParts? m 0
  | c :: r =>
    if c = '.' then readFraction m 0 r
    else if c.isDigit then
      let next := 10 * m + digitValue c
      if next < coeffBound then readWhole next r else none
    else none

/-- A digit or a point. -/
def isNumeralChar (c : Char) : Bool := c.isDigit || c == '.'

/-- With a zero after a point at the end. -/
def withFraction (cs : List Char) : List Char :=
  if cs.getLast? = some '.' then cs ++ ['0'] else cs

/-- A literal (`12`, `12.5`, `.5`, `12.`): digits and at most one point, with
at least one digit. It has no sign, exponent or grouping. -/
def ofLiteral? (cs : List Char) : Option Decimal :=
  if cs.any Char.isDigit then readWhole 0 (withFraction cs) else none

/-! ## 2. Reading a number of any spelling -/

/-- Coefficients from here on are long: another digit might not fit 64 bits. -/
def longCoeff : Nat := 1844674407370954906

/-- Takes the underscores out of a number. Its digits so far make the number `m`,
and `places` of them follow the point, if there was one. Where the last fraction
digit completes a coefficient that was not long before it, an underscore stands
for a zero, and so keeps the digits after it from rounding the number. -/
def resolveUnderscores (m : Nat) (places : Option Nat) : List Char → List Char
  | [] => []
  | c :: r =>
    if c = '_' then
      if places = some maxScale ∧ m / 10 < longCoeff then '0' :: resolveUnderscores m places r
      else resolveUnderscores m places r
    else if c = '.' then c :: resolveUnderscores m (some 0) r
    else c :: resolveUnderscores (10 * m + digitValue c) (places.map (· + 1)) r

/-- The number without the underscores that follow its first digit. -/
def withoutUnderscores (cs : List Char) : List Char :=
  let start := cs.takeWhile (!·.isDigit)
  start ++ resolveUnderscores 0 (if '.' ∈ start then some 0 else none) (cs.dropWhile (!·.isDigit))

/-- Digits and at most one point, with at least one digit. -/
def ofUnsigned? (cs : List Char) : Option Decimal :=
  if cs.any Char.isDigit then readWhole 0 (withoutUnderscores cs) else none

/-- An optional sign before digits. -/
def ofSigned? (cs : List Char) : Option Decimal :=
  match cs with
  | '-' :: r => (ofUnsigned? r).map neg
  | '+' :: r => ofUnsigned? r
  | r => ofUnsigned? r

/-- The number moved by `exponent` decimal places to the left. Digits beyond the
last place are rounded off, a half away from zero. -/
def shiftRight? (d : Decimal) (exponent : Nat) : Option Decimal :=
  if maxScale < exponent then none
  else if d.scale + exponent ≤ maxScale then ofParts? d.coeff (d.scale + exponent)
  else
    let m := Rounding.awayFromZero (d.toRat * (tenTo (maxScale - exponent) : Rat))
    if m = 0 ∧ d.isNegative then some zeroFromBelow else ofParts? m maxScale

/-- The number moved by `exponent` decimal places to the right. -/
def shiftLeft? (d : Decimal) (exponent : Nat) : Option Decimal :=
  if exponent ≤ d.scale then ofParts? d.coeff (d.scale - exponent)
  else if exponent ≤ maxScale then ofParts? (d.coeff * tenTo (exponent - d.scale)) 0
  else none

/-- An exponent's digits. -/
def exponent? (cs : List Char) : Option Nat :=
  if cs ≠ [] ∧ cs.all Char.isDigit then some (number cs) else none

/-- `base` times the power of ten that `exponent` spells. -/
def ofScientific? (base exponent : List Char) : Option Decimal := do
  let d ← ofSigned? base
  match exponent with
  | '-' :: '+' :: r => d.shiftRight? (← exponent? r)
  | '-' :: r => d.shiftRight? (← exponent? r)
  | '+' :: r => d.shiftLeft? (← exponent? r)
  | r => d.shiftLeft? (← exponent? r)

/-- A number with an optional sign and an optional power of ten. -/
def ofChars? (cs : List Char) : Option Decimal :=
  match ofSigned? cs with
  | some d => some d
  | none =>
    match cs.dropWhile (!isExponentMark ·) with
    | [] => none
    | _ :: exponent => ofScientific? (cs.takeWhile (!isExponentMark ·)) exponent

/-- A number with an optional sign and an optional power of ten. -/
def ofText? (text : String) : Option Decimal := ofChars? text.toList

/-! ## 3. Writing -/

/-- The digits before the point. -/
def wholeDigits (d : Decimal) : List Char := digits (d.coeff.natAbs / tenTo d.scale)

/-- The digits after the point. -/
def fractionDigits (d : Decimal) : List Char := padded d.scale (d.coeff.natAbs % tenTo d.scale)

/-- The sign, which only a number below zero has. -/
def signChars (d : Decimal) : List Char := if d.isNegative then ['-'] else []

/-- The number with all its fraction digits. -/
def toChars (d : Decimal) : List Char :=
  d.signChars ++ d.wholeDigits ++ (if d.scale = 0 then [] else '.' :: d.fractionDigits)

/-- The canonical spelling. -/
def renderChars (d : Decimal) : List Char := d.normalize.toChars

/-- The number with all its fraction digits. -/
def text (d : Decimal) : String := String.ofList d.toChars

/-- The canonical spelling: no trailing fraction zeros, no point after a whole
number, and one zero. -/
def render (d : Decimal) : String := String.ofList d.renderChars

end CurrencyPad.Decimal
