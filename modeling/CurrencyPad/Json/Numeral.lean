/-
CurrencyPad.Json.Numeral — the numbers of JSON text.

A numeral keeps its digits: a sign, whole digits without a superfluous
zero, the digits after the point and the exponent as written, the last
two empty when absent. What it denotes depends on how it is written and
on who asks. Without fraction and exponent it is an integer of up to 64
bits; any other numeral, `-0` included, is a double, which must be in
range.

That double is not always the nearest one. The digits become a double
first, then that is multiplied or divided by a power of ten, and each of
the two steps rounds. One rounding is left where the digits and the power
of ten are doubles themselves: fifteen digits, and up to twenty-two
places.
-/
import CurrencyPad.Text.Digits
import CurrencyPad.Binary.Shortest

namespace CurrencyPad.Json

open Text

/-! ## 1. Numerals -/

/-- A number as it is written. -/
structure Numeral where
  negative : Bool := false
  whole : List Char
  fraction : List Char := []
  /-- The sign and the digits after the exponent mark. -/
  exponent : List Char := []
deriving DecidableEq

namespace Numeral

/-- Without fraction and exponent. -/
def ofInt (n : Int) : Numeral := { negative := decide (n < 0), whole := digits n.natAbs }

/-- The zero with a sign. -/
def negativeZero : Numeral := { negative := true, whole := ['0'], fraction := ['0'] }

/-- The text of a numeral. -/
def chars (n : Numeral) : List Char :=
  (if n.negative then ['-'] else []) ++ n.whole ++
  (if n.fraction = [] then [] else '.' :: n.fraction) ++
  (if n.exponent = [] then [] else 'e' :: n.exponent)

/-! ## 2. Reading -/

/-- Digits of an exponent after its optional sign. -/
def isExponent (cs : List Char) : Bool :=
  let ds := match cs with
    | '+' :: r | '-' :: r => r
    | r => r
  decide (ds ≠ []) && ds.all Char.isDigit

/-- Whole digits have no superfluous zero in front. -/
def isWhole : List Char → Bool
  | [] => false
  | ['0'] => true
  | '0' :: _ => false
  | ds => ds.all Char.isDigit

/-- Splits a text at the first character of a kind, which is left out. The second
part is none when there is no such character. -/
def splitAt (p : Char → Bool) (cs : List Char) : List Char × Option (List Char) :=
  match cs.dropWhile (!p ·) with
  | [] => (cs.takeWhile (!p ·), none)
  | _ :: r => (cs.takeWhile (!p ·), some r)

/-- The numeral that a text without a sign spells. -/
def ofUnsigned? (negative : Bool) (cs : List Char) : Option Numeral :=
  let (mantissa, exponent) := splitAt isExponentMark cs
  let (whole, fraction) := splitAt (· == '.') mantissa
  if isWhole whole ∧ (∀ e ∈ exponent, isExponent e) ∧
      (∀ f ∈ fraction, f ≠ [] ∧ f.all Char.isDigit) then
    some ⟨negative, whole, fraction.getD [], exponent.getD []⟩
  else none

/-- The numeral that a text spells. -/
def ofChars? : List Char → Option Numeral
  | '-' :: r => ofUnsigned? true r
  | r => ofUnsigned? false r

/-! ## 3. Integers -/

/-- The integer that a numeral without fraction and exponent denotes, when it has
at most 64 bits. The zero with a sign is no integer. -/
def integer? (n : Numeral) : Option Int :=
  if n.fraction = [] ∧ n.exponent = [] then
    let m := number n.whole
    if n.negative then
      if 0 < m ∧ m ≤ 9223372036854775808 then some (-(m : Int)) else none
    else if m ≤ 18446744073709551615 then some m
    else none
  else none

/-! ## 4. Doubles -/

/-- The power of ten that the exponent denotes. -/
def exponentValue (n : Numeral) : Int :=
  match n.exponent with
  | '-' :: r => -(number r : Int)
  | '+' :: r => number r
  | r => number r

/-- Goes on from the number `m` with some digits, as long as there is room in 64 bits, and
says how many digits are left. -/
def readDigits (m : Nat) : List Char → Nat × Nat
  | [] => (m, 0)
  | c :: r =>
    if m * 10 + digitValue c < 18446744073709551616 then readDigits (m * 10 + digitValue c) r
    else (m, r.length + 1)

/-- The digits that are read, as a number, and the power of ten that its last digit is
worth. -/
def significand (n : Numeral) : Nat × Int :=
  let (whole, unread) := readDigits 0 n.whole
  let (m, left) := readDigits whole n.fraction
  (m, n.exponentValue + unread - (n.fraction.length - left : Nat))

/-- The double of a power of ten. -/
def unitDouble (k : Nat) : Rat := Binary.double.nearest (tenTo k : Nat)

/-- A double, divided so many times by the largest power of ten that is one. -/
def lowered (x : Rat) : Nat → Rat
  | 0 => x
  | k + 1 => if x = 0 then 0 else lowered (Binary.double.nearest (x / unitDouble 308)) k

/-- A double that is not below zero, times a power of ten, when the product is in range. -/
def timesTen? (x : Rat) (exponent : Int) : Option Rat :=
  if 0 ≤ exponent then
    if x = 0 then some 0
    else if 308 < exponent then none
    else
      let y := Binary.double.nearest (x * unitDouble exponent.toNat)
      if Binary.double.inRange y then some y else none
  else
    let places := (-exponent).toNat - 1
    some (Binary.double.nearest (lowered x (places / 308) / unitDouble (places % 308 + 1)))

/-- The double of a numeral without its sign, when it is in range. -/
def magnitude? (n : Numeral) : Option Rat :=
  let (m, exponent) := n.significand
  timesTen? (Binary.double.nearest m) exponent

/-- The double of a numeral, when it is in range. -/
def double? (n : Numeral) : Option Rat :=
  n.magnitude?.map fun x => if n.negative then -x else x

/-! ## 5. Writing doubles -/

/-- The numeral of a positive decimal spelling: positional with a fraction when
its leading digit is worth 10^-5 to 10^15, otherwise one leading digit and a
signed exponent. -/
def ofSpelling (negative : Bool) (s : Binary.Spelling) : Numeral :=
  let ds := digits s.coeff
  let leading := (ds.length : Int) - 1 + s.exponent
  if -5 ≤ leading ∧ leading ≤ 15 then
    if 0 ≤ s.exponent then
      { negative, whole := digits (s.coeff * tenTo s.exponent.toNat), fraction := ['0'] }
    else
      let places := (-s.exponent).toNat
      { negative, whole := digits (s.coeff / tenTo places)
        fraction := padded places (s.coeff % tenTo places) }
  else
    { negative, whole := ds.take 1, fraction := ds.drop 1
      exponent := (if leading < 0 then '-' else '+') :: digits leading.natAbs }

/-- The shortest of the numerals that have the double as their nearest one. -/
def ofDouble (x : Rat) : Numeral :=
  if x = 0 then { whole := ['0'], fraction := ['0'] }
  else if x < 0 then ofSpelling true (Binary.shortest .even (-x))
  else ofSpelling false (Binary.shortest .even x)

end Numeral
end CurrencyPad.Json
