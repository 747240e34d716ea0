/-
CurrencyPad.Binary.Shortest — the shortest decimal that reads back as a
given binary number.

The rationals that round to a number of a format form an interval around
it, with its ends when the coefficient is even. `shortest` tries decimal
grids from coarse to fine; the first grid with a point in the interval
gives the fewest digits, and of its two points next to the number the
nearer is taken. Where both are equally near a rule decides, which
differs between the writers that use this.

`Spelling` is a number of decimal digits with a power of ten; `positional`
writes it without an exponent.
-/
import CurrencyPad.Binary.Basic
import CurrencyPad.Text.Digits

namespace CurrencyPad.Binary

open Text

/-! ## 1. Decimal spellings -/

/-- The number `coeff * 10 ^ exponent`. -/
structure Spelling where
  coeff : Nat
  exponent : Int
deriving DecidableEq

/-- Digits and a point, without an exponent; a whole number has no point. -/
def Spelling.positional (s : Spelling) : List Char :=
  if 0 ≤ s.exponent then digits (s.coeff * tenTo s.exponent.toNat)
  else
    let places := (-s.exponent).toNat
    digits (s.coeff / tenTo places) ++ '.' :: padded places (s.coeff % tenTo places)

/-! ## 2. The interval of a number -/

/-- Which of two points equally near is taken. -/
inductive TieRule
  /-- The one with the even last digit. -/
  | even
  /-- The greater one. -/
  | up
deriving DecidableEq

/-- The rationals that round to one number of a format. -/
structure Neighbourhood where
  centre : Rat
  low : Rat
  high : Rat
  /-- The ends belong to it. -/
  closed : Bool

/-- The rationals that round to a positive number of the format. Below a power of
two the numbers lie twice as dense. -/
def Format.neighbourhood (f : Format) (x : Rat) : Neighbourhood :=
  let q := f.lastBit x
  let unit := power 2 q
  let m := (x / unit).floor
  let narrow := decide (m = Nat.pow 2 (f.precision - 1) ∧ f.lowest < q)
  ⟨x, if narrow then x - unit / 4 else x - unit / 2, x + unit / 2, decide (m % 2 = 0)⟩

def Neighbourhood.contains (n : Neighbourhood) (y : Rat) : Bool :=
  if n.closed then decide (n.low ≤ y ∧ y ≤ n.high) else decide (n.low < y ∧ y < n.high)

/-! ## 3. The search -/

/-- The point of the grid of `10 ^ exponent` that lies in the neighbourhood
nearest to its centre. -/
def Neighbourhood.onGrid? (n : Neighbourhood) (tie : TieRule) (exponent : Int) :
    Option Spelling :=
  let step := power 10 exponent
  let below := (n.centre / step).floor.toNat
  let above := below + 1
  match n.contains (below * step), n.contains (above * step) with
  | false, false => none
  | true, false => some ⟨below, exponent⟩
  | false, true => some ⟨above, exponent⟩
  | true, true =>
    let down := n.centre - below * step
    let up := above * step - n.centre
    if down < up then some ⟨below, exponent⟩
    else if up < down then some ⟨above, exponent⟩
    else match tie with
      | .up => some ⟨above, exponent⟩
      | .even => if below % 2 = 0 then some ⟨below, exponent⟩ else some ⟨above, exponent⟩

/-- The first hit on the grids of `10 ^ exponent` and finer ones. -/
def Neighbourhood.search (n : Neighbourhood) (tie : TieRule) (exponent : Int) : Nat → Spelling
  | 0 => ⟨0, 0⟩
  | grids + 1 =>
    match n.onGrid? tie exponent with
    | some s => s
    | none => n.search tie (exponent - 1) grids

/-- A power of ten above a positive rational. -/
def exponentAbove (x : Rat) : Int :=
  if 1 ≤ x then ((digits x.floor.toNat).length : Int)
  else 2 - ((digits (1 / x).floor.toNat).length : Int)

/-- The shortest decimal that reads back as the positive number `x`. At most 17
significant digits are needed, so twenty grids are enough. -/
def shortest (tie : TieRule) (x : Rat) : Spelling :=
  (double.neighbourhood x).search tie (exponentAbove x) 20

/-- A number as plain text: a sign, digits, and a point where needed. -/
def plainChars (x : Rat) : List Char :=
  if x = 0 then ['0']
  else if x < 0 then '-' :: (shortest .up (-x)).positional
  else (shortest .up x).positional

end CurrencyPad.Binary
