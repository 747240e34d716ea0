/-
CurrencyPad.Decimal.Division — checked division of decimals.

The coefficients are divided as whole numbers. While there is a remainder,
digits of the quotient are drawn from it, up to nine at a time: as many as
there is room for beside the digits that are there, in 96 bits and in 28
fraction digits.

The division ends in one of three ways. With nothing left the quotient is
exact. Without room for a digit it is rounded by the remainder, half to
even. And the digits drawn last can carry it over its bound; then one digit
is given back, and this digit rounds what is kept. Whether it stands for
exactly a half is looked at only for a divisor of at most two words of 32
bits. Such a half goes to the even neighbour, with a longer divisor it goes
up. So the quotient is always one of the nearest at its scale, but of two
that are equally near it is not always the even one.

A quotient that needed no drawing keeps the difference of the scales. One
with drawn digits loses trailing fraction zeros, in groups of eight, four,
two and one. A group of eight is dropped only from a coefficient whose low
word is zero, so some zeros can stay.
-/
import CurrencyPad.Decimal.Basic

namespace CurrencyPad.Decimal

/-! ## 1. Drawing digits -/

/-- Two to the power 32: a coefficient is three words of this size. -/
def wordSize : Nat := 4294967296

/-- A division under way: the exact quotient by `n` is `coeff + rest / n`, moved by
`scale` decimal places. Before digits are drawn the scale can be below zero. -/
structure Division where
  coeff : Nat
  rest : Nat
  scale : Int

namespace Division

/-- The division of `m` by `n` as whole numbers. -/
def start (m n : Nat) (scale : Int) : Division := ⟨m / n, m % n, scale⟩

/-- How many digits fit, up to the given number. -/
def room (q : Division) : Nat → Nat
  | 0 => 0
  | p + 1 =>
    if q.scale + (p + 1) ≤ maxScale ∧ q.coeff * tenTo (p + 1) < coeffBound then p + 1
    else q.room p

/-- How many digits are drawn next: none without a remainder, at most nine with one. -/
def next (q : Division) : Nat := if q.rest = 0 then 0 else q.room 9

/-- The division by `n` with `p` more digits. -/
def draw (n p : Nat) (q : Division) : Division :=
  ⟨q.coeff * tenTo p + q.rest * tenTo p / n, q.rest * tenTo p % n, q.scale + p⟩

/-- Dividend, divisor, quotient and remainder belong together at the start. -/
theorem start_spec (m n : Nat) (scale : Int) :
    n * (start m n scale).coeff + (start m n scale).rest = m :=
  Nat.div_add_mod m n

/-- Drawing moves the quotient and its remainder by as many places. -/
theorem draw_spec (n p : Nat) (q : Division) :
    n * (q.draw n p).coeff + (q.draw n p).rest = (n * q.coeff + q.rest) * tenTo p := by
  simp only [draw, Nat.mul_add, Nat.add_assoc, Nat.div_add_mod, Nat.add_mul, Nat.mul_assoc]

/-- The remainder is below the divisor at the start. -/
theorem start_rest_lt {n : Nat} (m : Nat) (scale : Int) (h : 0 < n) :
    (start m n scale).rest < n := Nat.mod_lt m h

/-- The remainder is below the divisor after every drawing. -/
theorem draw_rest_lt {n : Nat} (p : Nat) (q : Division) (h : 0 < n) :
    (q.draw n p).rest < n := Nat.mod_lt _ h

/-! ## 2. Ending -/

/-- A coefficient at a scale, which must not be below zero. -/
def atScale? (coeff : Nat) (scale : Int) : Option Decimal :=
  if 0 ≤ scale then ofParts? coeff scale.toNat else none

/-- A quotient with nothing left. A scale below zero stands for zeros to be added. -/
def complete? (q : Division) : Option Decimal :=
  if 0 ≤ q.scale then atScale? q.coeff q.scale
  else atScale? (q.coeff * tenTo (-q.scale).toNat) 0

/-- The coefficient without its last digit, which rounds it. A half goes to the
even neighbour, and up when there is `more` after it. -/
def withoutLast (more : Bool) (coeff : Nat) : Nat :=
  let kept := coeff / 10
  let last := coeff % 10
  if 5 < last ∨ last = 5 ∧ (more = true ∨ kept % 2 = 1) then kept + 1 else kept

/-- The coefficient rounded by what is left of it, a half to the even neighbour. -/
def nearestCoeff (n : Nat) (q : Division) : Nat :=
  if n < 2 * q.rest ∨ n = 2 * q.rest ∧ q.coeff % 2 = 1 then q.coeff + 1 else q.coeff

/-- A quotient that has no room for another digit. One digit is given back when
rounding reaches the bound. -/
def rounded? (n : Nat) (q : Division) : Option Decimal :=
  let coeff := q.nearestCoeff n
  if coeff < coeffBound then atScale? coeff q.scale
  else atScale? (withoutLast true coeff) (q.scale - 1)

/-- A quotient to which no digit is added. -/
def close? (n : Nat) (q : Division) : Option Decimal :=
  if q.rest = 0 then q.complete? else q.rounded? n

/-- Divisors from here on have three words. -/
def longDivisor : Nat := wordSize * wordSize

/-- A quotient whose last digits carried it over the bound: one digit is given back. -/
def giveBack? (n : Nat) (q : Division) : Option Decimal :=
  atScale? (withoutLast (decide (q.rest ≠ 0 ∨ longDivisor ≤ n)) q.coeff) (q.scale - 1)

/-- The quotient by `n`, given the number of fraction digits that can still be drawn. -/
def finish? (n : Nat) : Nat → Division → Option Decimal
  | 0, q => q.close? n
  | places + 1, q =>
    if q.next = 0 then q.close? n
    else
      let longer := q.draw n q.next
      if longer.coeff < coeffBound then finish? n places longer else longer.giveBack? n

/-- The quotient by `n`. Each step draws a digit, so there is one step for each place. -/
def quotient? (n : Nat) (q : Division) : Option Decimal :=
  q.finish? n ((maxScale : Int) - q.scale).toNat

end Division

/-! ## 3. Trailing zeros -/

/-- Drops a group of trailing fraction zeros, if they are all there. Eight are looked
for only when the low word is zero. -/
def dropZeros (d : Decimal) (places : Nat) : Decimal :=
  if places ≤ d.scale ∧ d.coeff % tenTo places = 0 ∧ (places = 8 → d.coeff % wordSize = 0) then
    (ofParts? (d.coeff / tenTo places) (d.scale - places)).getD d
  else d

/-- Drops trailing fraction zeros in groups. -/
def dropGroups (d : Decimal) : Decimal := [8, 8, 8, 4, 2, 1].foldl dropZeros d

/-! ## 4. The quotient -/

/-- The quotient of the numbers without their signs, unless the divisor is zero. -/
def divAbs? (a b : Decimal) : Option Decimal :=
  let m := a.coeff.natAbs
  let n := b.coeff.natAbs
  if n = 0 then none
  else if m = 0 then some zero
  else
    let q := Division.start m n ((a.scale : Int) - b.scale)
    if q.rest = 0 then q.complete? else (q.quotient? n).map dropGroups

/-- The quotient. There is none by zero, and none when it is out of range. -/
def div? (a b : Decimal) : Option Decimal :=
  (divAbs? a b).map fun d => if a.isNegative = b.isNegative then d else d.neg

end CurrencyPad.Decimal
