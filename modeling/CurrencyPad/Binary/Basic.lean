/-
CurrencyPad.Binary.Basic — binary floating-point numbers as exact rationals.

A format has a precision and a smallest exponent. The numbers of a format
are rationals `m * 2 ^ q` with `m` below `2 ^ precision` and `q` no
smaller than that exponent; `nearest` rounds any rational to one of them,
a half to the even `m`. Working on the rationals keeps every step exact
and leaves the rounding visible. There is no infinity: a value from
`2 ^ overflow` on is out of range.
-/
import CurrencyPad.Power
import CurrencyPad.Rounding

namespace CurrencyPad.Binary

/-! ## 1. Formats -/

/-- A binary floating-point format. -/
structure Format where
  /-- Bits of the coefficient. -/
  precision : Nat
  /-- Exponent of the smallest positive number. -/
  lowest : Int
  /-- Every number is below two to this power. -/
  overflow : Int

/-- Single precision. -/
def single : Format := ⟨24, -149, 128⟩

/-- Double precision. -/
def double : Format := ⟨53, -1074, 1024⟩

/-! ## 2. Rounding -/

/-- The exponent of the leading bit of a positive rational. -/
def leadingBit (x : Rat) : Int :=
  let e : Int := (Nat.log2 x.num.natAbs : Int) - (Nat.log2 x.den : Int)
  if power 2 e ≤ x then e else e - 1

/-- The exponent of the last bit that the format keeps of a positive rational. -/
def Format.lastBit (f : Format) (x : Rat) : Int :=
  max f.lowest (leadingBit x - (f.precision - 1))

/-- The nearest number of the format; a half goes to the even coefficient. -/
def Format.nearest (f : Format) (x : Rat) : Rat :=
  if x = 0 then 0
  else
    let unit := power 2 (f.lastBit (if x < 0 then -x else x))
    (Rounding.toEven (x / unit) : Rat) * unit

/-- Within the range of the format. -/
def Format.inRange (f : Format) (x : Rat) : Bool :=
  decide (-power 2 f.overflow < x ∧ x < power 2 f.overflow)

/-! ## 3. Bits -/

/-- The bits of a number of the format that is not negative, as a whole number:
first the exponent, then the coefficient without its leading bit. -/
def Format.bits (f : Format) (x : Rat) : Nat :=
  if x = 0 then 0
  else
    let q := f.lastBit x
    (q - f.lowest).toNat * Nat.pow 2 (f.precision - 1) + (x / power 2 q).floor.toNat

end CurrencyPad.Binary
