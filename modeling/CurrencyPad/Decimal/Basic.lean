/-
CurrencyPad.Decimal.Basic — the decimal numbers the calculator works on.

A decimal is a whole coefficient of at most 96 bits together with a scale
of 0 to 28 fraction digits; it denotes `coeff / 10 ^ scale`. The bounds
are part of the type, so every operation that produces a decimal shows
that its result fits.

The scale is kept because a written number keeps it (`0.50` is not
written `0.5`), but it carries no meaning: numbers are compared by
`toRat`, and `normalize` gives the one spelling without trailing
fraction zeros. The same holds for `fromBelow`, the mark of a zero that a
negative number was rounded to: only its double shows it.
-/
import CurrencyPad.Power

namespace CurrencyPad

/-! ## 1. The type -/

/-- Two to the power 96: coefficients have at most 96 bits. -/
def coeffBound : Nat := 79228162514264337593543950336

/-- A decimal has at most this many fraction digits. -/
def maxScale : Nat := 28

/-- The number `coeff / 10 ^ scale`. -/
structure Decimal where
  coeff : Int
  scale : Nat
  /-- A zero that a negative number was rounded to. -/
  fromBelow : Bool := false
  coeff_lt : coeff.natAbs < coeffBound := by decide
  scale_le : scale ≤ maxScale := by decide
  fromBelow_zero : fromBelow = true → coeff = 0 := by nofun
deriving DecidableEq

namespace Decimal

/-- The exact value. -/
def toRat (d : Decimal) : Rat := (d.coeff : Rat) / (tenTo d.scale : Rat)

/-- The decimal with these parts, when they are within bounds. -/
def ofParts? (coeff : Int) (scale : Nat) : Option Decimal :=
  if h : coeff.natAbs < coeffBound ∧ scale ≤ maxScale then
    some { coeff, scale, coeff_lt := h.1, scale_le := h.2 }
  else none

def zero : Decimal := { coeff := 0, scale := 0 }
def one : Decimal := { coeff := 1, scale := 0 }
def hundred : Decimal := { coeff := 100, scale := 0 }

/-- The zero that a negative number was rounded to, with all its fraction digits. -/
def zeroFromBelow : Decimal :=
  { coeff := 0, scale := maxScale, fromBelow := true, fromBelow_zero := fun _ => rfl }

instance : Inhabited Decimal := ⟨zero⟩

/-! ## 2. Sign and comparison -/

/-- Below zero, which no zero is. -/
def isNegative (d : Decimal) : Bool := decide (d.coeff < 0)

/-- Above zero. -/
def isPositive (d : Decimal) : Bool := decide (0 < d.coeff)

/-- The same number, whatever the scales. -/
def sameValue (a b : Decimal) : Bool := decide (a.toRat = b.toRat)

def neg (d : Decimal) : Decimal :=
  { coeff := -d.coeff, scale := d.scale
    coeff_lt := (Int.natAbs_neg d.coeff).symm ▸ d.coeff_lt, scale_le := d.scale_le }

instance : Neg Decimal := ⟨neg⟩

def abs (d : Decimal) : Decimal :=
  { coeff := d.coeff.natAbs, scale := d.scale
    coeff_lt := (Int.natAbs_natCast d.coeff.natAbs).symm ▸ d.coeff_lt, scale_le := d.scale_le }

/-! ## 3. Trailing zeros -/

/-- The number `coeff / 10 ^ scale` without trailing fraction zeros. -/
def normalizeFrom : (scale : Nat) → scale ≤ maxScale →
    (coeff : Int) → coeff.natAbs < coeffBound → Decimal
  | 0, hs, m, hm => { coeff := m, scale := 0, coeff_lt := hm, scale_le := hs }
  | s + 1, hs, m, hm =>
    if h : m % 10 = 0 then normalizeFrom s (by omega) (m / 10) (by omega)
    else { coeff := m, scale := s + 1, coeff_lt := hm, scale_le := hs }

/-- The spelling without trailing fraction zeros. -/
def normalize (d : Decimal) : Decimal := normalizeFrom d.scale d.scale_le d.coeff d.coeff_lt

end Decimal
end CurrencyPad
