/-
CurrencyPad.Proofs.Json.Decimal — a decimal goes through a double.

A decimal is written as a double. What is read back is the decimal that
the shortest digits of a double spell, and this is the double that was
read, after two roundings, from the digits of the first
(`decimal?_ofDecimal`). So the number that comes back need not be the one
that was written (`Decimal.SurvivesDouble`): seventeen digits tell all
doubles apart, a quotient has up to twenty-nine, and the two roundings may
end at the next double. A decimal of fifteen digits does come back
(`Decimal.survivesDouble_of_short`).
-/
import CurrencyPad.Json.Decimal
import CurrencyPad.Proofs.Decimal.Double
import CurrencyPad.Proofs.Json.Double
import CurrencyPad.Proofs.Json.RoundTrip

namespace CurrencyPad.Json

theorem toDouble_of_fromBelow {d : Decimal} (h : d.fromBelow = true) : d.toDouble = 0 := by
  have hcoeff := d.fromBelow_zero h
  simp [Decimal.toDouble, Decimal.doubleOfParts, hcoeff, Decimal.isNegative]

/-- **What is read back** of a decimal are the digits of the double that its numeral is read
as. -/
theorem decimal?_ofDecimal (d : Decimal) :
    (ofDecimal d).decimal? = (Numeral.ofDouble d.toDouble).double?.bind Decimal.ofDouble? := by
  rw [ofDecimal]
  split
  · rename_i hmark
    rw [toDouble_of_fromBelow hmark]
    decide +kernel
  · simp [number, decimal?, Numeral.decimal?, Numeral.integer?_ofDouble]

theorem isPlain_ofDecimal (d : Decimal) (depth : Nat) : (ofDecimal d).isPlain depth = true := by
  rw [ofDecimal, number, isPlain, Scalar.isPlain]
  split
  · decide +kernel
  · simp [Numeral.isSome_double?_ofDouble d.isDouble_toDouble d.abs_toDouble_le]

theorem legible_ofDecimal (d : Decimal) : (ofDecimal d).Legible := by
  rw [ofDecimal, number, Legible]
  split
  · exact Numeral.wellFormed_negativeZero.legible
  · exact (Numeral.wellFormed_ofDouble _).legible

theorem legible_ofOption {α : Type} {write : α → Json} (h : ∀ a, (write a).Legible)
    (a : Option α) : (ofOption write a).Legible := by
  cases a with
  | none => trivial
  | some a => exact h a

theorem legible_ofTexts (xs : List String) : (ofTexts xs).Legible := by
  rw [ofTexts, Legible, itemsLegible_iff]
  intro v hv
  obtain ⟨x, -, rfl⟩ := List.mem_map.mp hv
  exact legible_string x

end CurrencyPad.Json

namespace CurrencyPad.Decimal

open Json

/-- A decimal becomes a double, the double a numeral. Read back, the numeral is a double and this
a decimal, which is the same number. -/
def SurvivesDouble (d : Decimal) : Prop :=
  ((Numeral.ofDouble d.toDouble).double?.bind ofDouble?).map toRat = some d.toRat

instance (d : Decimal) : Decidable d.SurvivesDouble := inferInstanceAs (Decidable (_ = _))

theorem survivesDouble_iff {d : Decimal} :
    d.SurvivesDouble ↔ (ofDecimal d).decimal?.any d.sameValue = true := by
  rw [SurvivesDouble, ← decimal?_ofDecimal]
  cases (ofDecimal d).decimal? with
  | none => simp
  | some d' => simp [sameValue, eq_comm]

/-- **A short decimal survives.** -/
theorem survivesDouble_of_short {d : Decimal} (h : d.Short) : d.SurvivesDouble := by
  rw [SurvivesDouble, Numeral.double?_ofDouble_toDouble h, Option.bind_some,
    map_toRat_ofDouble?_toDouble h]

/-- Seventeen digits that their double spells as they are, but that are read as the next one. -/
example : (ofDecimal { coeff := 10065084822455855, scale := 2 }).decimal?.map toRat =
    some (10065084822455856 / 100) := by decide +kernel

end CurrencyPad.Decimal
