/-
CurrencyPad.Proofs.Decimal.Denotation — the number that a text denotes.

Digits with a point denote a rational, whatever their number
(`literalRat`), and a sign before them denotes its opposite (`Denotes`).
This says nothing of decimals and their bounds; a written decimal denotes
its own number (`denotes_toChars`).
-/
import Mathlib.Data.List.TakeWhile
import CurrencyPad.Proofs.Decimal.Nearest
import CurrencyPad.Proofs.Decimal.Reading

namespace CurrencyPad.Decimal

open Text

/-! ## 1. The number that a literal denotes -/

/-- The digits before the point. -/
def literalWhole (cs : List Char) : List Char := cs.takeWhile (· != '.')

/-- The digits after the point. -/
def literalFraction (cs : List Char) : List Char := (cs.dropWhile (· != '.')).tail

/-- The exact number that digits with a point denote, however many they are. -/
def literalRat (cs : List Char) : Rat :=
  number (literalWhole cs) + number (literalFraction cs) / 10 ^ (literalFraction cs).length

variable {cs : List Char}

theorem point_not_mem_literalWhole (cs : List Char) : '.' ∉ literalWhole cs := by
  intro hp
  simpa using List.mem_takeWhile_imp hp

/-- A literal is its whole digits, and perhaps a point and its fraction digits. -/
theorem literal_cases (cs : List Char) :
    cs = literalWhole cs ∧ literalFraction cs = [] ∨
      cs = literalWhole cs ++ '.' :: literalFraction cs := by
  have hsplit : literalWhole cs ++ cs.dropWhile (· != '.') = cs := List.takeWhile_append_dropWhile
  unfold literalFraction
  cases hrest : cs.dropWhile (· != '.') with
  | nil =>
    rw [hrest, List.append_nil] at hsplit
    exact .inl ⟨hsplit.symm, rfl⟩
  | cons c r =>
    have hhead := List.head?_dropWhile_not (· != '.') cs
    rw [hrest] at hhead
    obtain rfl : c = '.' := by simpa using hhead
    rw [hrest] at hsplit
    exact .inr hsplit.symm

theorem LiteralShape.isDigit_whole (h : LiteralShape cs) :
    ∀ c ∈ literalWhole cs, c.isDigit = true := by
  intro c hc
  have hnum := h.numeral c ((List.takeWhile_prefix _).subset hc)
  have hpoint : c ≠ '.' := by
    rintro rfl
    exact point_not_mem_literalWhole cs hc
  simpa [isNumeralChar, hpoint] using hnum

theorem LiteralShape.isDigit_fraction (h : LiteralShape cs) :
    ∀ c ∈ literalFraction cs, c.isDigit = true := by
  rcases literal_cases cs with ⟨-, hnil⟩ | hsplit
  · simp [hnil]
  · intro c hc
    have hnum := h.numeral c (by rw [hsplit]; simp [hc])
    have hcount := h.point
    rw [hsplit, List.count_append, List.count_cons_self] at hcount
    have hnone : (literalFraction cs).count '.' = 0 := by omega
    have hpoint : c ≠ '.' := by
      rintro rfl
      exact List.count_eq_zero.mp hnone hc
    simpa [isNumeralChar, hpoint] using hnum

theorem literalWhole_append {ws r : List Char} (h : '.' ∉ ws) :
    literalWhole (ws ++ '.' :: r) = ws := by
  rw [literalWhole, List.takeWhile_append_of_pos, List.takeWhile_cons_of_neg (by simp),
    List.append_nil]
  intro c hc
  have hpoint : c ≠ '.' := by
    rintro rfl
    exact h hc
  simpa using hpoint

theorem literalFraction_append {ws r : List Char} (h : '.' ∉ ws) :
    literalFraction (ws ++ '.' :: r) = r := by
  rcases literal_cases (ws ++ '.' :: r) with ⟨heq, -⟩ | heq
  · rw [literalWhole_append h] at heq
    simp at heq
  · rw [literalWhole_append h] at heq
    simpa using heq.symm

theorem literalRat_append {ws r : List Char} (h : '.' ∉ ws) :
    literalRat (ws ++ '.' :: r) = number ws + number r / 10 ^ r.length := by
  rw [literalRat, literalWhole_append h, literalFraction_append h]

theorem literalRat_of_point_not_mem {ws : List Char} (h : '.' ∉ ws) : literalRat ws = number ws := by
  rcases literal_cases ws with ⟨heq, hnil⟩ | heq
  · rw [literalRat, ← heq, hnil]
    simp [number]
  · exact absurd (by rw [heq]; simp) h

/-! ## 2. Texts with a sign -/

/-- The text is a literal, perhaps with a minus sign before it, and denotes `x`. -/
def Denotes (cs : List Char) (x : Rat) : Prop :=
  ∃ run, LiteralShape run ∧ (cs = run ∧ x = literalRat run ∨ cs = '-' :: run ∧ x = -literalRat run)

/-- Without its sign a decimal denotes its absolute value. -/
theorem literalRat_magnitudeChars (d : Decimal) : literalRat d.magnitudeChars = |d.toRat| := by
  have hwhole : '.' ∉ d.wholeDigits := fun hp =>
    ne_point_of_isDigit (isDigit_of_mem_wholeDigits hp) rfl
  have habs : |d.toRat| = (d.coeff.natAbs : Rat) / 10 ^ d.scale := by
    rw [← toRat_abs, toRat_eq]
    rfl
  rw [magnitudeChars, habs]
  split
  · rename_i hscale
    rw [List.append_nil, literalRat_of_point_not_mem hwhole, wholeDigits, number_digits, hscale,
      tenTo_zero, Nat.div_one, pow_zero, div_one]
  · have hsplit : (d.coeff.natAbs : Rat) =
        tenTo d.scale * (d.coeff.natAbs / tenTo d.scale : Nat) +
          (d.coeff.natAbs % tenTo d.scale : Nat) := by
      exact_mod_cast (Nat.div_add_mod _ _).symm
    rw [literalRat_append hwhole, wholeDigits, fractionDigits, number_digits, number_padded,
      length_padded, Nat.mod_mod, hsplit, cast_tenTo]
    field_simp

/-- **A written decimal** denotes its number. -/
theorem denotes_toChars (d : Decimal) : Denotes d.toChars d.toRat := by
  refine ⟨d.magnitudeChars, shape_of_ofLiteral? d.ofLiteral?_magnitudeChars, ?_⟩
  rw [literalRat_magnitudeChars, toChars_eq, signChars]
  cases h : d.isNegative with
  | true => exact .inr ⟨rfl, by rw [abs_of_neg (isNegative_iff.mp h), neg_neg]⟩
  | false => exact .inl ⟨rfl, (abs_of_nonneg (nonneg_of_not_isNegative h)).symm⟩

end CurrencyPad.Decimal
