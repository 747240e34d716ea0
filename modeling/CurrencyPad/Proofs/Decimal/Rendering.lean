/-
CurrencyPad.Proofs.Decimal.Rendering — the shape of a written decimal.

A decimal is written as a sign, which only a number below zero has, whole
digits without a superfluous leading zero, and perhaps a point with digits
after it. `render` writes a decimal in the same way after it dropped the
trailing zeros of the fraction, so what holds of every written decimal
holds of the rendered one.
-/
import CurrencyPad.Proofs.Decimal.Literal
import CurrencyPad.Proofs.Text.Digits

namespace CurrencyPad.Decimal

open Text

/-- The number without its sign. -/
def magnitudeChars (d : Decimal) : List Char :=
  d.wholeDigits ++ (if d.scale = 0 then [] else '.' :: d.fractionDigits)

theorem toChars_eq (d : Decimal) : d.toChars = d.signChars ++ d.magnitudeChars := by
  simp [toChars, magnitudeChars]

theorem isDigit_of_mem_wholeDigits {d : Decimal} {c : Char} (h : c ∈ d.wholeDigits) :
    c.isDigit = true := isDigit_of_mem_digits h

theorem isDigit_of_mem_fractionDigits {d : Decimal} {c : Char}
    (h : c ∈ d.fractionDigits) : c.isDigit = true := isDigit_of_mem_padded h

theorem length_fractionDigits (d : Decimal) : d.fractionDigits.length = d.scale :=
  length_padded _ _

theorem exists_cons_wholeDigits (d : Decimal) : ∃ c r, d.wholeDigits = c :: r :=
  List.exists_cons_of_ne_nil (digits_ne_nil _)

/-- A written decimal begins, after its sign, with a digit. -/
theorem exists_head_magnitudeChars (d : Decimal) :
    ∃ c r, d.magnitudeChars = c :: r ∧ c.isDigit = true := by
  obtain ⟨c, r, hcr⟩ := d.exists_cons_wholeDigits
  exact ⟨c, _, by rw [magnitudeChars, hcr]; rfl,
    isDigit_of_mem_wholeDigits (d := d) (by simp [hcr])⟩

theorem exists_getLast?_magnitudeChars (d : Decimal) :
    ∃ c, d.magnitudeChars.getLast? = some c ∧ c.isDigit = true := by
  rw [magnitudeChars]
  split
  · obtain ⟨c, hc⟩ := List.getLast?_isSome.mpr (digits_ne_nil _)
      |> Option.isSome_iff_exists.mp
    rw [List.append_nil]
    exact ⟨c, hc, isDigit_of_mem_wholeDigits (List.mem_of_getLast? hc)⟩
  · rename_i hscale
    have hne : d.fractionDigits ≠ [] := by
      rw [← List.length_pos_iff, length_fractionDigits]
      omega
    obtain ⟨c, hc⟩ := List.getLast?_isSome.mpr hne |> Option.isSome_iff_exists.mp
    refine ⟨c, ?_, isDigit_of_mem_fractionDigits (List.mem_of_getLast? hc)⟩
    rw [List.getLast?_append, List.getLast?_cons, hc]
    rfl

/-- A written decimal ends in a digit. -/
theorem exists_getLast?_toChars (d : Decimal) :
    ∃ c, d.toChars.getLast? = some c ∧ c.isDigit = true := by
  obtain ⟨c, hc, hdigit⟩ := d.exists_getLast?_magnitudeChars
  exact ⟨c, by rw [toChars_eq, List.getLast?_append, hc, Option.some_or], hdigit⟩

theorem isNumeralChar_of_mem_magnitudeChars {d : Decimal} {c : Char}
    (h : c ∈ d.magnitudeChars) : isNumeralChar c = true := by
  rcases List.mem_append.mp h with h | h
  · exact isNumeralChar_of_isDigit (isDigit_of_mem_wholeDigits h)
  · split at h
    · simp at h
    · rcases List.mem_cons.mp h with rfl | h
      · rfl
      · exact isNumeralChar_of_isDigit (isDigit_of_mem_fractionDigits h)

/-- A zero in front is alone or before the point. -/
theorem not_isDigit_of_magnitudeChars {d : Decimal} {c : Char} {r : List Char}
    (h : d.magnitudeChars = '0' :: c :: r) : c.isDigit = false := by
  obtain ⟨c', r', hcr⟩ := d.exists_cons_wholeDigits
  rw [magnitudeChars, hcr, List.cons_append] at h
  obtain ⟨hc', hr⟩ := List.cons.inj h
  subst hc'
  obtain rfl := eq_nil_of_digits_eq_cons hcr
  rw [List.nil_append] at hr
  split at hr
  · simp at hr
  · obtain ⟨rfl, -⟩ := List.cons.inj hr
    rfl

/-- **The shape of a rendered decimal**: an optional minus sign, then digits and
points, the first of them a digit, which is a zero only alone or before the
point. -/
theorem renderChars_shape (d : Decimal) :
    ∃ sign body, d.renderChars = sign ++ body ∧ (sign = [] ∨ sign = ['-']) ∧
      (∃ c r, body = c :: r ∧ c.isDigit = true) ∧
      (∀ c ∈ body, isNumeralChar c = true) ∧
      (∀ c r, body = '0' :: c :: r → c.isDigit = false) := by
  refine ⟨_, _, toChars_eq d.normalize, ?_, exists_head_magnitudeChars _,
    fun c hc => isNumeralChar_of_mem_magnitudeChars hc,
    fun c r h => not_isDigit_of_magnitudeChars h⟩
  rw [signChars]
  split <;> simp

end CurrencyPad.Decimal
