/-
CurrencyPad.Proofs.Decimal.Reading — a written decimal is read back.

The reader takes in one digit at a time and looks after each whether the
coefficient still fits. Of digits that make a number below the bound every
first part does too, so none is refused and none rounds the number
(`readWhole_digits`, `readFraction_digits`). The digits of a decimal are
of that kind: together they make its coefficient, and there are as many
after the point as it has places (`ofDigitChars_fractionDigits`). So what
is read is the decimal itself, up to its sign (`ofLiteral?_magnitudeChars`).
-/
import CurrencyPad.Proofs.Decimal.Rendering

namespace CurrencyPad.Decimal

open Text

/-! ## 1. Digits that fit -/

/-- Whole digits are all taken in when the number they make fits. -/
theorem readWhole_digits {cs : List Char} (hdigits : ∀ c ∈ cs, c.isDigit = true) (m : Nat)
    (hfits : Nat.ofDigitChars 10 cs m < coeffBound) (rest : List Char) :
    readWhole m (cs ++ rest) = readWhole (Nat.ofDigitChars 10 cs m) rest := by
  induction cs generalizing m with
  | nil => rw [List.nil_append, Nat.ofDigitChars_nil]
  | cons c r ih =>
    have hc : c.isDigit = true := hdigits c (by simp)
    rw [ofDigitChars_cons] at hfits ⊢
    have hnext : 10 * m + digitValue c < coeffBound :=
      Nat.lt_of_le_of_lt (le_ofDigitChars r _) hfits
    rw [List.cons_append, readWhole, if_neg (ne_point_of_isDigit hc), if_pos hc, if_pos hnext]
    exact ih (fun x hx => hdigits x (by simp [hx])) _ hfits

/-- Fraction digits are all taken in when the number they complete fits and there
are not too many of them. -/
theorem readFraction_digits {cs : List Char} (hdigits : ∀ c ∈ cs, c.isDigit = true)
    (m s : Nat) (hfits : Nat.ofDigitChars 10 cs m < coeffBound)
    (hplaces : s + cs.length ≤ maxScale) :
    readFraction m s cs = ofParts? (Nat.ofDigitChars 10 cs m : Nat) (s + cs.length) := by
  induction cs generalizing m s with
  | nil => rw [readFraction, Nat.ofDigitChars_nil, List.length_nil, Nat.add_zero]
  | cons c r ih =>
    have hc : c.isDigit = true := hdigits c (by simp)
    rw [List.length_cons] at hplaces
    rw [ofDigitChars_cons] at hfits ⊢
    have hnext : 10 * m + digitValue c < coeffBound :=
      Nat.lt_of_le_of_lt (le_ofDigitChars r _) hfits
    rw [readFraction, if_pos hc, if_pos ⟨by omega, hnext⟩,
      ih (fun x hx => hdigits x (by simp [hx])) _ _ hfits (by omega),
      List.length_cons, Nat.add_right_comm, Nat.add_assoc]

/-! ## 2. The digits of a decimal -/

theorem ofDigitChars_wholeDigits (d : Decimal) :
    Nat.ofDigitChars 10 d.wholeDigits 0 = d.coeff.natAbs / tenTo d.scale :=
  number_digits _

/-- The fraction digits complete the whole part to the coefficient. -/
theorem ofDigitChars_fractionDigits (d : Decimal) :
    Nat.ofDigitChars 10 d.fractionDigits (d.coeff.natAbs / tenTo d.scale)
      = d.coeff.natAbs := by
  have hpart : Nat.ofDigitChars 10 d.fractionDigits 0 = d.coeff.natAbs % tenTo d.scale := by
    rw [fractionDigits, ← number, number_padded, Nat.mod_mod]
  rw [Nat.ofDigitChars_eq_ofDigitChars_zero, hpart, length_fractionDigits]
  exact Nat.div_add_mod d.coeff.natAbs (tenTo d.scale)

/-- A text that ends in a digit has no point to be completed. -/
theorem withFraction_of_isDigit {cs : List Char} {c : Char} (hlast : cs.getLast? = some c)
    (hdigit : c.isDigit = true) : withFraction cs = cs := by
  rw [withFraction, if_neg]
  intro hpoint
  rw [hlast] at hpoint
  exact ne_point_of_isDigit hdigit (Option.some.inj hpoint)

theorem ofParts?_abs (d : Decimal) : ofParts? (d.coeff.natAbs : Nat) d.scale = some d.abs := by
  rw [ofParts?, dif_pos ⟨d.abs.coeff_lt, d.scale_le⟩]
  rfl

/-- The digits and the point of a written decimal are read back. -/
theorem readWhole_magnitudeChars (d : Decimal) : readWhole 0 d.magnitudeChars = some d.abs := by
  have hwhole : Nat.ofDigitChars 10 d.wholeDigits 0 < coeffBound := by
    rw [ofDigitChars_wholeDigits]
    exact Nat.lt_of_le_of_lt (Nat.div_le_self _ _) d.coeff_lt
  rw [magnitudeChars, readWhole_digits (fun _ => isDigit_of_mem_wholeDigits) 0 hwhole,
    ofDigitChars_wholeDigits]
  split
  · rename_i hscale
    rw [readWhole, hscale, tenTo_zero, Nat.div_one, ← hscale]
    exact ofParts?_abs d
  · have hfits : Nat.ofDigitChars 10 d.fractionDigits (d.coeff.natAbs / tenTo d.scale)
        < coeffBound := by
      rw [ofDigitChars_fractionDigits]
      exact d.coeff_lt
    have hplaces : 0 + d.fractionDigits.length ≤ maxScale := by
      rw [length_fractionDigits, Nat.zero_add]
      exact d.scale_le
    rw [readWhole, if_pos rfl,
      readFraction_digits (fun _ => isDigit_of_mem_fractionDigits) _ _ hfits hplaces,
      ofDigitChars_fractionDigits, length_fractionDigits, Nat.zero_add]
    exact ofParts?_abs d

/-- **A written decimal reads as itself**, apart from its sign. -/
theorem ofLiteral?_magnitudeChars (d : Decimal) :
    ofLiteral? d.magnitudeChars = some d.abs := by
  obtain ⟨c, r, hcr, hc⟩ := d.exists_head_magnitudeChars
  have hclosed : withFraction d.magnitudeChars = d.magnitudeChars := by
    obtain ⟨last, hlast, hdigit⟩ := d.exists_getLast?_magnitudeChars
    exact withFraction_of_isDigit hlast hdigit
  rw [ofLiteral?, if_pos (by simp [hcr, hc]), hclosed, readWhole_magnitudeChars]

theorem resolveUnderscores_eq {cs : List Char} (h : '_' ∉ cs) (m : Nat) (places : Option Nat) :
    resolveUnderscores m places cs = cs := by
  induction cs generalizing m places with
  | nil => rfl
  | cons c r ih =>
    obtain ⟨hc, hr⟩ : '_' ≠ c ∧ '_' ∉ r := by simpa using h
    simp [resolveUnderscores, hc.symm, ih hr]

/-- A text that begins with a digit and has no underscore is as it should be. -/
theorem withoutUnderscores_eq {c : Char} {r : List Char} (hc : c.isDigit = true)
    (h : '_' ∉ c :: r) : withoutUnderscores (c :: r) = c :: r := by
  simp [withoutUnderscores, hc, resolveUnderscores_eq h]

/-- So it does outside the calculator. -/
theorem ofUnsigned?_magnitudeChars (d : Decimal) :
    ofUnsigned? d.magnitudeChars = some d.abs := by
  obtain ⟨c, r, hcr, hc⟩ := d.exists_head_magnitudeChars
  have hplain : withoutUnderscores d.magnitudeChars = d.magnitudeChars := by
    have hunderscore : '_' ∉ d.magnitudeChars := fun hmem =>
      absurd (isNumeralChar_of_mem_magnitudeChars hmem) (by decide)
    rw [hcr] at hunderscore ⊢
    exact withoutUnderscores_eq hc hunderscore
  rw [ofUnsigned?, if_pos (by simp [hcr, hc]), hplain, readWhole_magnitudeChars]

/-- No digit is a sign. -/
theorem ofSigned?_magnitudeChars (d : Decimal) : ofSigned? d.magnitudeChars = some d.abs := by
  obtain ⟨c, r, hcr, hc⟩ := d.exists_head_magnitudeChars
  have hunsigned := d.ofUnsigned?_magnitudeChars
  rw [hcr] at hunsigned ⊢
  rw [ofSigned?.eq_3]
  · exact hunsigned
  · rintro _ heq
    obtain ⟨rfl, -⟩ := List.cons.inj heq
    exact absurd hc (by decide)
  · rintro _ heq
    obtain ⟨rfl, -⟩ := List.cons.inj heq
    exact absurd hc (by decide)

end CurrencyPad.Decimal
