/-
CurrencyPad.Proofs.Expression.Literal — the value of a bare literal.

A text that is a literal has the value of the number it denotes, rounded
half up (`Decimal.halfUp?`), however long it is; every other text has no
value. So the value does not depend on how the number was written: zeros
that change nothing, before the digits or after those of a fraction, and a
point that stands first or last (`Respells`) leave it as it is.
-/
import Mathlib.Logic.Relation
import CurrencyPad.Expression.Evaluation
import CurrencyPad.Proofs.Decimal.HalfUp

namespace CurrencyPad

namespace Decimal

open Text

/-! ## 1. Other spellings of a number -/

/-- The same number with one more character. A zero before a point that stands first is a
leading zero. -/
inductive Respells : List Char → List Char → Prop
  | leadingZero (cs : List Char) : Respells cs ('0' :: cs)
  | trailingZero {cs : List Char} (hpoint : '.' ∈ cs) : Respells cs (cs ++ ['0'])
  | trailingPoint {cs : List Char} (hpoint : '.' ∉ cs) : Respells cs (cs ++ ['.'])

variable {cs cs' : List Char}

theorem LiteralShape.leadingZero (h : LiteralShape cs) : LiteralShape ('0' :: cs) :=
  ⟨List.forall_mem_cons.mpr ⟨rfl, h.numeral⟩, by simpa using h.point,
    '0', List.mem_cons_self, rfl⟩

theorem LiteralShape.append {c : Char} (h : LiteralShape cs) (hc : isNumeralChar c = true)
    (hpoint : (cs ++ [c]).count '.' ≤ 1) : LiteralShape (cs ++ [c]) := by
  obtain ⟨digit, hmem, hdigit⟩ := h.digit
  refine ⟨fun x hx => ?_, hpoint, digit, List.mem_append_left _ hmem, hdigit⟩
  rcases List.mem_append.mp hx with hx | hx
  · exact h.numeral x hx
  · rwa [List.mem_singleton.mp hx]

/-- Another spelling is a literal again. -/
theorem Respells.shape (hstep : Respells cs cs') (h : LiteralShape cs) : LiteralShape cs' := by
  cases hstep with
  | leadingZero => exact h.leadingZero
  | trailingZero hpoint =>
    exact h.append rfl (by simpa [List.count_append] using h.point)
  | trailingPoint hpoint =>
    exact h.append rfl (by simp [List.count_append, List.count_eq_zero.mpr hpoint])

theorem literalRat_leadingZero (cs : List Char) : literalRat ('0' :: cs) = literalRat cs := by
  have hwhole : literalWhole ('0' :: cs) = '0' :: literalWhole cs := by simp [literalWhole]
  have hfraction : literalFraction ('0' :: cs) = literalFraction cs := by simp [literalFraction]
  rw [literalRat, hwhole, hfraction, number_zero_cons, literalRat]

theorem literalRat_trailingZero (hpoint : '.' ∈ cs) : literalRat (cs ++ ['0']) = literalRat cs := by
  obtain ⟨ws, r, hws, rfl⟩ : ∃ ws r, '.' ∉ ws ∧ cs = ws ++ '.' :: r := by
    refine ⟨_, _, point_not_mem_literalWhole cs, (literal_cases cs).resolve_left ?_⟩
    rintro ⟨hwhole, -⟩
    rw [hwhole] at hpoint
    exact point_not_mem_literalWhole cs hpoint
  have hfraction : (number (r ++ ['0']) : Rat) / 10 ^ (r ++ ['0']).length =
      number r / 10 ^ r.length := by
    have hzero : number ['0'] = 0 := rfl
    rw [number_append, hzero, Nat.add_zero, List.length_append, pow_add, Nat.cast_mul, Nat.cast_pow,
      mul_comm, List.length_singleton]
    exact mul_div_mul_right _ _ (by norm_num)
  rw [List.append_assoc, List.cons_append, literalRat_append hws, literalRat_append hws, hfraction]

theorem literalRat_trailingPoint (hpoint : '.' ∉ cs) : literalRat (cs ++ ['.']) = literalRat cs := by
  rw [literalRat_append hpoint, literalRat_of_point_not_mem hpoint]
  simp [number]

/-- Another spelling denotes the same number. -/
theorem Respells.literalRat_eq (hstep : Respells cs cs') : literalRat cs' = literalRat cs := by
  cases hstep with
  | leadingZero => exact literalRat_leadingZero cs
  | trailingZero hpoint => exact literalRat_trailingZero hpoint
  | trailingPoint hpoint => exact literalRat_trailingPoint hpoint

/-- What one more character leaves as it is, any number of them does. -/
theorem LiteralShape.respelled (hshape : LiteralShape cs)
    (h : Relation.ReflTransGen Respells cs cs') :
    LiteralShape cs' ∧ literalRat cs' = literalRat cs := by
  induction h with
  | refl => exact ⟨hshape, rfl⟩
  | tail _ hstep ih => exact ⟨hstep.shape ih.1, hstep.literalRat_eq.trans ih.2⟩

end Decimal

namespace Expression

open Decimal Text

/-! ## 2. The value of a literal -/

/-- **Literals of any length are rounded half up.** A text whose digits denote `x` has the value
of `x`, rounded half up to as many places as there is room for; every other text has none. So
texts that denote one number have one value, and other spellings of a text have its value. -/
theorem literal?_halfUp (text : String) :
    (LiteralShape (trimChars text.toList) →
      (literal? text).map toRat = halfUp? (literalRat (trimChars text.toList))) ∧
    (¬LiteralShape (trimChars text.toList) → literal? text = none) ∧
    (∀ other : String, LiteralShape (trimChars text.toList) →
      LiteralShape (trimChars other.toList) →
      literalRat (trimChars other.toList) = literalRat (trimChars text.toList) →
      (literal? other).map toRat = (literal? text).map toRat) ∧
    (∀ other : String, LiteralShape (trimChars text.toList) →
      Relation.ReflTransGen Respells (trimChars text.toList) (trimChars other.toList) →
      (literal? other).map toRat = (literal? text).map toRat) := by
  have hread (typed : String) (hshape : LiteralShape (trimChars typed.toList)) :
      (literal? typed).map toRat = halfUp? (literalRat (trimChars typed.toList)) :=
    map_toRat_ofLiteral? hshape
  have hsame (other : String) (hshape : LiteralShape (trimChars text.toList))
      (hother : LiteralShape (trimChars other.toList))
      (hnumber : literalRat (trimChars other.toList) = literalRat (trimChars text.toList)) :
      (literal? other).map toRat = (literal? text).map toRat := by
    rw [hread other hother, hread text hshape, hnumber]
  refine ⟨hread text, fun hshape => ?_, hsame, fun other hshape hrespelled => ?_⟩
  · rw [Option.eq_none_iff_forall_ne_some]
    intro d hd
    exact hshape (shape_of_ofLiteral? hd)
  · obtain ⟨hother, hnumber⟩ := hshape.respelled hrespelled
    exact hsame other hshape hother hnumber

/-- The first fraction digit fills the coefficient, and the second carries it onto the bound. A text
with two points has no value, and zeros around `.55` leave its value as it is. -/
theorem literal?_halfUp_carried :
    (literal? " 7922816251426433759354395033.55 ").map toRat =
        some 7922816251426433759354395034 ∧
      literal? "7922816251426433759354395033.5.5" = none ∧
      (literal? "0.55").map toRat = (literal? ".55").map toRat ∧
      (literal? "0.550").map toRat = (literal? ".55").map toRat := by
  have hshape : LiteralShape (trimChars ".55".toList) := by decide +kernel
  have hrespelled : Relation.ReflTransGen Respells (trimChars ".55".toList)
      (trimChars "0.550".toList) :=
    (Relation.ReflTransGen.single (.leadingZero ".55".toList)).tail (.trailingZero (by decide))
  exact ⟨((literal?_halfUp _).1 (by decide +kernel)).trans (by decide +kernel),
    (literal?_halfUp _).2.1 (by decide +kernel),
    (literal?_halfUp ".55").2.2.1 "0.55" hshape (by decide +kernel) (by decide +kernel),
    (literal?_halfUp ".55").2.2.2 "0.550" hshape hrespelled⟩

end Expression
end CurrencyPad
