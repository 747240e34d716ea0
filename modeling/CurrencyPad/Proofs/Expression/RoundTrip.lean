/-
CurrencyPad.Proofs.Expression.RoundTrip — what was rendered evaluates to
the number that was rendered.

A solved expression is replaced by the text of its value, and the user
types on from there, so this text must stand for the value. It does, for
every decimal there is: `evaluate_render` says that it evaluates to the
normal decimal of the same number. From then on evaluating and rendering
change nothing any more (`render_roundTrip`).

## How the proof goes

* A rendered decimal is an expression of one operand, its sign the sign of
  the literal (`spells_toChars`). The literal reads as the decimal because
  none of its digits is rounded away (`Decimal.ofLiteral?_magnitudeChars`).
* Making the text readable does not touch it: it has no foreign characters,
  and it ends in a digit (`repaired_eq_self`).
* The value of one operand is a sum that starts at zero. A sum is rounded to
  the nearest decimal, but a decimal is the nearest one to itself
  (`Decimal.zero_add?`).
-/
import CurrencyPad.Proofs.Decimal.Nearest
import CurrencyPad.Proofs.Decimal.Reading
import CurrencyPad.Proofs.Expression.Grammar

namespace CurrencyPad

/-! ## 1. The sign of a written decimal -/

namespace Decimal

theorem abs_of_not_isNegative {d : Decimal} (h : d.isNegative = false)
    (hmark : d.fromBelow = false) : d.abs = d := by
  have hcoeff : (d.coeff.natAbs : Int) = d.coeff :=
    Int.natAbs_of_nonneg (by simpa [isNegative] using h)
  cases d
  simp_all [abs]

theorem neg_abs_of_isNegative {d : Decimal} (h : d.isNegative = true)
    (hmark : d.fromBelow = false) : -d.abs = d := by
  have hcoeff : -(d.coeff.natAbs : Int) = d.coeff := by
    have : d.coeff < 0 := by simpa [isNegative] using h
    omega
  change neg (abs d) = d
  cases d
  simp_all [abs, neg]

theorem isNegative_normalize (d : Decimal) : d.normalize.isNegative = d.isNegative := by
  rw [Bool.eq_iff_iff, isNegative_iff, isNegative_iff, toRat_normalize]

theorem renderChars_of_not_isNegative {d : Decimal} (h : d.isNegative = false) :
    d.renderChars = d.normalize.magnitudeChars := by
  rw [renderChars, toChars_eq, signChars, isNegative_normalize, h]
  rfl

/-- A rendered number that is not below zero reads as its normal decimal. -/
theorem ofLiteral?_renderChars {d : Decimal} (h : d.isNegative = false) :
    ofLiteral? d.renderChars = some d.normalize := by
  rw [renderChars_of_not_isNegative h, ofLiteral?_magnitudeChars,
    abs_of_not_isNegative (by rw [isNegative_normalize, h]) d.isNormal_normalize.unmarked]

end Decimal

namespace Expression

/-! ## 2. It is an expression of one operand -/

theorem spells_toChars {d : Decimal} (hmark : d.fromBelow = false) :
    Spells ⟨d, []⟩ d.toChars := by
  have hlit : IsLiteral d.magnitudeChars d.abs := .ofValue d.ofLiteral?_magnitudeChars
  rw [Decimal.toChars_eq, Decimal.signChars]
  cases hsign : d.isNegative with
  | true =>
    have hspells := Spells.signed hlit .nil
    rwa [Decimal.neg_abs_of_isNegative hsign hmark, List.append_nil] at hspells
  | false =>
    have hspells := Spells.plain hlit .nil
    rwa [Decimal.abs_of_not_isNegative hsign hmark, List.append_nil] at hspells

theorem isExpressionChar_of_mem_toChars {d : Decimal} {c : Char} (h : c ∈ d.toChars) :
    isExpressionChar c = true := by
  rw [Decimal.toChars_eq] at h
  rcases List.mem_append.mp h with h | h
  · rw [Decimal.signChars] at h
    split at h
    · obtain rfl : c = '-' := by simpa using h
      rfl
    · exact absurd h (by simp)
  · have hnum := Decimal.isNumeralChar_of_mem_magnitudeChars h
    simp only [Decimal.isNumeralChar, Bool.or_eq_true] at hnum
    rcases hnum with hc | hc <;> simp [isExpressionChar, hc]

/-! ## 3. Making it readable does not touch it -/

/-- A tidy text that ends in a numeral has at most its point completed. -/
theorem repaired_eq_completePoint {cs : List Char} (h : Tidy cs)
    (hlast : ∃ c, cs.getLast? = some c ∧ Decimal.isNumeralChar c = true) :
    repaired cs = completePoint cs := by
  obtain ⟨c, hc, hnum⟩ := hlast
  have hfilter : cs.filter isExpressionChar = cs := List.filter_eq_self.mpr h.chars
  have htrim : trimSpaces cs = cs := by
    apply Text.strip_eq_self
    · rintro x hx
      simpa using fun hspace : x = ' ' => h.head (hspace ▸ hx)
    · rintro x hx
      simpa using fun hspace : x = ' ' => h.last (hspace ▸ hx)
  have hoperator : Operator.isOperatorChar c = false := by
    by_contra hop
    obtain ⟨op, rfl⟩ := Operator.isOperatorChar_iff.mp (by simpa using hop)
    simp at hnum
  rw [repaired, hfilter, htrim, dropOperator, hc, Option.any_some, hoperator,
    if_neg (by decide)]

/-- A tidy text that ends in a digit needs no repair. -/
theorem repaired_eq_self {cs : List Char} (h : Tidy cs)
    (hlast : ∃ c, cs.getLast? = some c ∧ c.isDigit = true) : repaired cs = cs := by
  obtain ⟨c, hc, hdigit⟩ := hlast
  have hpoint := Decimal.ne_point_of_isDigit hdigit
  rw [repaired_eq_completePoint h ⟨c, hc, Decimal.isNumeralChar_of_isDigit hdigit⟩,
    completePoint, hc, if_neg (by simpa using hpoint)]

theorem tidy_toChars (d : Decimal) : Tidy d.toChars where
  chars _ := isExpressionChar_of_mem_toChars
  head := by
    obtain ⟨c, r, hcr, hc⟩ := d.exists_head_magnitudeChars
    rw [Decimal.toChars_eq, hcr, Decimal.signChars]
    split
    · simp
    · rintro h
      obtain rfl : c = ' ' := by simpa using h
      exact absurd hc (by decide)
  last := by
    obtain ⟨c, hc, hdigit⟩ := d.exists_getLast?_toChars
    rw [hc]
    rintro h
    obtain rfl : c = ' ' := by simpa using h
    exact absurd hdigit (by decide)

/-! ## 4. The round trip -/

/-- The value of an operand alone. -/
theorem value?_operand (d : Decimal) : value? ⟨d, []⟩ = some d := Decimal.zero_add? d

/-- A decimal written with all its fraction digits evaluates to itself. -/
theorem evaluateChars_toChars {d : Decimal} (hmark : d.fromBelow = false) :
    evaluateChars d.toChars = some d := by
  have hrepaired : repaired d.toChars = d.toChars :=
    repaired_eq_self (tidy_toChars d) d.exists_getLast?_toChars
  have hspells := spells_toChars hmark
  have hreadable : readable? d.toChars = some d.toChars := by
    have hread : readable? d.toChars = some (repaired d.toChars) :=
      readable?_of_spells (by rwa [hrepaired])
    rwa [hrepaired] at hread
  obtain ⟨ts, hts, he⟩ := tokens_of_spells hspells
  simp [evaluateChars, hreadable, hts, he, value?_operand]

/-- **A rendered decimal evaluates to the normal decimal of its number.** -/
theorem evaluate_render (v : Decimal) : evaluate v.render = some v.normalize := by
  rw [evaluate, Decimal.render, String.toList_ofList]
  exact evaluateChars_toChars v.isNormal_normalize.unmarked

/-- Two decimals are rendered alike exactly when they are the same number. -/
theorem render_eq_render_iff {a b : Decimal} : a.render = b.render ↔ a.toRat = b.toRat := by
  refine ⟨fun h => ?_, Decimal.render_eq_of_toRat_eq⟩
  rw [← Decimal.normalize_eq_normalize_iff]
  exact Option.some.inj ((evaluate_render a).symm.trans (h ▸ evaluate_render b))

/-- **Rendering and evaluating are inverse.** Every rendered decimal evaluates to
the same number, and the rendered value of an expression is not changed by
evaluating and rendering it again. -/
theorem render_roundTrip :
    (∀ v : Decimal, ∃ w, evaluate v.render = some w ∧ w.toRat = v.toRat) ∧
      ∀ (typed : String) (v : Decimal), evaluate typed = some v →
        (evaluate v.render).map Decimal.render = some v.render := by
  refine ⟨fun v => ⟨v.normalize, evaluate_render v, v.toRat_normalize⟩, ?_⟩
  intro typed v _
  rw [evaluate_render, Option.map_some, render_eq_render_iff.mpr v.toRat_normalize]

/-- A negative third, with all the places there are. -/
theorem render_roundTrip_third :
    let v : Decimal := { coeff := -3333333333333333333333333333, scale := 28 }
    evaluate "0-1/3" = some v ∧ (evaluate v.render).map Decimal.render = some v.render :=
  ⟨by decide +kernel, render_roundTrip.2 "0-1/3" _ (by decide +kernel)⟩

end Expression
end CurrencyPad
