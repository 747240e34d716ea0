/-
CurrencyPad.Proofs.Decimal.Literal — what a literal looks like.

A text that reads as a literal consists of digits and at most one point,
and has a digit (`shape_of_ofLiteral?`). This much does not depend on the
bounds of the decimals: a text of that shape can still be refused, when
its whole part is too large. What is read has no sign
(`unsigned_of_ofLiteral?`).
-/
import CurrencyPad.Decimal.Numeral

namespace CurrencyPad.Decimal

/-! ## 1. Its characters -/

/-- Digits and at most one point, with a digit among them. -/
structure LiteralShape (cs : List Char) : Prop where
  numeral : ∀ c ∈ cs, isNumeralChar c = true
  point : cs.count '.' ≤ 1
  digit : ∃ c ∈ cs, c.isDigit = true

instance (cs : List Char) : Decidable (LiteralShape cs) :=
  decidable_of_iff (cs.all isNumeralChar = true ∧ cs.count '.' ≤ 1 ∧ cs.any Char.isDigit = true)
    ⟨fun ⟨numeral, point, digit⟩ =>
        ⟨List.all_eq_true.mp numeral, point, List.any_eq_true.mp digit⟩,
      fun ⟨numeral, point, digit⟩ =>
        ⟨List.all_eq_true.mpr numeral, point, List.any_eq_true.mpr digit⟩⟩

theorem isNumeralChar_of_isDigit {c : Char} (h : c.isDigit = true) :
    isNumeralChar c = true := by
  simp [isNumeralChar, h]

theorem ne_point_of_isDigit {c : Char} (h : c.isDigit = true) : c ≠ '.' := by
  rintro rfl
  exact absurd h (by decide)

/-- Digits contain no point. -/
theorem count_point_digits {cs : List Char} (h : ∀ c ∈ cs, c.isDigit = true) :
    cs.count '.' = 0 :=
  List.count_eq_zero.mpr fun hp => ne_point_of_isDigit (h '.' hp) rfl

/-- After the point there are digits only, wherever the reading stops. -/
theorem isDigit_of_readFraction {m s : Nat} {cs : List Char} {d : Decimal}
    (h : readFraction m s cs = some d) : ∀ c ∈ cs, c.isDigit = true := by
  induction cs generalizing m s with
  | nil => simp
  | cons c r ih =>
    rw [readFraction] at h
    split at h
    · rename_i hc
      dsimp only at h
      split at h
      · simpa [hc] using ih h
      · split at h
        · rename_i hr
          simpa [hc] using hr
        · simp at h
    · simp at h

theorem shape_of_readWhole {m : Nat} {cs : List Char} {d : Decimal}
    (h : readWhole m cs = some d) :
    (∀ c ∈ cs, isNumeralChar c = true) ∧ cs.count '.' ≤ 1 := by
  induction cs generalizing m with
  | nil => simp
  | cons c r ih =>
    rw [readWhole] at h
    split at h
    · -- the point: what follows are digits
      rename_i hc
      subst hc
      have hr := isDigit_of_readFraction h
      refine ⟨?_, ?_⟩
      · intro x hx
        rcases List.mem_cons.mp hx with rfl | hx
        · rfl
        · exact isNumeralChar_of_isDigit (hr x hx)
      · simp [count_point_digits hr]
    · split at h
      · rename_i hp hc
        dsimp only at h
        split at h
        · obtain ⟨hnum, hcount⟩ := ih h
          refine ⟨?_, ?_⟩
          · intro x hx
            rcases List.mem_cons.mp hx with rfl | hx
            · exact isNumeralChar_of_isDigit hc
            · exact hnum x hx
          · simpa [List.count_cons, hp] using hcount
        · simp at h
      · simp at h

/-- A zero at the end is all that `withFraction` adds. -/
theorem exists_withFraction_eq (cs : List Char) : ∃ zero, withFraction cs = cs ++ zero := by
  rw [withFraction]
  split
  · exact ⟨['0'], rfl⟩
  · exact ⟨[], (List.append_nil cs).symm⟩

/-- A text that is read as a literal has the shape of one. -/
theorem shape_of_ofLiteral? {cs : List Char} {d : Decimal}
    (h : ofLiteral? cs = some d) : LiteralShape cs := by
  rw [ofLiteral?] at h
  split at h
  · rename_i hany
    obtain ⟨hnum, hcount⟩ := shape_of_readWhole h
    obtain ⟨zero, hzero⟩ := exists_withFraction_eq cs
    rw [hzero] at hnum hcount
    rw [List.count_append] at hcount
    exact ⟨fun c hc => hnum c (List.mem_append_left _ hc), by omega, by simpa using hany⟩
  · simp at h

/-! ## 2. Its value has no sign -/

/-- Neither below zero nor a zero that was below it. -/
def Unsigned (d : Decimal) : Prop := d.isNegative = false ∧ d.fromBelow = false

theorem unsigned_of_ofParts? {m s : Nat} {d : Decimal} (h : ofParts? (m : Nat) s = some d) :
    Unsigned d := by
  rw [ofParts?] at h
  split at h
  · obtain rfl := Option.some.inj h
    exact ⟨by simp [isNegative], rfl⟩
  · simp at h

theorem unsigned_of_carried {up : Bool} {m s : Nat} {d : Decimal}
    (h : carried up m s = some d) : Unsigned d := by
  rw [carried] at h
  split at h
  · split at h
    · exact unsigned_of_ofParts? h
    · split at h
      · simp at h
      · exact unsigned_of_ofParts? h
  · exact unsigned_of_ofParts? h

theorem unsigned_of_readFraction {m s : Nat} {cs : List Char} {d : Decimal}
    (h : readFraction m s cs = some d) : Unsigned d := by
  induction cs generalizing m s with
  | nil => exact unsigned_of_ofParts? h
  | cons c r ih =>
    rw [readFraction] at h
    split at h
    · dsimp only at h
      split at h
      · exact ih h
      · split at h
        · exact unsigned_of_carried h
        · simp at h
    · simp at h

theorem unsigned_of_readWhole {m : Nat} {cs : List Char} {d : Decimal}
    (h : readWhole m cs = some d) : Unsigned d := by
  induction cs generalizing m with
  | nil => exact unsigned_of_ofParts? h
  | cons c r ih =>
    rw [readWhole] at h
    split at h
    · exact unsigned_of_readFraction h
    · split at h
      · dsimp only at h
        split at h
        · exact ih h
        · simp at h
      · simp at h

/-- A literal stands for a number without a sign. -/
theorem unsigned_of_ofLiteral? {cs : List Char} {d : Decimal} (h : ofLiteral? cs = some d) :
    Unsigned d := by
  rw [ofLiteral?] at h
  split at h
  · exact unsigned_of_readWhole h
  · simp at h

end CurrencyPad.Decimal
