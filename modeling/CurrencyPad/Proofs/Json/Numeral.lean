/-
CurrencyPad.Proofs.Json.Numeral — a numeral is read from its text.

A numeral keeps its digits, so its text says all that there is to it. It
is read back when it has the form of a JSON number (`WellFormed`). The
numerals that are written have it: integers, and doubles in all the
notations that are chosen for them.
-/
import Mathlib.Data.List.TakeWhile
import CurrencyPad.Proofs.Decimal.Rendering
import CurrencyPad.Proofs.Json.Lexing

namespace CurrencyPad.Json.Numeral

open Text

/-! ## 1. The form of a number -/

structure WellFormed (n : Numeral) : Prop where
  whole : isWhole n.whole = true
  fraction : ∀ c ∈ n.fraction, c.isDigit = true
  exponent : n.exponent = [] ∨ isExponent n.exponent = true

theorem isDigit_of_isWhole {ds : List Char} (h : isWhole ds = true) :
    ∀ c ∈ ds, c.isDigit = true := by
  unfold isWhole at h
  split at h
  · cases h
  · exact List.forall_mem_singleton.mpr rfl
  · cases h
  · simpa using h

theorem ne_nil_of_isWhole {ds : List Char} (h : isWhole ds = true) : ds ≠ [] := by
  rintro rfl
  cases h

theorem isWhole_cons {c : Char} {r : List Char} (hdigits : ∀ x ∈ c :: r, x.isDigit = true)
    (hzero : c = '0' → r = []) : isWhole (c :: r) = true := by
  unfold isWhole
  split
  · contradiction
  · rfl
  · rename_i hne heq
    obtain ⟨rfl, rfl⟩ := List.cons.inj heq
    exact absurd (hzero rfl) hne
  · simpa using hdigits

theorem isWhole_digits (n : Nat) : isWhole (digits n) = true := by
  obtain ⟨c, r, hcr⟩ := List.exists_cons_of_ne_nil (digits_ne_nil n)
  rw [hcr]
  refine isWhole_cons (fun x hx => isDigit_of_mem_digits (hcr ▸ hx)) ?_
  rintro rfl
  exact eq_nil_of_digits_eq_cons hcr

/-! ## 2. Reading what was written -/

theorem splitAt_of_forall {p : Char → Bool} {cs : List Char} (h : ∀ c ∈ cs, p c = false) :
    splitAt p cs = (cs, none) := by
  have hkeep : ∀ c ∈ cs, (!p c) = true := by simpa using h
  have hdrop : cs.dropWhile (!p ·) = [] := List.dropWhile_eq_nil_iff.mpr hkeep
  have htake : cs.takeWhile (!p ·) = cs := List.takeWhile_eq_self_iff.mpr hkeep
  rw [splitAt, hdrop, htake]

theorem splitAt_append {p : Char → Bool} {cs : List Char} (h : ∀ c ∈ cs, p c = false)
    {c : Char} (hc : p c = true) (r : List Char) : splitAt p (cs ++ c :: r) = (cs, some r) := by
  have hdrop : (cs ++ c :: r).dropWhile (!p ·) = c :: r := by
    rw [List.dropWhile_append_of_pos (by simpa using h)]
    simp [hc]
  have htake : (cs ++ c :: r).takeWhile (!p ·) = cs := by
    rw [List.takeWhile_append_of_pos (by simpa using h)]
    simp [hc]
  rw [splitAt, hdrop, htake]

theorem not_isExponentMark_of_isDigit {c : Char} (h : c.isDigit = true) :
    isExponentMark c = false := by
  simp only [isExponentMark, Bool.or_eq_false_iff, beq_eq_false_iff_ne]
  constructor <;> (rintro rfl; exact absurd h (by decide))

theorem ne_point_of_isDigit {c : Char} (h : c.isDigit = true) : (c == '.') = false := by
  rw [beq_eq_false_iff_ne]
  rintro rfl
  exact absurd h (by decide)

/-- The text before the exponent mark. -/
def mantissaChars (n : Numeral) : List Char :=
  n.whole ++ (if n.fraction = [] then [] else '.' :: n.fraction)

/-- The text without the sign. -/
def unsignedChars (n : Numeral) : List Char :=
  n.mantissaChars ++ (if n.exponent = [] then [] else 'e' :: n.exponent)

theorem chars_eq (n : Numeral) :
    n.chars = (if n.negative then ['-'] else []) ++ n.unsignedChars := by
  simp [chars, unsignedChars, mantissaChars]

theorem WellFormed.splitAt_point {n : Numeral} (h : n.WellFormed) :
    splitAt (· == '.') n.mantissaChars =
      (n.whole, if n.fraction = [] then none else some n.fraction) := by
  have hwhole : ∀ c ∈ n.whole, (c == '.') = false := fun c hc =>
    ne_point_of_isDigit (isDigit_of_isWhole h.whole c hc)
  rw [mantissaChars]
  split
  · rw [List.append_nil, splitAt_of_forall hwhole]
  · rw [splitAt_append hwhole rfl]

theorem WellFormed.splitAt_mark {n : Numeral} (h : n.WellFormed) :
    splitAt isExponentMark n.unsignedChars =
      (n.mantissaChars, if n.exponent = [] then none else some n.exponent) := by
  have hmantissa : ∀ c ∈ n.mantissaChars, isExponentMark c = false := by
    intro c hc
    rw [mantissaChars, List.mem_append] at hc
    rcases hc with hc | hc
    · exact not_isExponentMark_of_isDigit (isDigit_of_isWhole h.whole c hc)
    · split at hc
      · cases hc
      · rcases List.mem_cons.mp hc with rfl | hc
        · rfl
        · exact not_isExponentMark_of_isDigit (h.fraction c hc)
  rw [unsignedChars]
  split
  · rw [List.append_nil, splitAt_of_forall hmantissa]
  · rw [splitAt_append hmantissa rfl]

/-- Without its sign a numeral is read from its text. -/
theorem WellFormed.ofUnsigned?_unsignedChars {n : Numeral} (h : n.WellFormed) (negative : Bool) :
    ofUnsigned? negative n.unsignedChars = some { n with negative } := by
  have hexponent : ∀ e ∈ (if n.exponent = [] then none else some n.exponent),
      isExponent e = true := by
    intro e he
    split at he
    · cases he
    · rename_i hne
      obtain rfl : n.exponent = e := by simpa using he
      exact h.exponent.resolve_left hne
  have hfraction : ∀ f ∈ (if n.fraction = [] then none else some n.fraction),
      f ≠ [] ∧ f.all Char.isDigit = true := by
    intro f hf
    split at hf
    · cases hf
    · rename_i hne
      obtain rfl : n.fraction = f := by simpa using hf
      exact ⟨hne, by simpa using h.fraction⟩
  simp only [ofUnsigned?, h.splitAt_mark, h.splitAt_point]
  rw [if_pos ⟨h.whole, hexponent, hfraction⟩]
  cases n
  simp only [Option.some.injEq, Numeral.mk.injEq, true_and]
  constructor <;> (split <;> simp_all)

/-- **A numeral is read from its text.** -/
theorem WellFormed.ofChars?_chars {n : Numeral} (h : n.WellFormed) : ofChars? n.chars = some n := by
  have hread : ofUnsigned? n.negative n.unsignedChars = some n :=
    h.ofUnsigned?_unsignedChars n.negative
  rw [chars_eq]
  cases hsign : n.negative with
  | true =>
    rw [hsign] at hread
    exact hread
  | false =>
    rw [hsign] at hread
    obtain ⟨c, r, hcr⟩ := List.exists_cons_of_ne_nil (ne_nil_of_isWhole h.whole)
    have hc : c ≠ '-' := by
      rintro rfl
      exact absurd (isDigit_of_isWhole h.whole '-' (by simp [hcr])) (by decide)
    have hhead : n.unsignedChars.head? = some c := by simp [unsignedChars, mantissaChars, hcr]
    rw [if_neg (by decide), List.nil_append, ofChars?]
    · exact hread
    · intro r' hr'
      rw [hr'] at hhead
      exact hc (by simpa using hhead.symm)

theorem isWordChar_of_isDigit {c : Char} (h : c.isDigit = true) : isWordChar c = true := by
  simp [isWordChar, Char.isAlphanum, h]

theorem isWordChar_of_isExponent {cs : List Char} (h : isExponent cs = true) :
    ∀ c ∈ cs, isWordChar c = true := by
  intro c hc
  simp only [isExponent, Bool.and_eq_true, List.all_eq_true] at h
  split at h
  · rcases List.mem_cons.mp hc with rfl | hc
    · rfl
    · exact isWordChar_of_isDigit (h.2 c hc)
  · rcases List.mem_cons.mp hc with rfl | hc
    · rfl
    · exact isWordChar_of_isDigit (h.2 c hc)
  · exact isWordChar_of_isDigit (h.2 c hc)

/-- The text of a numeral is one word. -/
theorem WellFormed.isWordChar_of_mem_chars {n : Numeral} (h : n.WellFormed) :
    ∀ c ∈ n.chars, isWordChar c = true := by
  intro c hc
  simp only [chars, List.mem_append] at hc
  rcases hc with ((hc | hc) | hc) | hc
  · split at hc
    · obtain rfl : c = '-' := by simpa using hc
      rfl
    · cases hc
  · exact isWordChar_of_isDigit (isDigit_of_isWhole h.whole c hc)
  · split at hc
    · cases hc
    · rcases List.mem_cons.mp hc with rfl | hc
      · rfl
      · exact isWordChar_of_isDigit (h.fraction c hc)
  · split at hc
    · cases hc
    · rename_i hne
      rcases List.mem_cons.mp hc with rfl | hc
      · rfl
      · exact isWordChar_of_isExponent (h.exponent.resolve_left hne) c hc

theorem WellFormed.legible {n : Numeral} (h : n.WellFormed) : Scalar.Legible (.number n) :=
  ⟨h.ofChars?_chars, h.isWordChar_of_mem_chars⟩

/-! ## 3. The numerals that are written -/

theorem wellFormed_ofInt (n : Int) : (ofInt n).WellFormed :=
  ⟨isWhole_digits _, by simp [ofInt], .inl rfl⟩

theorem wellFormed_negativeZero : negativeZero.WellFormed :=
  ⟨rfl, List.forall_mem_singleton.mpr rfl, .inl rfl⟩

theorem wellFormed_ofSpelling (negative : Bool) (s : Binary.Spelling) :
    (ofSpelling negative s).WellFormed := by
  simp only [ofSpelling]
  split
  · split
    · exact ⟨isWhole_digits _, by simp, .inl rfl⟩
    · exact ⟨isWhole_digits _, fun c hc => isDigit_of_mem_padded hc, .inl rfl⟩
  · obtain ⟨c, r, hcr⟩ := List.exists_cons_of_ne_nil (digits_ne_nil s.coeff)
    have hdigits : ∀ x ∈ c :: r, x.isDigit = true := fun x hx => isDigit_of_mem_digits (hcr ▸ hx)
    refine ⟨?_, ?_, .inr ?_⟩
    · have hc : isWhole [c] = true :=
        isWhole_cons (by simpa using hdigits c (by simp)) fun _ => rfl
      simpa [hcr] using hc
    · intro x hx
      exact hdigits x (hcr ▸ List.mem_of_mem_drop hx)
    · have hall (n : Nat) : ∀ x ∈ digits n, x.isDigit = true := fun x => isDigit_of_mem_digits
      split <;> simpa [isExponent, digits_ne_nil] using hall _

/-- **The numeral of a double** has the form of a number. -/
theorem wellFormed_ofDouble (x : Rat) : (ofDouble x).WellFormed := by
  rw [ofDouble]
  split
  · exact ⟨rfl, List.forall_mem_singleton.mpr rfl, .inl rfl⟩
  · split
    · exact wellFormed_ofSpelling _ _
    · exact wellFormed_ofSpelling _ _

/-- A double is not written like an integer. -/
theorem integer?_ofDouble (x : Rat) : (ofDouble x).integer? = none := by
  have hspelling (negative : Bool) (s : Binary.Spelling) :
      (ofSpelling negative s).integer? = none := by
    rw [integer?, if_neg]
    simp only [ofSpelling]
    split
    · split
      · simp
      · rename_i hexponent
        have hlength := length_padded (-s.exponent).toNat (s.coeff % tenTo (-s.exponent).toNat)
        rintro ⟨hnil, -⟩
        dsimp only at hnil
        rw [hnil, List.length_nil] at hlength
        omega
    · simp
  rw [ofDouble]
  split
  · rfl
  · split
    · exact hspelling _ _
    · exact hspelling _ _

end CurrencyPad.Json.Numeral
