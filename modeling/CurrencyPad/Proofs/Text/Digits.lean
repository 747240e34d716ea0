/-
CurrencyPad.Proofs.Text.Digits — numbers and their digits.

A number is read digit by digit, so the digits in front count for more
(`number_append`) and as many digits tell how large it can be
(`number_lt`). A zero in front does not count, and no number is written
with one (`eq_nil_of_digits_eq_cons`).
-/
import Mathlib.Algebra.Order.Ring.Nat
import CurrencyPad.Text.Blank
import CurrencyPad.Text.Digits

namespace CurrencyPad.Text

/-! ## 1. Reading -/

theorem ofDigitChars_cons (c : Char) (cs : List Char) (m : Nat) :
    Nat.ofDigitChars 10 (c :: cs) m = Nat.ofDigitChars 10 cs (10 * m + digitValue c) :=
  Nat.ofDigitChars_cons

/-- More digits never make the number smaller. -/
theorem le_ofDigitChars (cs : List Char) (m : Nat) : m ≤ Nat.ofDigitChars 10 cs m := by
  rw [Nat.ofDigitChars_eq_ofDigitChars_zero]
  have hgrow : m ≤ 10 ^ cs.length * m := Nat.le_mul_of_pos_left m (Nat.pow_pos (by decide))
  omega

theorem number_append (xs ys : List Char) :
    number (xs ++ ys) = 10 ^ ys.length * number xs + number ys := by
  rw [number, Nat.ofDigitChars_append, Nat.ofDigitChars_eq_ofDigitChars_zero]
  rfl

theorem number_cons (c : Char) (r : List Char) :
    number (c :: r) = 10 ^ r.length * digitValue c + number r := by
  rw [number, ofDigitChars_cons, Nat.mul_zero, Nat.zero_add,
    Nat.ofDigitChars_eq_ofDigitChars_zero]
  rfl

theorem digitValue_lt {c : Char} (h : c.isDigit = true) : digitValue c < 10 := by
  have hc : 48 ≤ c.toNat ∧ c.toNat ≤ 57 := by
    simpa [Char.isDigit, UInt32.le_iff_toNat_le] using h
  have : digitValue c = c.toNat - 48 := rfl
  omega

theorem isBlank_of_isDigit {c : Char} (h : c.isDigit = true) : isBlank c = false := by
  have hlow : 48 ≤ c.toNat := Char.isDigit_iff_toNat.mp h |>.1
  have hhigh : c.toNat ≤ 57 := Char.isDigit_iff_toNat.mp h |>.2
  simp [isBlank]
  omega

theorem number_lt {ds : List Char} (h : ∀ c ∈ ds, c.isDigit = true) : number ds < 10 ^ ds.length := by
  induction ds with
  | nil => exact Nat.one_pos
  | cons c r ih =>
    have hrest := ih fun x hx => h x (by simp [hx])
    have hc := digitValue_lt (h c (by simp))
    have hle : 10 ^ r.length * digitValue c ≤ 10 ^ r.length * 9 := Nat.mul_le_mul_left _ (by omega)
    rw [number_cons, List.length_cons, pow_succ]
    omega

theorem number_zero_cons (r : List Char) : number ('0' :: r) = number r := by
  have hzero : digitValue '0' = 0 := rfl
  rw [number_cons, hzero, Nat.mul_zero, Nat.zero_add]

/-! ## 2. Writing -/

/-- Only zero is written with a leading zero. -/
theorem eq_zero_of_head?_digits {n : Nat} (h : (digits n).head? = some '0') : n = 0 := by
  induction n using Nat.strongRecOn with
  | ind n ih =>
    by_cases hn : n < 10
    · rw [digits, Nat.toDigits_of_lt_base hn] at h
      simpa using h
    · have hsplit : digits n = digits (n / 10) ++ [Nat.digitChar (n % 10)] :=
        Nat.toDigits_of_base_le (by decide) (by omega)
      obtain ⟨c, r, hcr⟩ := List.exists_cons_of_ne_nil (digits_ne_nil (n / 10))
      rw [hsplit, hcr] at h
      have := ih (n / 10) (by omega) (by rw [hcr]; exact h)
      omega

/-- Without superfluous leading zeros: a zero in front stands alone. -/
theorem eq_nil_of_digits_eq_cons {n : Nat} {r : List Char} (h : digits n = '0' :: r) :
    r = [] := by
  obtain rfl := eq_zero_of_head?_digits (n := n) (by rw [h]; rfl)
  rw [digits, Nat.toDigits_zero] at h
  simpa using h.symm

end CurrencyPad.Text
