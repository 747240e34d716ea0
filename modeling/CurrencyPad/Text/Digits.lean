/-
CurrencyPad.Text.Digits — decimal digits as text.

`number` reads digits, `digits` writes a number without leading zeros, and
`padded` writes the last few digits of a number at a fixed width, which
is how the digits after a point are written. Reading what was written
gives the number back (`number_digits`, `number_padded`). `groups` puts a
mark between groups of three.
-/
import CurrencyPad.Power

namespace CurrencyPad.Text

/-! ## 1. Single digits -/

/-- The value of a digit character. -/
def digitValue (c : Char) : Nat := c.toNat - '0'.toNat

/-- The value of a hexadecimal digit. -/
def hexValue? (c : Char) : Option Nat :=
  if c.isDigit then some (digitValue c)
  else if 'a' ≤ c ∧ c ≤ 'f' then some (c.toNat - 'a'.toNat + 10)
  else if 'A' ≤ c ∧ c ≤ 'F' then some (c.toNat - 'A'.toNat + 10)
  else none

/-- Either letter that introduces a power of ten. -/
def isExponentMark (c : Char) : Bool := c == 'e' || c == 'E'

/-! ## 2. Numbers -/

/-- The number that a list of digits denotes. -/
def number (cs : List Char) : Nat := Nat.ofDigitChars 10 cs 0

/-- A number in base ten, without leading zeros. -/
def digits (n : Nat) : List Char := Nat.toDigits 10 n

/-- The last `width` digits of a number, with leading zeros. -/
def padded : (width : Nat) → Nat → List Char
  | 0, _ => []
  | w + 1, n => padded w (n / 10) ++ [Nat.digitChar (n % 10)]

/-- The digits with a mark between groups of three, counted from the right. -/
def groups (mark : List Char) : List Char → List Char
  | [] => []
  | [c] => [c]
  | c :: r => if r.length % 3 = 0 then c :: mark ++ groups mark r else c :: groups mark r

/-! ## 3. Reading what was written -/

theorem number_digits (n : Nat) : number (digits n) = n := Nat.ofDigitChars_ten_toDigits

theorem isDigit_of_mem_digits {n : Nat} {c : Char} (h : c ∈ digits n) : c.isDigit = true :=
  Nat.isDigit_of_mem_toDigits (by decide) (by decide) h

theorem digits_ne_nil (n : Nat) : digits n ≠ [] := Nat.toDigits_ne_nil

@[simp] theorem length_padded (w n : Nat) : (padded w n).length = w := by
  induction w generalizing n with
  | zero => rfl
  | succ w ih => simp [padded, ih]

theorem isDigit_digitChar {d : Nat} (h : d < 10) : (Nat.digitChar d).isDigit = true := by
  have : ∀ d < 10, (Nat.digitChar d).isDigit = true := by decide
  exact this d h

theorem isDigit_of_mem_padded {w n : Nat} {c : Char} (h : c ∈ padded w n) :
    c.isDigit = true := by
  induction w generalizing n with
  | zero => simp [padded] at h
  | succ w ih =>
    rcases List.mem_append.1 h with h | h
    · exact ih h
    · rw [List.mem_singleton.1 h]
      exact isDigit_digitChar (Nat.mod_lt n (by decide))

theorem number_padded (w n : Nat) : number (padded w n) = n % tenTo w := by
  induction w generalizing n with
  | zero => simp [padded, number, tenTo, Nat.mod_one]
  | succ w ih =>
    have hlast : (Nat.digitChar (n % 10)).toNat - '0'.toNat = n % 10 :=
      Nat.toNat_digitChar_sub_48_of_lt_ten (Nat.mod_lt n (by decide))
    rw [tenTo_succ, Nat.mul_comm, Nat.mod_mul, ← ih (n / 10), number, padded,
      Nat.ofDigitChars_append, Nat.ofDigitChars_cons, Nat.ofDigitChars_nil, hlast, number]
    omega

end CurrencyPad.Text
