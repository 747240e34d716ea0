/-
CurrencyPad.Power — powers of the two bases, two and ten.

`tenTo n` moves a decimal point by `n` places; `power b e` is the same for
any base and for exponents of either sign, as a rational.
-/

namespace CurrencyPad

/-- Ten to the power `n`. -/
def tenTo (n : Nat) : Nat := Nat.pow 10 n

/-- `base` to the power `e`. -/
def power (base : Nat) (e : Int) : Rat :=
  if 0 ≤ e then (Nat.pow base e.toNat : Rat) else 1 / (Nat.pow base (-e).toNat : Rat)

theorem tenTo_zero : tenTo 0 = 1 := rfl

theorem tenTo_succ (n : Nat) : tenTo (n + 1) = tenTo n * 10 := rfl

theorem tenTo_pos (n : Nat) : 0 < tenTo n := Nat.pow_pos (by decide)

end CurrencyPad
