/-
CurrencyPad.Rounding — how an exact rational becomes a whole number.

Two rules are used. Arithmetic rounds to the nearest integer and sends a
half to the EVEN neighbour (`toEven`); display rounds to the nearest
integer and sends a half AWAY FROM ZERO (`awayFromZero`). Both leave an
integer as it is and differ from their argument by at most one half.
-/

namespace CurrencyPad.Rounding

/-! ## 1. The two rules -/

/-- The nearest integer; a half goes to the even neighbour. -/
def toEven (x : Rat) : Int :=
  let low := x.floor
  let rest := x - low
  if rest < 1 / 2 then low
  else if 1 / 2 < rest then low + 1
  else if low % 2 = 0 then low
  else low + 1

/-- The nearest integer; a half goes away from zero. -/
def awayFromZero (x : Rat) : Int :=
  if 0 ≤ x then (x + 1 / 2).floor else -(-x + 1 / 2).floor

/-! ## 2. Integers stay as they are -/

@[simp] theorem toEven_intCast (n : Int) : toEven (n : Rat) = n := by
  have h : (n : Rat) - (n : Rat) < 1 / 2 := by rw [Rat.sub_self]; decide +kernel
  rw [toEven, Rat.floor_intCast, if_pos h]

theorem floor_add_half (n : Int) : ((n : Rat) + 1 / 2).floor = n := by
  have low : (n : Rat) ≤ (n : Rat) + 1 / 2 := by
    have := (Rat.add_le_add_left (c := (n : Rat))).2 (show (0 : Rat) ≤ 1 / 2 by decide +kernel)
    rwa [Rat.add_zero] at this
  have high : (n : Rat) + 1 / 2 < ((n + 1 : Int) : Rat) := by
    rw [Rat.intCast_add]
    exact (Rat.add_lt_add_left (c := (n : Rat))).2 (by decide +kernel)
  have atLeast : n ≤ ((n : Rat) + 1 / 2).floor := Rat.le_floor_iff.2 low
  have below : ((n : Rat) + 1 / 2).floor < n + 1 := Rat.floor_lt_iff.2 high
  omega

@[simp] theorem awayFromZero_intCast (n : Int) : awayFromZero (n : Rat) = n := by
  unfold awayFromZero
  split
  · exact floor_add_half n
  · rw [← Rat.intCast_neg, floor_add_half, Int.neg_neg]

end CurrencyPad.Rounding
