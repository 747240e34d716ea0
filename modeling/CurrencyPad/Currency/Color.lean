/-
CurrencyPad.Currency.Color — the colour of a currency as four channels.

A colour is written with six or eight hexadecimal digits, the last two of
eight being the opacity; blanks around it and any number of `#` before it
do not count. A channel of 0 to 255 becomes the single-precision number
nearest to that part of one.
-/
import CurrencyPad.Currency.Basic
import CurrencyPad.Binary.Basic
import CurrencyPad.Text.Digits

namespace CurrencyPad

/-- Red, green, blue and opacity, each from 0 to 1. -/
structure Rgba where
  red : Rat
  green : Rat
  blue : Rat
  opacity : Rat
deriving DecidableEq

/-- The channel of two hexadecimal digits. -/
def channel (high low : Nat) : Rat :=
  Binary.single.nearest (((16 * high + low : Nat) : Rat) / 255)

/-- The colour that six or eight hexadecimal digits denote. -/
def Rgba.ofDigits? : List Nat → Option Rgba
  | [r1, r0, g1, g0, b1, b0] => some ⟨channel r1 r0, channel g1 g0, channel b1 b0, 1⟩
  | [r1, r0, g1, g0, b1, b0, a1, a0] =>
    some ⟨channel r1 r0, channel g1 g0, channel b1 b0, channel a1 a0⟩
  | _ => none

/-- The colour that a text denotes. -/
def Rgba.ofText? (text : String) : Option Rgba := do
  ofDigits? (← ((Text.trimChars text.toList).dropWhile (· == '#')).mapM Text.hexValue?)

/-- The colour of a currency. -/
def Currency.rgba? (c : Currency) : Option Rgba := Rgba.ofText? c.color

end CurrencyPad
