/-
CurrencyPad.Text.Utf8 — characters of a sequence of bytes.

`glyphs` reads bytes as UTF-8. Each character gives one glyph; a byte that
starts no character gives a glyph without one, and reading goes on after
it. Overlong forms, surrogates and numbers beyond the last code point are
no characters.
-/

namespace CurrencyPad.Text

/-- A byte that continues a character. -/
def isContinuation (b : Nat) : Bool := decide (0x80 ≤ b ∧ b ≤ 0xBF)

/-- The number of a code point that is a character, with a least value that its
form may have. -/
def scalarChar? (least n : Nat) : Option Char :=
  if least ≤ n ∧ n.isValidChar then some (Char.ofNat n) else none

/-- The characters of bytes, none for a byte that belongs to no character. -/
def glyphs : List Nat → List (Option Char)
  | [] => []
  | a :: r =>
    if a < 0x80 then some (Char.ofNat a) :: glyphs r
    else
      match r with
      | b :: r1 =>
        if 0xC0 ≤ a ∧ a ≤ 0xDF ∧ isContinuation b then
          match scalarChar? 0x80 ((a - 0xC0) * 64 + (b - 0x80)) with
          | some c => some c :: glyphs r1
          | none => none :: glyphs (b :: r1)
        else
          match r1 with
          | c :: r2 =>
            if 0xE0 ≤ a ∧ a ≤ 0xEF ∧ isContinuation b ∧ isContinuation c then
              match scalarChar? 0x800
                  ((a - 0xE0) * 4096 + (b - 0x80) * 64 + (c - 0x80)) with
              | some ch => some ch :: glyphs r2
              | none => none :: glyphs (b :: c :: r2)
            else
              match r2 with
              | d :: r3 =>
                if 0xF0 ≤ a ∧ a ≤ 0xF7 ∧ isContinuation b ∧ isContinuation c ∧
                    isContinuation d then
                  match scalarChar? 0x10000 ((a - 0xF0) * 262144 + (b - 0x80) * 4096 +
                      (c - 0x80) * 64 + (d - 0x80)) with
                  | some ch => some ch :: glyphs r3
                  | none => none :: glyphs (b :: c :: d :: r3)
                else none :: glyphs (b :: c :: d :: r3)
              | [] => none :: glyphs [b, c]
          | [] => none :: glyphs [b]
      | [] => [none]

end CurrencyPad.Text
