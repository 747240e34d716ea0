/-
CurrencyPad.Text.Blank — white space, trimming, and ASCII letter case.

`isBlank` is the White_Space property of Unicode: a no-break space and an
ideographic space are blank, a zero-width space and a byte-order mark are
not. Codes and tags change the case of ASCII letters only, which is what
the core's case maps on characters do.
-/

namespace CurrencyPad.Text

/-- The White_Space property. -/
def isBlank (c : Char) : Bool :=
  let n := c.toNat
  (0x09 ≤ n && n ≤ 0x0D) || n == 0x20 || n == 0x85 || n == 0xA0 || n == 0x1680 ||
  (0x2000 ≤ n && n ≤ 0x200A) || n == 0x2028 || n == 0x2029 || n == 0x202F ||
  n == 0x205F || n == 0x3000

/-- Without the blanks at the start. -/
def trimStart (cs : List Char) : List Char := cs.dropWhile isBlank

/-- Without the blanks at both ends. -/
def trimChars (cs : List Char) : List Char :=
  (trimStart (trimStart cs).reverse).reverse

/-- Without the blanks at both ends. -/
def trim (s : String) : String := String.ofList (trimChars s.toList)

/-- Without the blanks at both ends, ASCII letters in upper case. -/
def normalizeChars (cs : List Char) : List Char := (trimChars cs).map Char.toUpper

/-- Without the blanks at both ends, ASCII letters in upper case. -/
def normalize (s : String) : String := String.ofList (normalizeChars s.toList)

/-- Equal up to the case of ASCII letters. -/
def sameIgnoringCase (a b : String) : Bool :=
  a.toList.map Char.toLower == b.toList.map Char.toLower

end CurrencyPad.Text
