/-
CurrencyPad.Text.Quoted — texts and lists of texts in quotes, for reports.

A text stands between double quotes. Quotes, backslashes and the common
controls have short escapes; characters that are not shown as themselves
are written by number, as in `\u\x7b200b\x7d`. A list stands between
brackets, with a comma and a space between its texts.
-/
import CurrencyPad.Text.LowerCase
import CurrencyPad.Text.Unprintable

namespace CurrencyPad.Text

/-- A character between quotes. -/
def quotedChar (c : Char) : List Char :=
  if c = '"' then ['\\', '"']
  else if c = '\\' then ['\\', '\\']
  else if c = '\n' then ['\\', 'n']
  else if c = '\r' then ['\\', 'r']
  else if c = '\t' then ['\\', 't']
  else if c = Char.ofNat 0 then ['\\', '0']
  else if inRanges unprintableRanges c then
    '\\' :: 'u' :: '\x7b' :: Nat.toDigits 16 c.toNat ++ ['\x7d']
  else [c]

/-- A text between quotes. -/
def quoted (s : String) : String :=
  "\"" ++ String.ofList (s.toList.flatMap quotedChar) ++ "\""

/-- Texts between quotes, in brackets. -/
def quotedList (xs : List String) : String :=
  "[" ++ String.intercalate ", " (xs.map quoted) ++ "]"

end CurrencyPad.Text
