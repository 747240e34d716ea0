/-
CurrencyPad.Timestamp.Text — timestamps as text.

Reading takes a date, a time and an offset from UTC, as in
`2024-01-02T03:04:05.5+02:00`, and is lenient: `t` or a space may stand
for `T`, blanks may stand before a number and around the marks between
numbers, a number may have fewer digits than usual, a year with a sign
may have any number of digits, `Z`, `z` and `UTC` are the zero offset,
the sign of an offset may be U+2212, and blanks or colons may stand
between its hours and minutes. Digits after the ninth of a fraction are
dropped. The result is in UTC.

Writing gives `YYYY-MM-DDTHH:MM:SS`, then as many fraction digits of 0,
3, 6 or 9 as are needed, then `Z`. Years outside 0 to 9999 have a sign.
-/
import CurrencyPad.Timestamp.Basic
import CurrencyPad.Text.Blank
import CurrencyPad.Text.Digits

namespace CurrencyPad.Timestamp

open Text

/-! ## 1. Reading parts -/

/-- Up to `most` digits, at least one, and the text after them. -/
def digits? (most : Nat) (cs : List Char) : Option (Nat × List Char) :=
  let run := (cs.take most).takeWhile Char.isDigit
  if run = [] then none else some (number run, cs.drop run.length)

/-- All digits at the start, at least one, and the text after them. -/
def allDigits? (cs : List Char) : Option (Nat × List Char) :=
  digits? cs.length cs

/-- A year: up to four digits, or a sign and any number of digits. -/
def year? (cs : List Char) : Option (Int × List Char) :=
  match trimStart cs with
  | '-' :: r => (allDigits? r).map fun (n, r) => (-(n : Int), r)
  | '+' :: r => (allDigits? r).map fun (n, r) => ((n : Int), r)
  | r => (digits? 4 r).map fun (n, r) => ((n : Int), r)

/-- A number of one or two digits, after blanks. -/
def twoDigits? (cs : List Char) : Option (Nat × List Char) := digits? 2 (trimStart cs)

/-- A mark, after blanks. -/
def mark? (c : Char) (cs : List Char) : Option (List Char) :=
  match trimStart cs with
  | d :: r => if d = c then some r else none
  | [] => none

/-- The mark between a date and a time. -/
def separator? : List Char → Option (List Char)
  | 't' :: r | 'T' :: r | ' ' :: r => some r
  | _ => none

/-- Nanoseconds after the seconds: a point and digits, or nothing. -/
def nanoseconds? : List Char → Option (Nat × List Char)
  | '.' :: r => do
    let (n, rest) ← digits? 9 r
    let read := r.length - rest.length
    return (n * tenTo (9 - read), rest.dropWhile Char.isDigit)
  | r => some (0, r)

/-- Exactly two digits at the start. -/
def pair? : List Char → Option (Nat × List Char)
  | a :: b :: r =>
    if a.isDigit && b.isDigit then some (10 * digitValue a + digitValue b, r) else none
  | _ => none

/-- An offset in minutes with the given sign. -/
def signedOffset? (sign : Int) (cs : List Char) : Option (Int × List Char) := do
  let (hours, r) ← pair? cs
  let (minutes, r) ← pair? (r.dropWhile fun c => c == ':' || isBlank c)
  if minutes ≤ 59 ∧ hours ≤ 23 then
    return (sign * (60 * hours + minutes : Nat), r)
  else none

/-- An offset from UTC in minutes. -/
def offset? (cs : List Char) : Option (Int × List Char) :=
  match cs with
  | 'Z' :: r | 'z' :: r => some (0, r)
  | '+' :: r => signedOffset? 1 r
  | '-' :: r | '−' :: r => signedOffset? (-1) r
  | a :: b :: c :: r =>
    if [a, b, c].map Char.toUpper = ['U', 'T', 'C'] then some (0, r) else none
  | _ => none

/-! ## 2. Reading -/

/-- A date, a time and an offset, as a time in UTC. -/
def ofChars? (cs : List Char) : Option Timestamp := do
  let (year, r) ← year? cs
  let r ← mark? '-' r
  let (month, r) ← twoDigits? r
  let r ← mark? '-' r
  let (day, r) ← twoDigits? r
  let r ← separator? r
  let (hour, r) ← twoDigits? r
  let r ← mark? ':' r
  let (minute, r) ← twoDigits? r
  let r ← mark? ':' r
  let (second, r) ← twoDigits? r
  let (nanosecond, r) ← nanoseconds? r
  let (offset, r) ← offset? (trimStart r)
  let t : Timestamp := ⟨year, month, day, hour, minute, second, nanosecond⟩
  let utc := t.addMinutes (-offset)
  if t.isValid ∧ isYear utc.year ∧ trimStart r = [] then return utc else none

/-- A date, a time and an offset, as a time in UTC. -/
def ofText? (text : String) : Option Timestamp := ofChars? text.toList

/-! ## 3. Writing -/

/-- A year: four digits, or a sign and at least four digits outside 0 to 9999. -/
def yearChars (year : Int) : List Char :=
  let n := year.natAbs
  let shown := if n < 10000 then padded 4 n else digits n
  if year < 0 then '-' :: shown else if 9999 < year then '+' :: shown else shown

/-- A fraction of a second, as short as 0, 3, 6 or 9 digits allow. -/
def fractionChars (nanosecond : Nat) : List Char :=
  if nanosecond = 0 then []
  else if nanosecond % 1000000 = 0 then '.' :: padded 3 (nanosecond / 1000000)
  else if nanosecond % 1000 = 0 then '.' :: padded 6 (nanosecond / 1000)
  else '.' :: padded 9 nanosecond

/-- The date and time, ending in `Z`. -/
def toChars (t : Timestamp) : List Char :=
  yearChars t.year ++ '-' :: padded 2 t.month ++ '-' :: padded 2 t.day ++
  'T' :: padded 2 t.hour ++ ':' :: padded 2 t.minute ++ ':' :: padded 2 t.second ++
  fractionChars t.nanosecond ++ ['Z']

/-- The date and time, ending in `Z`. -/
def text (t : Timestamp) : String := String.ofList t.toChars

end CurrencyPad.Timestamp
