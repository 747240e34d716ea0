/-
CurrencyPad.Json.Quoted — the strings of JSON text.

Between its quotes a string is a list of parts: characters, which may be
escaped, UTF-16 units written as `\u` and four hexadecimal digits, and
bytes that belong to no character. `decode` puts two units of a pair
together; a unit that stands alone and a stray byte have no text, which
only matters to a reader that wants it.

`encode` escapes the quote, the backslash and the control characters, and
nothing else.
-/
import CurrencyPad.Text.Digits

namespace CurrencyPad.Json

open Text

/-! ## 1. Parts -/

/-- What stands between the quotes of a string. -/
inductive Part
  | char (c : Char)
  /-- A UTF-16 unit. -/
  | unit (n : Nat)
  /-- A byte that is part of no character. -/
  | stray
deriving DecidableEq

/-- The character of two UTF-16 units. -/
def pairChar (high low : Nat) : Char :=
  Char.ofNat (0x10000 + (high - 0xD800) * 0x400 + (low - 0xDC00))

def isHighUnit (n : Nat) : Bool := decide (0xD800 ≤ n ∧ n ≤ 0xDBFF)

def isLowUnit (n : Nat) : Bool := decide (0xDC00 ≤ n ∧ n ≤ 0xDFFF)

/-- The text of a string's parts, if they have one. -/
def decode : List Part → Option (List Char)
  | [] => some []
  | .char c :: r => (decode r).map (c :: ·)
  | .stray :: _ => none
  | .unit n :: r =>
    if isHighUnit n then
      match r with
      | .unit m :: r => if isLowUnit m then (decode r).map (pairChar n m :: ·) else none
      | _ => none
    else if isLowUnit n then none
    else (decode r).map (Char.ofNat n :: ·)

/-! ## 2. Escapes -/

/-- The character that a backslash and a letter stand for. -/
def escaped? : Char → Option Char
  | '"' => some '"'
  | '\\' => some '\\'
  | '/' => some '/'
  | 'b' => some (Char.ofNat 8)
  | 'f' => some (Char.ofNat 12)
  | 'n' => some '\n'
  | 'r' => some '\r'
  | 't' => some '\t'
  | _ => none

/-- The letter of the escape that a character is written with, if it has one. -/
def escapeLetter? (c : Char) : Option Char :=
  if c = '"' then some '"'
  else if c = '\\' then some '\\'
  else if c = Char.ofNat 8 then some 'b'
  else if c = Char.ofNat 12 then some 'f'
  else if c = '\n' then some 'n'
  else if c = '\r' then some 'r'
  else if c = '\t' then some 't'
  else none

/-- A character between quotes. -/
def encodeChar (c : Char) : List Char :=
  match escapeLetter? c with
  | some e => ['\\', e]
  | none =>
    if c.toNat < 32 then
      ['\\', 'u', '0', '0', Nat.digitChar (c.toNat / 16), Nat.digitChar (c.toNat % 16)]
    else [c]

/-- A text between quotes. -/
def encode (cs : List Char) : List Char := '"' :: cs.flatMap encodeChar ++ ['"']

end CurrencyPad.Json
