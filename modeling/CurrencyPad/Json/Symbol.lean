/-
CurrencyPad.Json.Symbol — cutting JSON text into symbols.

The symbols are the six marks and the scalars: strings, numbers and the
three literals. `lex?` walks the text once with a small state (`Mode`);
a run of letters, digits, signs and points is one word, which must be a
number or a literal.

The text is a list of glyphs: characters, or nothing for a byte that is
part of no character. Such a byte may only stand inside a string.
-/
import CurrencyPad.Json.Numeral
import CurrencyPad.Json.Quoted

namespace CurrencyPad.Json

open Text

/-! ## 1. Symbols -/

/-- A value without parts. A string may have no text. -/
inductive Scalar
  | null
  | bool (b : Bool)
  | number (n : Numeral)
  | string (text : Option String)
deriving DecidableEq

/-- What JSON text is made of. -/
inductive Symbol
  | beginObject
  | endObject
  | beginArray
  | endArray
  | colon
  | comma
  | scalar (s : Scalar)
deriving DecidableEq

/-- A character, or a byte that is part of none. -/
abbrev Glyph := Option Char

/-- The scalar that a word spells. -/
def Scalar.ofWord? (w : List Char) : Option Scalar :=
  if w = "null".toList then some .null
  else if w = "true".toList then some (.bool true)
  else if w = "false".toList then some (.bool false)
  else (Numeral.ofChars? w).map .number

/-- The scalar of a string's parts. -/
def Scalar.ofParts (parts : List Part) : Scalar := .string ((decode parts).map String.ofList)

/-! ## 2. Lexing -/

/-- Where in the text one is. What was read of a word or string is kept in
reverse. -/
inductive Mode
  | between
  | word (seen : List Char)
  | string (seen : List Part)
  /-- After a backslash. -/
  | escape (seen : List Part)
  /-- Within the digits of a UTF-16 unit, of which some are left. -/
  | unit (seen : List Part) (value left : Nat)

/-- The four blanks of JSON. -/
def isGap (c : Char) : Bool := c == ' ' || c == '\t' || c == '\n' || c == '\r'

/-- The characters of numbers and literals. -/
def isWordChar (c : Char) : Bool := c.isAlphanum || c == '+' || c == '-' || c == '.'

/-- What a character between symbols gives, and what it begins. -/
def begin? (c : Char) : Option (List Symbol × Mode) :=
  match c with
  | '\x7b' => some ([.beginObject], .between)
  | '\x7d' => some ([.endObject], .between)
  | '[' => some ([.beginArray], .between)
  | ']' => some ([.endArray], .between)
  | ':' => some ([.colon], .between)
  | ',' => some ([.comma], .between)
  | '"' => some ([], .string [])
  | c => if isGap c then some ([], .between)
         else if isWordChar c then some ([], .word [c])
         else none

/-- What one more glyph gives. -/
def step? : Mode → Glyph → Option (List Symbol × Mode)
  | .between, some c => begin? c
  | .word seen, some c =>
    if isWordChar c then some ([], .word (c :: seen))
    else do
      let s ← Scalar.ofWord? seen.reverse
      let (rest, mode) ← begin? c
      return (.scalar s :: rest, mode)
  | .string seen, some c =>
    if c = '"' then some ([.scalar (.ofParts seen.reverse)], .between)
    else if c = '\\' then some ([], .escape seen)
    else if c.toNat < 32 then none
    else some ([], .string (.char c :: seen))
  | .string seen, none => some ([], .string (.stray :: seen))
  | .escape seen, some c =>
    if c = 'u' then some ([], .unit seen 0 4)
    else (escaped? c).map fun d => ([], .string (.char d :: seen))
  | .unit seen value left, some c => do
    let value := 16 * value + (← hexValue? c)
    if left ≤ 1 then return ([], .string (.unit value :: seen))
    else return ([], .unit seen value (left - 1))
  | _, none => none

/-- What the end of the text gives. -/
def finish? : Mode → Option (List Symbol)
  | .between => some []
  | .word seen => (Scalar.ofWord? seen.reverse).map fun s => [.scalar s]
  | _ => none

/-- The symbols of a text, read on from some mode. -/
def lexFrom? (mode : Mode) : List Glyph → Option (List Symbol)
  | [] => finish? mode
  | g :: r => do
    let (out, mode) ← step? mode g
    return out ++ (← lexFrom? mode r)

/-- The symbols of a text. -/
def lex? (text : List Glyph) : Option (List Symbol) := lexFrom? .between text

/-! ## 3. Writing -/

/-- The text of a scalar. A string without text is written as an empty one. -/
def Scalar.chars : Scalar → List Char
  | .null => "null".toList
  | .bool true => "true".toList
  | .bool false => "false".toList
  | .number n => n.chars
  | .string s => encode (s.getD "").toList

/-- The text of a symbol. -/
def Symbol.chars : Symbol → List Char
  | .beginObject => ['\x7b']
  | .endObject => ['\x7d']
  | .beginArray => ['[']
  | .endArray => [']']
  | .colon => [':']
  | .comma => [',']
  | .scalar s => s.chars

end CurrencyPad.Json
