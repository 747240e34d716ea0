/-
CurrencyPad.Json.Value — JSON values, read from symbols and written.

A value is a scalar, an array, or an object whose members keep their order
and their repetitions. `ofSymbols?` builds it with a list of the
containers that are still open, so that no depth of nesting is too great.
`parse?` reads a text, `render` writes one without blanks.
-/
import CurrencyPad.Json.Symbol

namespace CurrencyPad

/-! ## 1. Values -/

/-- A JSON value. The name of a member is none when it has no text. -/
inductive Json
  | scalar (s : Json.Scalar)
  | array (items : List Json)
  | object (members : List (Option String × Json))

namespace Json

/-- The name of a member and its value. -/
abbrev Member := Option String × Json

def null : Json := .scalar .null
def bool (b : Bool) : Json := .scalar (.bool b)
def number (n : Numeral) : Json := .scalar (.number n)
def string (s : String) : Json := .scalar (.string (some s))

/-- An object with these members. -/
def ofFields (fields : List (String × Json)) : Json :=
  .object (fields.map fun (name, value) => (some name, value))

/-! ## 2. Building from symbols -/

/-- A container that is open while one of its values is read. What it holds so
far is in reverse. -/
inductive Frame
  | array (items : List Json)
  | object (members : List Member) (name : Option String)

/-- What may come next. -/
inductive Expect
  | value
  /-- The first item of an array, or its end. -/
  | firstItem
  /-- The name of a member; at first also the end of the object. -/
  | name (members : List Member) (first : Bool)
  /-- The colon after a name. -/
  | colon (members : List Member) (name : Option String)
  /-- A value is complete. -/
  | after (value : Json)

/-- The containers that are open, the innermost first, and what may come next. -/
structure Builder where
  stack : List Frame := []
  expect : Expect := .value

/-- Reads the first symbol of a value. -/
def Builder.value? (stack : List Frame) : Symbol → Option Builder
  | .beginArray => some ⟨.array [] :: stack, .firstItem⟩
  | .beginObject => some ⟨stack, .name [] true⟩
  | .scalar s => some ⟨stack, .after (.scalar s)⟩
  | _ => none

/-- Reads what follows a complete value. -/
def Builder.after? (v : Json) : List Frame → Symbol → Option Builder
  | .array items :: stack, .comma => some ⟨.array (v :: items) :: stack, .value⟩
  | .array items :: stack, .endArray => some ⟨stack, .after (.array (v :: items).reverse)⟩
  | .object members name :: stack, .comma => some ⟨stack, .name ((name, v) :: members) false⟩
  | .object members name :: stack, .endObject =>
    some ⟨stack, .after (.object ((name, v) :: members).reverse)⟩
  | _, _ => none

/-- Reads one more symbol. -/
def Builder.push? (b : Builder) (symbol : Symbol) : Option Builder :=
  match b.expect with
  | .value => value? b.stack symbol
  | .firstItem =>
    match b.stack, symbol with
    | .array [] :: stack, .endArray => some ⟨stack, .after (.array [])⟩
    | stack, symbol => value? stack symbol
  | .name members first =>
    match symbol with
    | .scalar (.string name) => some ⟨b.stack, .colon members name⟩
    | .endObject => if first then some ⟨b.stack, .after (.object [])⟩ else none
    | _ => none
  | .colon members name =>
    match symbol with
    | .colon => some ⟨.object members name :: b.stack, .value⟩
    | _ => none
  | .after v => after? v b.stack symbol

/-- The value, when exactly one is complete. -/
def Builder.result? (b : Builder) : Option Json :=
  match b.stack, b.expect with
  | [], .after v => some v
  | _, _ => none

/-- The value that a list of symbols spells. -/
def ofSymbols? (symbols : List Symbol) : Option Json := do
  let b ← symbols.foldlM Builder.push? {}
  b.result?

/-- The value of a text. -/
def parseGlyphs? (text : List Glyph) : Option Json := do
  ofSymbols? (← lex? text)

/-- The value of a text. -/
def parse? (text : String) : Option Json := parseGlyphs? (text.toList.map some)

/-! ## 3. Writing -/

mutual

/-- The symbols of a value. -/
def symbols : Json → List Symbol
  | .scalar s => [.scalar s]
  | .array items => .beginArray :: itemSymbols items ++ [.endArray]
  | .object members => .beginObject :: memberSymbols members ++ [.endObject]

/-- The symbols of an array's items, with commas between them. -/
def itemSymbols : List Json → List Symbol
  | [] => []
  | [v] => symbols v
  | v :: r => symbols v ++ .comma :: itemSymbols r

/-- The symbols of an object's members, with commas between them. -/
def memberSymbols : List (Option String × Json) → List Symbol
  | [] => []
  | [(name, v)] => .scalar (.string name) :: .colon :: symbols v
  | (name, v) :: r =>
    .scalar (.string name) :: .colon :: symbols v ++ .comma :: memberSymbols r

end

/-- The text of a value, without blanks. -/
def render (v : Json) : String := String.ofList (v.symbols.flatMap Symbol.chars)

end Json
end CurrencyPad
