/-
CurrencyPad.Json.Fields — reading records from JSON values.

A record is read from an object or from an array. In an object each field
stands under its name; members of other names are ignored, but every
member must have a name with text, and no field may stand there twice. An
array gives the fields in their order, and no more than there are.
`fields?` does both; what a missing field means is for each field to say
(`required`, `optional`, `orElse`).

A tagged record is an object with one more member, the tag, anywhere
among the others, or an array that starts with the tag. Such a value is
taken in whole before it is looked at, which asks more of all of it:
strings with text, numbers in range, and no more than 127 containers
inside each other.
-/
import CurrencyPad.Json.Value

namespace CurrencyPad.Json

/-! ## 1. Scalars -/

/-- The text of a string. -/
def text? : Json → Option String
  | .scalar (.string s) => s
  | _ => none

def bool? : Json → Option Bool
  | .scalar (.bool b) => some b
  | _ => none

/-- An integer within bounds. -/
def integer? (least greatest : Int) : Json → Option Int
  | .scalar (.number n) =>
    match n.integer? with
    | some i => if least ≤ i ∧ i ≤ greatest then some i else none
    | none => none
  | _ => none

/-- A count of at most 32 bits. -/
def count? (v : Json) : Option Nat := (v.integer? 0 4294967295).map Int.toNat

/-- The double nearest to a number. -/
def double? : Json → Option Rat
  | .scalar (.number n) => n.double?
  | _ => none

/-- A list whose items are all read in the same way. -/
def list? {α : Type} (read : Json → Option α) : Json → Option (List α)
  | .array items => items.mapM read
  | _ => none

/-- Null, or a value. -/
def nullable? {α : Type} (read : Json → Option α) : Json → Option (Option α)
  | .scalar .null => some none
  | v => (read v).map some

/-! ## 2. Records -/

/-- The value of the member with a name, none when there is no such member. There
must not be two. -/
def member? (members : List Member) (name : String) : Option (Option Json) :=
  match members.filter (·.1 == some name) with
  | [] => some none
  | [m] => some (some m.2)
  | _ => none

/-- The values of the fields with these names, none for a field that is not
there. -/
def fields? (names : List String) : Json → Option (List (Option Json))
  | .object members =>
    if members.all (·.1.isSome) then names.mapM (member? members) else none
  | .array items =>
    if items.length ≤ names.length then
      some (items.map some ++ List.replicate (names.length - items.length) none)
    else none
  | .scalar _ => none

/-- A field that must be there. -/
def required {α : Type} (read : Json → Option α) (field : Option Json) : Option α :=
  field.bind read

/-- A field that may be missing or null. -/
def optional {α : Type} (read : Json → Option α) : Option Json → Option (Option α)
  | none => some none
  | some v => nullable? read v

/-- A field with a default. -/
def orElse {α : Type} (default : α) (read : Json → Option α) : Option Json → Option α
  | none => some default
  | some v => read v

/-- An array names no fields, so all of them have to be there. -/
def isComplete (v : Json) (fields : List (Option Json)) : Bool :=
  match v with
  | .array _ => fields.all Option.isSome
  | _ => true

/-- The values of the fields with these names. An array must have all of them. -/
def completeFields? (names : List String) (v : Json) : Option (List (Option Json)) := do
  let fields ← v.fields? names
  if v.isComplete fields then some fields else none

/-! ## 3. Tagged records -/

/-- A string with text or a number in range, or any other scalar. -/
def Scalar.isPlain : Scalar → Bool
  | .string s => s.isSome
  | .number n => n.integer?.isSome || n.double?.isSome
  | _ => true

mutual

/-- Strings with text and numbers in range, at most `depth` containers deep. -/
def isPlain (depth : Nat) : Json → Bool
  | .scalar s => s.isPlain
  | .array items => decide (0 < depth) && itemsPlain (depth - 1) items
  | .object members => decide (0 < depth) && membersPlain (depth - 1) members

def itemsPlain (depth : Nat) : List Json → Bool
  | [] => true
  | v :: r => isPlain depth v && itemsPlain depth r

def membersPlain (depth : Nat) : List (Option String × Json) → Bool
  | [] => true
  | (name, v) :: r => name.isSome && isPlain depth v && membersPlain depth r

end

/-- The tag of a tagged record, and the record without it. -/
def tagged? (tag : String) (v : Json) : Option (String × Json) :=
  if v.isPlain 127 then
    match v with
    | .object members => do
      let name ← (← member? members tag).bind text?
      return (name, .object (members.filter (·.1 != some tag)))
    | .array (first :: items) => do
      let name ← first.text?
      return (name, .array items)
    | _ => none
  else none

/-- A record without fields: an object, whatever it holds, or an empty array. -/
def isUnit : Json → Bool
  | .object _ => true
  | .array items => items.isEmpty
  | .scalar _ => false

end CurrencyPad.Json
