/-
CurrencyPad.Keypad.Key — the keys of the keypad and their labels.

A label names one key, and every key has one label of its own; some keys
answer to more than one label (`C`, `×`, `÷`, `⌫`).
-/
import CurrencyPad.Text.Blank
import CurrencyPad.Expression.Operator
import CurrencyPad.Error

namespace CurrencyPad

/-- A keypad key. -/
inductive Key
  /-- A digit key. Any other character makes a dead key. -/
  | digit (c : Char)
  | point
  | operator (op : Operator)
  | clear
  | equals
  | percent
  | delete
deriving DecidableEq

namespace Key

/-- The key of a digit. -/
def ofDigit? (c : Char) : Option Key := if c.isDigit then some (digit c) else none

/-- The character that a key adds to the buffer, if it adds one. -/
def char? : Key → Option Char
  | digit c => if c.isDigit then some c else none
  | point => some '.'
  | operator op => some op.toChar
  | clear | equals | percent | delete => none

/-- The key that a trimmed label names. -/
def ofLabelChars? (label : List Char) : Option Key :=
  if label = "CLEAR".toList then some clear
  else if label = "DELETE".toList then some delete
  else match label with
    | ['C'] => some clear
    | ['='] => some equals
    | ['%'] => some percent
    | ['.'] => some point
    | ['⌫'] => some delete
    | ['×'] => some (operator .multiply)
    | ['÷'] => some (operator .divide)
    | [c] => if c.isDigit then some (digit c) else (Operator.ofChar? c).map operator
    | _ => none

/-- The key that a label names; blanks around it do not count. -/
def ofLabel (label : String) : Except InputError Key :=
  match ofLabelChars? (Text.trimChars label.toList) with
  | some key => .ok key
  | none => .error (.unknownKey label)

/-- The label of a key. -/
def label : Key → String
  | digit c => String.singleton c
  | point => "."
  | operator op => String.singleton op.toChar
  | clear => "CLEAR"
  | equals => "="
  | percent => "%"
  | delete => "DELETE"

end Key
end CurrencyPad
