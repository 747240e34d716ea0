/-
CurrencyPad.Keypad.Buffer — the text that is edited with the keypad.

The buffer starts as a lone zero and falls back to it. A digit replaces a
lone zero, an operator replaces an operator at the end, and anything else
is added at the end. `restore` replays a saved text key by key, with a
minus sign at the start kept as the sign of the first number.

`percentage?` reads the operand after the last operator as a percentage:
of what stands before a sum or difference, of one otherwise.
-/
import CurrencyPad.Keypad.Key
import CurrencyPad.Expression.Evaluation

namespace CurrencyPad

/-- The edited text. -/
abbrev Buffer := List Char

namespace Buffer

/-! ## 1. Editing -/

/-- A lone zero. -/
def blank : Buffer := ['0']

def endsWithOperator (b : Buffer) : Bool :=
  match b.getLast? with
  | some c => Operator.isOperatorChar c
  | none => false

/-- Adds a digit, a point or an operator; other keys add nothing. -/
def append (b : Buffer) (key : Key) : Buffer :=
  match key.char? with
  | none => b
  | some c =>
    match key with
    | .digit _ => if b = blank then [c] else b ++ [c]
    | .operator _ => if b.endsWithOperator then b.dropLast ++ [c] else b ++ [c]
    | _ => b ++ [c]

/-- Without the last character; a lone zero when nothing is left. -/
def delete (b : Buffer) : Buffer :=
  match b.dropLast with
  | [] => blank
  | r => r

/-- The key that writes a character of the buffer. -/
def keyOf? (c : Char) : Option Key :=
  if c.isDigit then some (.digit c)
  else if c = '.' then some .point
  else (Operator.ofChar? c).map .operator

/-- Presses the key of a character, if there is one. -/
def replay (b : Buffer) (c : Char) : Buffer :=
  match keyOf? c with
  | some key => b.append key
  | none => b

/-- The buffer that a saved text gives. -/
def restore (text : List Char) : Buffer :=
  match Text.trimChars text with
  | '-' :: r => r.foldl replay ['-']
  | r => r.foldl replay blank

/-! ## 2. Percentages -/

/-- Splits a text at its last operator. -/
def splitAtOperator? : List Char → Option (List Char × Operator × List Char)
  | [] => none
  | c :: r =>
    match splitAtOperator? r with
    | some (before, op, after) => some (c :: before, op, after)
    | none => (Operator.ofChar? c).map fun op => ([], op, r)

/-- The operator and operand that stand for `op` and `percent` after a left side
of value `a`. A sum or difference takes that part of the left side; below zero it
turns into the other one, so that the operand is never negative. -/
def percentOperand? (a : Decimal) (op : Operator) (percent : Decimal) :
    Option (Operator × Decimal) :=
  match op with
  | .add => (a.mul? percent).map fun share =>
      if share.isNegative then (.subtract, share.abs) else (.add, share)
  | .subtract => (a.mul? percent).map fun share =>
      if share.isNegative then (.add, share.abs) else (.subtract, share)
  | .multiply => some (.multiply, percent)
  | .divide => some (.divide, percent)

/-- What makes a percentage of a number. -/
def percentSuffix : List Char := "*0.01".toList

/-- The value of the buffer with the operand after its last operator read as a
percentage. A sign at the start is no operator here; without an operator the
whole buffer is taken. -/
def percentage? (b : Buffer) : Option Decimal :=
  match b with
  | [] => none
  | c :: r =>
    match splitAtOperator? r with
    | none => Expression.evaluateChars (b ++ percentSuffix)
    | some (before, op, after) => do
      let left := c :: before
      let a ← Expression.evaluateChars left
      let x ← Expression.literalChars? after
      let percent ← x.div? .hundred
      let (op, operand) ← percentOperand? a op percent
      Expression.evaluateChars (left ++ op.toChar :: operand.renderChars)

end Buffer
end CurrencyPad
