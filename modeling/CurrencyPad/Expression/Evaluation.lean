/-
CurrencyPad.Expression.Evaluation — the value of a text while it is being
typed.

The text is first made readable: everything but digits, points, spaces
and operators is dropped, spaces at the ends are dropped, one operator at
the end is dropped (it is waiting for its operand), and a point at the
end is completed by a zero. What is left must be an expression. A text
that is not one has no value, which is not an error.
-/
import CurrencyPad.Expression.Basic

namespace CurrencyPad.Expression

open Text

/-! ## 1. Making a typed text readable -/

/-- The characters an expression is written with. -/
def isExpressionChar (c : Char) : Bool :=
  c.isDigit || c == '.' || c == ' ' || Operator.isOperatorChar c

/-- Without the operator at the end, if there is one. -/
def withoutTrailingOperator (cs : List Char) : List Char :=
  match cs.getLast? with
  | some c => if Operator.isOperatorChar c then trimChars cs.dropLast else cs
  | none => cs

/-- Completes a text that ends in a point, keeps one that ends in a digit, and
refuses any other. -/
def completed? (cs : List Char) : Option (List Char) :=
  match cs.getLast? with
  | some c => if c = '.' then some (cs ++ ['0']) else if c.isDigit then some cs else none
  | none => none

/-- The text that is read in place of the typed one. -/
def readable? (cs : List Char) : Option (List Char) :=
  completed? (withoutTrailingOperator (trimChars (cs.filter isExpressionChar)))

/-! ## 2. Evaluation -/

/-- The value of a typed text. -/
def evaluateChars (cs : List Char) : Option Decimal := do
  let readable ← readable? cs
  let tokens ← Token.ofChars? readable
  let e ← ofTokens? tokens
  e.value?

/-- The value of a typed text. -/
def evaluate (text : String) : Option Decimal := evaluateChars text.toList

/-- The value of a bare literal, without operators and sign. -/
def literalChars? (cs : List Char) : Option Decimal := Decimal.ofLiteral? (trimChars cs)

/-- The value of a bare literal, without operators and sign. -/
def literal? (text : String) : Option Decimal := literalChars? text.toList

end CurrencyPad.Expression
