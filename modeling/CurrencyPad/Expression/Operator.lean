/-
CurrencyPad.Expression.Operator — the four binary operators.

An operator is written with one character and applied with checked
decimal arithmetic: overflow and division by zero have no result.
-/
import CurrencyPad.Decimal.Arithmetic
import CurrencyPad.Decimal.Division

namespace CurrencyPad

/-- A binary operator. -/
inductive Operator
  | add
  | subtract
  | multiply
  | divide
deriving DecidableEq, Inhabited

namespace Operator

/-- The operator that a character stands for. -/
def ofChar? : Char → Option Operator
  | '+' => some add
  | '-' => some subtract
  | '*' => some multiply
  | '/' => some divide
  | _ => none

/-- The character an operator is written with. -/
def toChar : Operator → Char
  | add => '+'
  | subtract => '-'
  | multiply => '*'
  | divide => '/'

/-- Products and quotients bind tighter than sums and differences. -/
def bindsTighter : Operator → Bool
  | multiply | divide => true
  | add | subtract => false

/-- The value of `a op b`, when there is one. -/
def apply : Operator → Decimal → Decimal → Option Decimal
  | add => Decimal.add?
  | subtract => Decimal.sub?
  | multiply => Decimal.mul?
  | divide => Decimal.div?

/-- One of the four operator characters. -/
def isOperatorChar (c : Char) : Bool := (ofChar? c).isSome

@[simp] theorem ofChar?_toChar (op : Operator) : ofChar? op.toChar = some op := by
  cases op <;> rfl

theorem toChar_of_ofChar? {c : Char} {op : Operator} (h : ofChar? c = some op) :
    op.toChar = c := by
  unfold ofChar? at h
  split at h <;> simp_all [toChar] <;> (subst h; rfl)

end Operator
end CurrencyPad
