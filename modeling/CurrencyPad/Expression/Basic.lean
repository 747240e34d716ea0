/-
CurrencyPad.Expression.Basic — expressions and their value.

An expression is a first operand and a list of operators, each with the
operand after it. There are no parentheses. Its value is a sum of
products: products and quotients are taken first, from the left, and the
terms they form are then added up from the left, starting at zero.

`SumOfProducts` is the state of that reading: the terms finished so far,
the operator that will join the current term to them, and the current
term.
-/
import CurrencyPad.Expression.Token

namespace CurrencyPad

/-! ## 1. Expressions -/

/-- An operand followed by operators and operands. -/
structure Expression where
  first : Decimal
  rest : List (Operator × Decimal)
deriving DecidableEq

namespace Expression

/-- Reads operators and operands in turn. -/
def pairs? : List Token → Option (List (Operator × Decimal))
  | [] => some []
  | .operator op :: .number b :: rest => (pairs? rest).map ((op, b) :: ·)
  | _ => none

/-- Reads an operand, then operators and operands in turn. -/
def ofTokens? : List Token → Option Expression
  | .number a :: rest => (pairs? rest).map (⟨a, ·⟩)
  | _ => none

/-! ## 2. The value -/

/-- A sum of products that is being read. -/
structure SumOfProducts where
  total : Decimal
  pending : Operator
  term : Decimal

namespace SumOfProducts

/-- Before any operator was read. -/
def start (a : Decimal) : SumOfProducts := ⟨.zero, .add, a⟩

/-- Takes in one more operator and operand. -/
def push (s : SumOfProducts) (p : Operator × Decimal) : Option SumOfProducts :=
  if p.1.bindsTighter then
    (p.1.apply s.term p.2).map ({ s with term := · })
  else
    (s.pending.apply s.total s.term).map (⟨·, p.1, p.2⟩)

/-- Joins the last term to the sum. -/
def close (s : SumOfProducts) : Option Decimal := s.pending.apply s.total s.term

end SumOfProducts

/-- The value of an expression; none on overflow and on division by zero. -/
def value? (e : Expression) : Option Decimal :=
  (e.rest.foldlM SumOfProducts.push (.start e.first)).bind SumOfProducts.close

end Expression
end CurrencyPad
