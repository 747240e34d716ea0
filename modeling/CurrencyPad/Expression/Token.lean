/-
CurrencyPad.Expression.Token — cutting a text into numbers and operators.

The text is cut in two steps. `Lexeme.scan` groups its characters: a
maximal run of digits and points is one lexeme, every other character is
one of its own, blanks included, so that the lexemes spell the text
(`flatMap_chars_scan`) and one can see which of them touch. `ofLexemes?`
then reads each lexeme as a token.

A minus sign belongs to the number after it only when it is the first
thing in the text and touches that number; anywhere else it is the
operator.
-/
import CurrencyPad.Text.Blank
import CurrencyPad.Decimal.Numeral
import CurrencyPad.Expression.Operator

namespace CurrencyPad

/-! ## 1. Lexemes -/

/-- A piece of text: a run of digits and points, a blank, or any other
character. -/
inductive Lexeme
  | blank (c : Char)
  | digits (text : List Char)
  | mark (c : Char)
deriving DecidableEq

namespace Lexeme

/-- The text of a lexeme. -/
def chars : Lexeme → List Char
  | blank c => [c]
  | digits text => text
  | mark c => [c]

/-- Cuts a text into maximal runs of digits and points, blanks, and single
characters. -/
def scan : List Char → List Lexeme
  | [] => []
  | c :: r =>
    if Decimal.isNumeralChar c then
      match scan r with
      | .digits run :: rest => .digits (c :: run) :: rest
      | rest => .digits [c] :: rest
    else if Text.isBlank c then .blank c :: scan r
    else .mark c :: scan r

/-- The lexemes spell the text. -/
theorem flatMap_chars_scan (cs : List Char) : (scan cs).flatMap chars = cs := by
  induction cs with
  | nil => rfl
  | cons c r ih =>
    unfold scan
    split
    · split
      · next run rest h =>
        rw [h] at ih
        simp only [List.flatMap_cons, chars, List.cons_append] at ih ⊢
        rw [ih]
      · simp only [List.flatMap_cons, chars, List.singleton_append, ih]
    · split <;> simp only [List.flatMap_cons, chars, List.singleton_append, ih]

end Lexeme

/-! ## 2. Tokens -/

/-- A number or an operator. -/
inductive Token
  | number (value : Decimal)
  | operator (op : Operator)
deriving DecidableEq

namespace Token

/-- Reads lexemes as tokens, every sign an operator. -/
def ofLexemes? : List Lexeme → Option (List Token)
  | [] => some []
  | .blank _ :: rest => ofLexemes? rest
  | .digits run :: rest => do
    let value ← Decimal.ofLiteral? run
    return number value :: (← ofLexemes? rest)
  | .mark c :: rest => do
    let op ← Operator.ofChar? c
    return operator op :: (← ofLexemes? rest)

/-- Reads lexemes as tokens, a minus sign that starts the text and touches a
number being the sign of that number. -/
def ofSignedLexemes? : List Lexeme → Option (List Token)
  | .blank _ :: rest => ofSignedLexemes? rest
  | .mark '-' :: .digits run :: rest => do
    let value ← Decimal.ofLiteral? run
    return number (-value) :: (← ofLexemes? rest)
  | rest => ofLexemes? rest

/-- The tokens of a text, or none when some part of it is neither a number nor
an operator nor blank. -/
def ofChars? (cs : List Char) : Option (List Token) := ofSignedLexemes? (Lexeme.scan cs)

end Token
end CurrencyPad
