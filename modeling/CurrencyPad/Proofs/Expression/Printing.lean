/-
CurrencyPad.Proofs.Expression.Printing — tokens that are printed and read
back.

A token is printed as a rendered number or as the character of an operator.
What is read from printed tokens are the same tokens, numbers compared by
value, when only the first of them is below zero (`reads_printed`). Any
tokens may stand apart, with one or more spaces between them. Numbers and
operators in turn may also touch.

## How the proof goes

The text is read from the front, one token and what follows it at a time
(`ofLexemes?_token`). A number must not be made longer by what follows it,
which a space or an operator does not do. Only the first token can have a
sign of its own, and only a number that it touches takes a minus sign for
its own (`ofChars?_token`).
-/
import CurrencyPad.Proofs.Expression.RoundTrip

namespace CurrencyPad.Token

open Expression

/-! ## 1. Printed tokens -/

/-- The text of a token. -/
def chars : Token → List Char
  | number v => v.renderChars
  | operator op => [op.toChar]

/-- A number below zero. -/
def isNegative : Token → Bool
  | number v => v.isNegative
  | operator _ => false

/-- The same token, numbers compared by value. -/
def Same : Token → Token → Prop
  | number a, number b => a.toRat = b.toRat
  | operator op, operator op' => op = op'
  | _, _ => False

/-- The text of some tokens, with one or more spaces between each two. -/
inductive SpelledApart : List Token → List Char → Prop
  | nil : SpelledApart [] []
  | single (t : Token) : SpelledApart [t] t.chars
  | cons (t : Token) (n : Nat) {ts : List Token} {cs : List Char} :
      ts ≠ [] → SpelledApart ts cs →
      SpelledApart (t :: ts) (t.chars ++ (List.replicate (n + 1) ' ' ++ cs))

/-- Numbers and operators in turn, a number first. -/
def Alternates : List Token → Prop
  | [] => True
  | [number _] => True
  | number _ :: operator _ :: rest => Alternates rest
  | _ => False

/-- The token with its number in the normal spelling. -/
def normal : Token → Token
  | number v => number v.normalize
  | operator op => operator op

theorem same_normal (t : Token) : t.Same t.normal := by
  cases t with
  | number v => exact v.toRat_normalize.symm
  | operator op => rfl

theorem forall₂_same_normal (ts : List Token) : List.Forall₂ Same ts (ts.map normal) := by
  induction ts with
  | nil => exact .nil
  | cons t ts ih => exact .cons t.same_normal ih

/-! ## 2. The first token of a text -/

/-- The next character is no digit and no point. -/
def Stops (rest : List Char) : Prop := ∀ c ∈ rest.head?, Decimal.isNumeralChar c = false

theorem stops_nil : Stops [] := by simp [Stops]

theorem stops_spaces (n : Nat) (cs : List Char) : Stops (List.replicate (n + 1) ' ' ++ cs) := by
  intro c hc
  obtain rfl : ' ' = c := by simpa [List.replicate_succ] using hc
  rfl

theorem stops_operator (op : Operator) (cs : List Char) : Stops (op.toChar :: cs) := by
  intro c hc
  obtain rfl : op.toChar = c := by simpa using hc
  exact op.isNumeralChar_toChar

variable {rest : List Char}

theorem scan_magnitudeChars (d : Decimal) (hstop : Stops rest) :
    Lexeme.scan (d.magnitudeChars ++ rest) = .digits d.magnitudeChars :: Lexeme.scan rest := by
  have hlit : IsLiteral d.magnitudeChars d.abs := .ofValue d.ofLiteral?_magnitudeChars
  exact Lexeme.scan_run hlit.ne_nil hlit.shape.numeral hstop

/-- **A token that is not below zero** is read from its text. -/
theorem ofLexemes?_token (t : Token) (ht : t.isNegative = false) (hstop : Stops rest) :
    ofLexemes? (Lexeme.scan (t.chars ++ rest)) =
      (ofLexemes? (Lexeme.scan rest)).map (t.normal :: ·) := by
  cases t with
  | number v =>
    have hlit : IsLiteral v.normalize.magnitudeChars v.normalize := by
      rw [← Decimal.renderChars_of_not_isNegative ht]
      exact .ofValue (Decimal.ofLiteral?_renderChars ht)
    rw [chars, Decimal.renderChars_of_not_isNegative ht, scan_magnitudeChars _ hstop,
      ofLexemes?_digits hlit]
    rfl
  | operator op => exact ofLexemes?_operator op rest

/-- **The first token** of a text is read from its text, a number below zero with its sign. -/
theorem ofChars?_token (t : Token) (hstop : Stops rest) :
    ofChars? (t.chars ++ rest) = (ofLexemes? (Lexeme.scan rest)).map (t.normal :: ·) := by
  cases hneg : t.isNegative with
  | true =>
    cases t with
    | operator op => cases hneg
    | number v =>
      have hvalue : -v.normalize.abs = v.normalize :=
        Decimal.neg_abs_of_isNegative ((v.isNegative_normalize).trans hneg)
          v.isNormal_normalize.unmarked
      have hmark := Lexeme.scan_operator .subtract (v.normalize.magnitudeChars ++ rest)
      rw [scan_magnitudeChars _ hstop] at hmark
      have hscan : Lexeme.scan (v.renderChars ++ rest) =
          .mark '-' :: .digits v.normalize.magnitudeChars :: Lexeme.scan rest := by
        rw [Decimal.renderChars, Decimal.toChars_eq, Decimal.signChars,
          v.isNegative_normalize, show v.isNegative = true from hneg]
        exact hmark
      rw [ofChars?, chars, hscan, ofSignedLexemes?, Decimal.ofLiteral?_magnitudeChars]
      simp only [Option.bind_eq_bind, Option.bind_some, hvalue]
      cases ofLexemes? (Lexeme.scan rest) <;> rfl
  | false =>
    have hplain := ofLexemes?_token t hneg hstop
    rw [← hplain, ofChars?]
    cases t with
    | number v =>
      rw [chars, Decimal.renderChars_of_not_isNegative hneg, scan_magnitudeChars _ hstop]
      rfl
    | operator op =>
      have hscan : Lexeme.scan ((operator op).chars ++ rest) =
          .mark op.toChar :: Lexeme.scan rest := Lexeme.scan_operator op rest
      rw [hscan, ofSignedLexemes?.eq_def]
      split
      · cases ‹_›
      · -- a minus sign touches no number here
        rename_i run ls heq
        obtain ⟨-, hdigits⟩ := List.cons.inj heq
        exact absurd hdigits (Lexeme.scan_ne_digits hstop run ls)
      · rfl

theorem ofLexemes?_chars (t : Token) (ht : t.isNegative = false) :
    ofLexemes? (Lexeme.scan t.chars) = some [t.normal] := by
  have hread := ofLexemes?_token t ht stops_nil
  rwa [List.append_nil] at hread

/-- A token alone is read from its text. -/
theorem ofChars?_chars (t : Token) : ofChars? t.chars = some [t.normal] := by
  have hread := ofChars?_token t stops_nil
  rwa [List.append_nil] at hread

/-! ## 3. All tokens -/

/-- Tokens that stand apart are read, if none is below zero. -/
theorem ofLexemes?_spelledApart {ts : List Token} {cs : List Char} (h : SpelledApart ts cs)
    (hneg : ∀ t ∈ ts, t.isNegative = false) :
    ofLexemes? (Lexeme.scan cs) = some (ts.map normal) := by
  induction h with
  | nil => rfl
  | single t => exact ofLexemes?_chars t (hneg t (by simp))
  | cons t n _ _ ih =>
    rw [ofLexemes?_token t (hneg t (by simp)) (stops_spaces n _), ofLexemes?_spaces,
      ih fun t ht => hneg t (by simp [ht])]
    rfl

theorem ofChars?_spelledApart {ts : List Token} {cs : List Char} (h : SpelledApart ts cs)
    (hneg : ∀ t ∈ ts.tail, t.isNegative = false) : ofChars? cs = some (ts.map normal) := by
  cases h with
  | nil => rfl
  | single t => exact ofChars?_chars t
  | cons t n _ hts =>
    rw [ofChars?_token t (stops_spaces n _), ofLexemes?_spaces, ofLexemes?_spelledApart hts hneg]
    rfl

/-- Numbers and operators in turn are read, if none is below zero. -/
theorem ofLexemes?_alternates (ts : List Token) (h : Alternates ts)
    (hneg : ∀ t ∈ ts, t.isNegative = false) :
    ofLexemes? (Lexeme.scan (ts.flatMap chars)) = some (ts.map normal) := by
  fun_induction Alternates ts with
  | case1 => rfl
  | case2 v =>
    rw [List.flatMap_singleton]
    exact ofLexemes?_chars (number v) (hneg _ (by simp))
  | case3 v op rest ih =>
    have hrest := ih h fun t ht => hneg t (by simp [ht])
    have hnumber := ofLexemes?_token (number v) (hneg _ (by simp))
      (stops_operator op (rest.flatMap chars))
    rw [ofLexemes?_operator, hrest] at hnumber
    exact hnumber
  | case4 => exact h.elim

theorem ofChars?_alternates {ts : List Token} (h : Alternates ts)
    (hneg : ∀ t ∈ ts.tail, t.isNegative = false) :
    ofChars? (ts.flatMap chars) = some (ts.map normal) := by
  match ts, h with
  | [], _ => rfl
  | [number v], _ =>
    rw [List.flatMap_singleton]
    exact ofChars?_chars (number v)
  | number v :: operator op :: rest, h =>
    have hrest := ofLexemes?_alternates rest h fun t ht => hneg t (by simp [ht])
    have hnumber := ofChars?_token (number v) (stops_operator op (rest.flatMap chars))
    rw [ofLexemes?_operator, hrest] at hnumber
    exact hnumber

/-- **Reading undoes printing.** Tokens of which only the first may be below zero are read from
their texts as the same tokens, if these stand apart. If numbers and operators come in turn, they
may touch. -/
theorem reads_printed (ts : List Token) (hneg : ∀ t ∈ ts.tail, t.isNegative = false) :
    (∀ cs, SpelledApart ts cs → ∃ ts', ofChars? cs = some ts' ∧ List.Forall₂ Same ts ts') ∧
      (Alternates ts →
        ∃ ts', ofChars? (ts.flatMap chars) = some ts' ∧ List.Forall₂ Same ts ts') := by
  constructor
  · intro cs h
    exact ⟨_, ofChars?_spelledApart h hneg, forall₂_same_normal ts⟩
  · intro h
    exact ⟨_, ofChars?_alternates h hneg, forall₂_same_normal ts⟩

/-- A negative half with superfluous zeros, less a third with all the places there are. -/
def owedShares : List Token :=
  [number { coeff := -5000, scale := 4 }, operator .subtract,
    number { coeff := 3333333333333333333333333333, scale := 28 }]

theorem reads_printed_owedShares :
    (∃ ts, ofChars? "-0.5 -  0.3333333333333333333333333333".toList = some ts ∧
      List.Forall₂ Same owedShares ts) ∧
    ∃ ts, ofChars? "-0.5-0.3333333333333333333333333333".toList = some ts ∧
      List.Forall₂ Same owedShares ts := by
  obtain ⟨hapart, halternates⟩ := reads_printed owedShares (by decide)
  constructor
  · have hspelled : SpelledApart owedShares _ :=
      .cons _ 0 (by simp) (.cons _ 1 (by simp) (.single _))
    obtain ⟨ts, hts, hsame⟩ := hapart _ hspelled
    refine ⟨ts, ?_, hsame⟩
    rw [← hts]
    exact congrArg ofChars? (by decide +kernel)
  · have htext : owedShares.flatMap chars =
        "-0.5-0.3333333333333333333333333333".toList := by decide +kernel
    rw [← htext]
    exact halternates (by simp [owedShares, Alternates])

end CurrencyPad.Token
