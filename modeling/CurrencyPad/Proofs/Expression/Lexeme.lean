/-
CurrencyPad.Proofs.Expression.Lexeme — where a text is cut.

`Lexeme.scan` is known by its chunks: a run of digits and points that
nothing makes longer becomes one lexeme, and a space or an operator
becomes one of its own, each leaving the rest of the text to be cut on
its own. Under these lemmas stand the facts about the few classes of
characters that an expression is written with.
-/
import CurrencyPad.Expression.Evaluation
import CurrencyPad.Proofs.Decimal.Literal
import CurrencyPad.Proofs.Text.Digits

namespace CurrencyPad

open Text

/-! ## 1. Classes of characters -/

theorem Operator.isOperatorChar_iff {c : Char} :
    isOperatorChar c = true ↔ ∃ op : Operator, op.toChar = c := by
  constructor
  · intro h
    obtain ⟨op, hop⟩ := Option.isSome_iff_exists.mp h
    exact ⟨op, toChar_of_ofChar? hop⟩
  · rintro ⟨op, rfl⟩
    simp [isOperatorChar]

@[simp] theorem Operator.isOperatorChar_toChar (op : Operator) :
    isOperatorChar op.toChar = true := isOperatorChar_iff.mpr ⟨op, rfl⟩

@[simp] theorem Operator.isNumeralChar_toChar (op : Operator) :
    Decimal.isNumeralChar op.toChar = false := by
  cases op <;> rfl

/-- The space is the only blank that an expression is written with. -/
theorem Expression.isBlank_eq_space {c : Char} (h : isExpressionChar c = true) :
    isBlank c = (c == ' ') := by
  simp only [isExpressionChar, Bool.or_eq_true, beq_iff_eq] at h
  rcases h with ((h | rfl) | rfl) | h
  · have hne : c ≠ ' ' := by rintro rfl; simp at h
    simp [isBlank_of_isDigit h, hne]
  · rfl
  · rfl
  · obtain ⟨op, rfl⟩ := Operator.isOperatorChar_iff.mp h
    cases op <;> rfl

/-! ## 2. Chunks -/

namespace Lexeme

/-- The text of some lexemes. -/
def text (ls : List Lexeme) : List Char := ls.flatMap chars

@[simp] theorem text_cons (l : Lexeme) (ls : List Lexeme) :
    text (l :: ls) = l.chars ++ text ls := List.flatMap_cons

/-- A text that does not begin with a digit or a point has no run in front. -/
theorem scan_ne_digits {cs : List Char}
    (h : ∀ c ∈ cs.head?, Decimal.isNumeralChar c = false) (run : List Char)
    (rest : List Lexeme) : scan cs ≠ .digits run :: rest := by
  cases cs with
  | nil => simp [scan]
  | cons c r =>
    have hc : Decimal.isNumeralChar c = false := h c (by simp)
    rw [scan, hc]
    simp only [Bool.false_eq_true, if_false]
    split <;> simp

/-- A run that nothing makes longer is one lexeme. -/
theorem scan_run {run rest : List Char} (hne : run ≠ [])
    (hrun : ∀ c ∈ run, Decimal.isNumeralChar c = true)
    (hstop : ∀ c ∈ rest.head?, Decimal.isNumeralChar c = false) :
    scan (run ++ rest) = .digits run :: scan rest := by
  induction run with
  | nil => exact absurd rfl hne
  | cons c r ih =>
    have hc : Decimal.isNumeralChar c = true := hrun c (by simp)
    rw [List.cons_append, scan, if_pos hc]
    cases hr : r with
    | nil =>
      rw [List.nil_append]
      split
      · rename_i run' rest' hscan
        exact absurd hscan (scan_ne_digits hstop run' rest')
      · rfl
    | cons c' r' =>
      rw [← hr, ih (by simp [hr]) (fun x hx => hrun x (by simp [hx]))]

/-- A text of digits and points is one run. -/
theorem scan_numeral {run : List Char} (hne : run ≠ [])
    (hrun : ∀ c ∈ run, Decimal.isNumeralChar c = true) : scan run = [.digits run] := by
  have hscan := @scan_run run [] hne hrun (by simp)
  simpa [scan] using hscan

theorem scan_space (cs : List Char) : scan (' ' :: cs) = .blank ' ' :: scan cs := rfl

theorem scan_operator (op : Operator) (cs : List Char) :
    scan (op.toChar :: cs) = .mark op.toChar :: scan cs := by
  cases op <;> rfl

/-- A lexeme that is a blank is one. -/
theorem isBlank_of_mem_scan {cs : List Char} {c : Char} (h : .blank c ∈ scan cs) :
    isBlank c = true := by
  induction cs with
  | nil => simp [scan] at h
  | cons d r ih =>
    rw [scan] at h
    split at h
    · split at h
      · rename_i run rest hr
        exact ih (by simpa [hr] using h)
      · exact ih (by simpa using h)
    · split at h
      · rename_i hd
        rcases List.mem_cons.mp h with heq | h
        · obtain rfl := Lexeme.blank.inj heq
          exact hd
        · exact ih h
      · exact ih (by simpa using h)

theorem mem_of_blank_mem_scan {cs : List Char} {c : Char} (h : .blank c ∈ scan cs) :
    c ∈ cs := by
  rw [← flatMap_chars_scan cs]
  exact List.mem_flatMap.mpr ⟨.blank c, h, by simp [chars]⟩

end Lexeme
end CurrencyPad
