/-
CurrencyPad.Proofs.Expression.Grammar — the language that evaluation
accepts, and the meaning it gives.

The language is a grammar over plain texts (`Spells`): a literal, then
operators and literals in turn, with any number of spaces between them and
a minus sign allowed right before the first literal. A typed text is
`repaired` before it is read. `evaluate_eq_some_iff` ties the two to
evaluation: a text has the value `v` exactly when its repaired form spells
an expression whose sum of products is `v`. The grammar knows nothing of
lexemes and tokens, through which the text is really read.

## How the proof goes

* What `readable?` makes of a text is its repaired form, or nothing when
  that does not end in a digit (`readable?_eq`).
* A text that is spelled is cut where the grammar put its pieces together,
  so its tokens are the ones the grammar means (`tokens_of_spells`).
* Conversely the lexemes of a text spell it, so what was read from them can
  be written down as a derivation. The induction is on the lexemes, and
  has to know two things at once: what is read from here when an operator
  comes next, and what is read when an operand does (`spells_of_lexemes`).

A literal of the grammar is a run of digits and points that nothing makes
longer: what comes after it is a space, an operator or the end of the text
(`SpellsPairs.head?_not_numeral`).
-/
import CurrencyPad.Proofs.Expression.Lexeme
import CurrencyPad.Proofs.Expression.Value
import CurrencyPad.Proofs.Text.Trim

namespace CurrencyPad.Expression

open Text

/-! ## 1. Repairing a typed text -/

/-- Without the spaces at both ends. -/
def trimSpaces (cs : List Char) : List Char := strip (· == ' ') cs

/-- Without one operator at the end and the spaces before it. -/
def dropOperator (cs : List Char) : List Char :=
  if cs.getLast?.any Operator.isOperatorChar then trimSpaces cs.dropLast else cs

/-- With a zero after a point at the end. -/
def completePoint (cs : List Char) : List Char :=
  if cs.getLast? = some '.' then cs ++ ['0'] else cs

/-- The text that a typed text stands for: foreign characters and the spaces at
the ends are dropped, then one operator at the end, and a point at the end is
completed. -/
def repaired (cs : List Char) : List Char :=
  completePoint (dropOperator (trimSpaces (cs.filter isExpressionChar)))

/-! ## 2. The grammar -/

/-- `run` is a literal of value `d`: digits and at most one point, with a digit
among them, that the decimals can hold. -/
structure IsLiteral (run : List Char) (d : Decimal) : Prop where
  shape : Decimal.LiteralShape run
  value : Decimal.ofLiteral? run = some d

/-- Operators and literals in turn, with spaces before each of them. -/
inductive SpellsPairs : List (Operator × Decimal) → List Char → Prop
  | nil : SpellsPairs [] []
  | cons (m n : Nat) (op : Operator) {run rest : List Char} {d : Decimal}
      {ps : List (Operator × Decimal)} :
      IsLiteral run d → SpellsPairs ps rest →
      SpellsPairs ((op, d) :: ps)
        (List.replicate m ' ' ++ op.toChar :: (List.replicate n ' ' ++ (run ++ rest)))

/-- An expression: a literal, which a sign may touch, and operators and literals
in turn. -/
inductive Spells : Expression → List Char → Prop
  | plain {run rest : List Char} {a : Decimal} {ps : List (Operator × Decimal)} :
      IsLiteral run a → SpellsPairs ps rest → Spells ⟨a, ps⟩ (run ++ rest)
  | signed {run rest : List Char} {a : Decimal} {ps : List (Operator × Decimal)} :
      IsLiteral run a → SpellsPairs ps rest → Spells ⟨-a, ps⟩ ('-' :: (run ++ rest))

theorem IsLiteral.ofValue {run : List Char} {d : Decimal}
    (h : Decimal.ofLiteral? run = some d) : IsLiteral run d :=
  ⟨Decimal.shape_of_ofLiteral? h, h⟩

theorem IsLiteral.ne_nil {run : List Char} {d : Decimal} (h : IsLiteral run d) :
    run ≠ [] := by
  obtain ⟨c, hc, -⟩ := h.shape.digit
  exact List.ne_nil_of_mem hc

/-- What comes after a literal does not make it longer. -/
theorem SpellsPairs.head?_not_numeral {ps : List (Operator × Decimal)} {cs : List Char}
    (h : SpellsPairs ps cs) : ∀ c ∈ cs.head?, Decimal.isNumeralChar c = false := by
  cases h with
  | nil => simp
  | cons m n op hlit hps =>
    cases m with
    | zero => simp
    | succ m =>
      intro c hc
      obtain rfl : ' ' = c := by simpa [List.replicate_succ] using hc
      rfl

/-- A spelled text ends in a literal. -/
theorem IsLiteral.getLast? {run rest : List Char} {d : Decimal}
    {ps : List (Operator × Decimal)} (hlit : IsLiteral run d) (hps : SpellsPairs ps rest)
    (before : List Char) :
    ∃ c, (before ++ (run ++ rest)).getLast? = some c ∧ Decimal.isNumeralChar c = true := by
  induction hps generalizing run d before with
  | nil =>
    obtain ⟨c, hc⟩ := List.getLast?_isSome.mpr hlit.ne_nil |> Option.isSome_iff_exists.mp
    refine ⟨c, ?_, hlit.shape.numeral c (List.mem_of_getLast? hc)⟩
    rw [List.append_nil, List.getLast?_append, hc, Option.some_or]
  | cons m n op hlit' hps ih =>
    obtain ⟨c, hc, hnum⟩ :=
      ih hlit' (before ++ (run ++ List.replicate m ' ' ++ op.toChar :: List.replicate n ' '))
    exact ⟨c, by simpa using hc, hnum⟩

theorem Spells.getLast? {e : Expression} {cs : List Char} (h : Spells e cs) :
    ∃ c, cs.getLast? = some c ∧ Decimal.isNumeralChar c = true := by
  cases h with
  | plain hlit hps => exact hlit.getLast? hps []
  | signed hlit hps => exact hlit.getLast? hps ['-']

/-! ## 3. What is spelled is read -/

/-- The tokens of some lexemes do not depend on the spaces in front. -/
theorem ofLexemes?_spaces (n : Nat) (cs : List Char) :
    Token.ofLexemes? (Lexeme.scan (List.replicate n ' ' ++ cs))
      = Token.ofLexemes? (Lexeme.scan cs) := by
  induction n with
  | zero => rfl
  | succ n ih =>
    rw [List.replicate_succ, List.cons_append, Lexeme.scan_space, Token.ofLexemes?, ih]

theorem ofLexemes?_operator (op : Operator) (cs : List Char) :
    Token.ofLexemes? (Lexeme.scan (op.toChar :: cs))
      = (Token.ofLexemes? (Lexeme.scan cs)).map (.operator op :: ·) := by
  rw [Lexeme.scan_operator, Token.ofLexemes?, Operator.ofChar?_toChar]
  cases Token.ofLexemes? (Lexeme.scan cs) <;> rfl

/-- A literal is one lexeme of the text that it begins. -/
theorem scan_literal {run rest : List Char} {d : Decimal}
    {ps : List (Operator × Decimal)} (hlit : IsLiteral run d) (hps : SpellsPairs ps rest) :
    Lexeme.scan (run ++ rest) = .digits run :: Lexeme.scan rest :=
  Lexeme.scan_run hlit.ne_nil hlit.shape.numeral hps.head?_not_numeral

theorem ofLexemes?_digits {run : List Char} {d : Decimal} (hlit : IsLiteral run d)
    (ls : List Lexeme) :
    Token.ofLexemes? (.digits run :: ls) = (Token.ofLexemes? ls).map (.number d :: ·) := by
  rw [Token.ofLexemes?, hlit.value]
  cases Token.ofLexemes? ls <;> rfl

/-- Operators and literals in turn are read as such. -/
theorem tokens_of_spellsPairs {ps : List (Operator × Decimal)} {cs : List Char}
    (h : SpellsPairs ps cs) :
    ∃ ts, Token.ofLexemes? (Lexeme.scan cs) = some ts ∧ pairs? ts = some ps := by
  induction h with
  | nil => exact ⟨[], rfl, rfl⟩
  | cons m n op hlit hps ih =>
    obtain ⟨ts, hts, hpairs⟩ := ih
    rename_i run rest d ps
    refine ⟨.operator op :: .number d :: ts, ?_, by simp [pairs?, hpairs]⟩
    rw [ofLexemes?_spaces, ofLexemes?_operator, ofLexemes?_spaces, scan_literal hlit hps,
      ofLexemes?_digits hlit, hts]
    rfl

/-- A text that spells an expression is read as that expression. -/
theorem tokens_of_spells {e : Expression} {cs : List Char} (h : Spells e cs) :
    ∃ ts, Token.ofChars? cs = some ts ∧ ofTokens? ts = some e := by
  cases h with
  | plain hlit hps =>
    obtain ⟨ts, hts, hpairs⟩ := tokens_of_spellsPairs hps
    rename_i run rest a ps
    refine ⟨.number a :: ts, ?_, by simp [ofTokens?, hpairs]⟩
    rw [Token.ofChars?, scan_literal hlit hps, Token.ofSignedLexemes?,
      ofLexemes?_digits hlit, hts]
    · rfl
    all_goals simp
  | signed hlit hps =>
    obtain ⟨ts, hts, hpairs⟩ := tokens_of_spellsPairs hps
    rename_i run rest a ps
    refine ⟨.number (-a) :: ts, ?_, by simp [ofTokens?, hpairs]⟩
    have hmark := Lexeme.scan_operator .subtract (run ++ rest)
    simp only [Operator.toChar] at hmark
    rw [Token.ofChars?, hmark, scan_literal hlit hps, Token.ofSignedLexemes?, hlit.value,
      hts]
    rfl

/-! ## 4. What is read is spelled -/

/-- Spaces in front of an operator belong to the spelling. -/
theorem SpellsPairs.space {ps : List (Operator × Decimal)} {cs : List Char}
    (h : SpellsPairs ps cs) (hne : cs ≠ []) : SpellsPairs ps (' ' :: cs) := by
  cases h with
  | nil => exact absurd rfl hne
  | cons m n op hlit hps => exact .cons (m + 1) n op hlit hps

/-- What may come after an operator: spaces and a literal, and what follows it. -/
def SpellsOperand (op : Operator) (ps : List (Operator × Decimal)) (cs : List Char) :
    Prop :=
  ∃ n run rest d ps', cs = List.replicate n ' ' ++ (run ++ rest) ∧ IsLiteral run d ∧
    SpellsPairs ps' rest ∧ ps = (op, d) :: ps'

theorem SpellsOperand.space {op : Operator} {ps : List (Operator × Decimal)}
    {cs : List Char} (h : SpellsOperand op ps cs) : SpellsOperand op ps (' ' :: cs) := by
  obtain ⟨n, run, rest, d, ps', rfl, hlit, hps, rfl⟩ := h
  exact ⟨n + 1, run, rest, d, ps', rfl, hlit, hps, rfl⟩

/-- Spaces, an operator and its operand, and what follows it. -/
theorem SpellsOperand.operator {op : Operator} {ps : List (Operator × Decimal)}
    {cs : List Char} (h : SpellsOperand op ps cs) : SpellsPairs ps (op.toChar :: cs) := by
  obtain ⟨n, run, rest, d, ps', rfl, hlit, hps, rfl⟩ := h
  exact .cons 0 n op hlit hps

theorem ofLexemes?_digits_eq_some {run : List Char} {ls : List Lexeme} {ts : List Token}
    (h : Token.ofLexemes? (.digits run :: ls) = some ts) :
    ∃ d ts', IsLiteral run d ∧ Token.ofLexemes? ls = some ts' ∧ ts = .number d :: ts' := by
  simp only [Token.ofLexemes?] at h
  obtain ⟨d, hd, h⟩ := Option.bind_eq_some_iff.mp h
  obtain ⟨ts', hts', h⟩ := Option.bind_eq_some_iff.mp h
  exact ⟨d, ts', .ofValue hd, hts', by simpa using h.symm⟩

theorem ofLexemes?_mark_eq_some {c : Char} {ls : List Lexeme} {ts : List Token}
    (h : Token.ofLexemes? (.mark c :: ls) = some ts) :
    ∃ op ts', c = op.toChar ∧ Token.ofLexemes? ls = some ts' ∧ ts = .operator op :: ts' := by
  simp only [Token.ofLexemes?] at h
  obtain ⟨op, hop, h⟩ := Option.bind_eq_some_iff.mp h
  obtain ⟨ts', hts', h⟩ := Option.bind_eq_some_iff.mp h
  exact ⟨op, ts', (Operator.toChar_of_ofChar? hop).symm, hts', by simpa using h.symm⟩

/-- Lexemes whose blanks are spaces, and which do not end in one. -/
structure Spaced (ls : List Lexeme) : Prop where
  blanks : ∀ c, .blank c ∈ ls → c = ' '
  last : (Lexeme.text ls).getLast? ≠ some ' '

theorem Spaced.tail {l : Lexeme} {ls : List Lexeme} (h : Spaced (l :: ls)) :
    Spaced ls := by
  refine ⟨fun c hc => h.blanks c (by simp [hc]), fun hlast => h.last ?_⟩
  rw [Lexeme.text_cons, List.getLast?_append, hlast, Option.some_or]

/-- What was read from lexemes is spelled by their text, before an operator and
after one. -/
theorem spells_of_lexemes : ∀ (ls : List Lexeme) (ts : List Token),
    Spaced ls → Token.ofLexemes? ls = some ts →
      (∀ ps, pairs? ts = some ps → SpellsPairs ps (Lexeme.text ls)) ∧
      (∀ op ps, pairs? (.operator op :: ts) = some ps →
        SpellsOperand op ps (Lexeme.text ls))
  | [], ts, _, hts => by
      obtain rfl : [] = ts := by simpa [Token.ofLexemes?] using hts
      refine ⟨fun ps hps => ?_, fun op ps hps => by simp [pairs?] at hps⟩
      obtain rfl : [] = ps := by simpa [pairs?] using hps
      exact .nil
  | .blank c :: ls, ts, hs, hts => by
      obtain ⟨hbefore, hafter⟩ := spells_of_lexemes ls ts hs.tail hts
      obtain rfl : c = ' ' := hs.blanks c (by simp)
      refine ⟨fun ps hps => (hbefore ps hps).space ?_,
        fun op ps hps => (hafter op ps hps).space⟩
      -- otherwise the text would end in this space
      intro hnil
      exact hs.last (by simp [Lexeme.chars, hnil])
  | .digits run :: ls, ts, hs, hts => by
      obtain ⟨d, ts', hlit, hts', rfl⟩ := ofLexemes?_digits_eq_some hts
      obtain ⟨hbefore, -⟩ := spells_of_lexemes ls ts' hs.tail hts'
      refine ⟨fun ps hps => by simp [pairs?] at hps, fun op ps hps => ?_⟩
      obtain ⟨ps', hps', rfl⟩ := Option.map_eq_some_iff.mp hps
      exact ⟨0, run, Lexeme.text ls, d, ps', rfl, hlit, hbefore ps' hps', rfl⟩
  | .mark c :: ls, ts, hs, hts => by
      obtain ⟨op, ts', rfl, hts', rfl⟩ := ofLexemes?_mark_eq_some hts
      obtain ⟨-, hafter⟩ := spells_of_lexemes ls ts' hs.tail hts'
      refine ⟨fun ps hps => ?_, fun op' ps hps => by simp [pairs?] at hps⟩
      rw [Lexeme.text_cons, Lexeme.chars]
      exact (hafter op ps hps).operator

/-- An expression is read from lexemes that begin with its first literal, or with
the sign of it. -/
theorem ofTokens?_eq_some {ls : List Lexeme} {ts : List Token} {e : Expression}
    (hfirst : ∀ c ls', ls ≠ .blank c :: ls') (hts : Token.ofSignedLexemes? ls = some ts)
    (he : ofTokens? ts = some e) :
    ∃ run ls' d ts' ps, IsLiteral run d ∧ Token.ofLexemes? ls' = some ts' ∧
      pairs? ts' = some ps ∧
      (ls = .digits run :: ls' ∧ e = ⟨d, ps⟩ ∨
        ls = .mark '-' :: .digits run :: ls' ∧ e = ⟨-d, ps⟩) := by
  rw [Token.ofSignedLexemes?.eq_def] at hts
  split at hts
  · exact absurd rfl (hfirst _ _)
  · rename_i run ls'
    obtain ⟨d, hd, hts⟩ := Option.bind_eq_some_iff.mp hts
    obtain ⟨ts', hts', hts⟩ := Option.bind_eq_some_iff.mp hts
    obtain rfl : .number (-d) :: ts' = ts := by simpa using hts
    obtain ⟨ps, hps, rfl⟩ := Option.map_eq_some_iff.mp he
    exact ⟨run, ls', d, ts', ps, .ofValue hd, hts', hps, .inr ⟨rfl, rfl⟩⟩
  · cases ls with
    | nil =>
      obtain rfl : [] = ts := by simpa [Token.ofLexemes?] using hts
      simp [ofTokens?] at he
    | cons l ls =>
      cases l with
      | blank c => exact absurd rfl (hfirst c ls)
      | digits run =>
        obtain ⟨d, ts', hlit, hts', rfl⟩ := ofLexemes?_digits_eq_some hts
        obtain ⟨ps, hps, rfl⟩ := Option.map_eq_some_iff.mp he
        exact ⟨run, ls, d, ts', ps, hlit, hts', hps, .inl ⟨rfl, rfl⟩⟩
      | mark c =>
        -- an operator comes first, which no expression does
        obtain ⟨op, ts', -, -, rfl⟩ := ofLexemes?_mark_eq_some hts
        simp [ofTokens?] at he

/-- A text of expression characters without spaces at its ends. -/
structure Tidy (cs : List Char) : Prop where
  chars : ∀ c ∈ cs, isExpressionChar c = true
  head : cs.head? ≠ some ' '
  last : cs.getLast? ≠ some ' '

theorem Tidy.spaced {cs : List Char} (h : Tidy cs) : Spaced (Lexeme.scan cs) := by
  refine ⟨fun c hc => ?_, by rw [Lexeme.text, Lexeme.flatMap_chars_scan]; exact h.last⟩
  have hblank := Lexeme.isBlank_of_mem_scan hc
  rw [isBlank_eq_space (h.chars c (Lexeme.mem_of_blank_mem_scan hc))] at hblank
  exact eq_of_beq hblank

/-- A tidy text spells what was read from it. -/
theorem spells_of_tokens {cs : List Char} {ts : List Token} {e : Expression}
    (htidy : Tidy cs) (hts : Token.ofChars? cs = some ts) (he : ofTokens? ts = some e) :
    Spells e cs := by
  have hs := htidy.spaced
  have htext : Lexeme.text (Lexeme.scan cs) = cs := Lexeme.flatMap_chars_scan cs
  have hfirst : ∀ c ls, Lexeme.scan cs ≠ .blank c :: ls := by
    intro c ls hscan
    rw [hscan] at hs htext
    obtain rfl : c = ' ' := hs.blanks c (by simp)
    exact htidy.head (by rw [← htext]; rfl)
  rw [← htext]
  rcases ofTokens?_eq_some hfirst hts he with
    ⟨run, ls, d, ts', ps, hlit, hts', hps, ⟨hscan, rfl⟩ | ⟨hscan, rfl⟩⟩
  · rw [hscan] at hs ⊢
    exact .plain hlit ((spells_of_lexemes ls ts' hs.tail hts').1 ps hps)
  · rw [hscan] at hs ⊢
    change Spells _ ('-' :: (run ++ Lexeme.text ls))
    exact .signed hlit ((spells_of_lexemes ls ts' hs.tail.tail hts').1 ps hps)

/-! ## 5. What is read is the repaired text -/

theorem tidy_trimSpaces {cs : List Char} (h : ∀ c ∈ cs, isExpressionChar c = true) :
    Tidy (trimSpaces cs) :=
  ⟨fun c hc => h c (mem_of_mem_strip hc),
    fun hhead => absurd (head?_strip hhead) (by decide),
    fun hlast => absurd (getLast?_strip hlast) (by decide)⟩

theorem Tidy.dropOperator {cs : List Char} (h : Tidy cs) : Tidy (dropOperator cs) := by
  rw [Expression.dropOperator]
  split
  · exact tidy_trimSpaces fun c hc => h.chars c ((List.dropLast_sublist cs).mem hc)
  · exact h

theorem Tidy.completePoint {cs : List Char} (h : Tidy cs) : Tidy (completePoint cs) := by
  rw [Expression.completePoint]
  split
  · rename_i hpoint
    have hne : cs ≠ [] := by rintro rfl; simp at hpoint
    refine ⟨fun c hc => ?_, ?_, by simp⟩
    · rcases List.mem_append.mp hc with hc | hc
      · exact h.chars c hc
      · obtain rfl : c = '0' := by simpa using hc
        rfl
    · rw [List.head?_append_of_ne_nil _ hne]
      exact h.head
  · exact h

theorem tidy_repaired (cs : List Char) : Tidy (repaired cs) :=
  (tidy_trimSpaces fun _ hc => (List.mem_filter.mp hc).2).dropOperator.completePoint

/-- On expression characters, trimming takes off spaces. -/
theorem trimChars_eq_trimSpaces {cs : List Char}
    (h : ∀ c ∈ cs, isExpressionChar c = true) : trimChars cs = trimSpaces cs := by
  rw [trimChars_eq_strip]
  exact strip_congr fun c hc => isBlank_eq_space (h c hc)

theorem withoutTrailingOperator_eq {cs : List Char}
    (h : ∀ c ∈ cs, isExpressionChar c = true) :
    withoutTrailingOperator cs = dropOperator cs := by
  rw [withoutTrailingOperator, dropOperator]
  cases hlast : cs.getLast? with
  | none => simp
  | some c =>
    simp only [Option.any_some]
    rw [trimChars_eq_trimSpaces fun x hx => h x ((List.dropLast_sublist cs).mem hx)]

/-- A text is kept once a point at its end is completed, if it then ends in a
digit. -/
theorem completed?_eq (cs : List Char) :
    completed? cs =
      if (completePoint cs).getLast?.any Char.isDigit then some (completePoint cs)
      else none := by
  rw [completed?, completePoint]
  cases hlast : cs.getLast? with
  | none => simp [hlast]
  | some c =>
    by_cases hc : c = '.'
    · simp [hc]
    · simp [hc, hlast]

theorem readable?_eq (cs : List Char) :
    readable? cs =
      if (repaired cs).getLast?.any Char.isDigit then some (repaired cs) else none := by
  have hchars : ∀ c ∈ cs.filter isExpressionChar, isExpressionChar c = true :=
    fun c hc => (List.mem_filter.mp hc).2
  rw [readable?, trimChars_eq_trimSpaces hchars,
    withoutTrailingOperator_eq (tidy_trimSpaces hchars).chars, completed?_eq]
  rfl

/-- A repaired text does not end in a point. -/
theorem getLast?_repaired (cs : List Char) : (repaired cs).getLast? ≠ some '.' := by
  rw [repaired, completePoint]
  split
  · simp
  · assumption

/-- Every text that spells an expression is read. -/
theorem readable?_of_spells {cs : List Char} {e : Expression}
    (h : Spells e (repaired cs)) : readable? cs = some (repaired cs) := by
  obtain ⟨c, hc, hnum⟩ := h.getLast?
  have hpoint : c ≠ '.' := by
    rintro rfl
    exact getLast?_repaired cs hc
  have hdigit : c.isDigit = true := by
    simpa [Decimal.isNumeralChar, hpoint] using hnum
  rw [readable?_eq, hc]
  simp [hdigit]

/-! ## 6. The language and its meaning -/

/-- What is spelled is evaluated. -/
theorem evaluateChars_of_spells {cs : List Char} {e : Expression} (h : Spells e (repaired cs)) :
    evaluateChars cs = e.value? := by
  obtain ⟨ts, hts, he⟩ := tokens_of_spells h
  simp [evaluateChars, readable?_of_spells h, hts, he]

/-- **Evaluation accepts exactly its language and computes its meaning.** A text
has the value `v` exactly when what it stands for spells an expression whose sum
of products is `v`; in every other case it has none. -/
theorem evaluate_eq_some_iff (typed : String) (v : Decimal) :
    evaluate typed = some v ↔
      repaired typed.toList ≠ [] ∧
        ∃ e, Spells e (repaired typed.toList) ∧ e.sumOfProducts? = some v := by
  constructor
  · intro h
    obtain ⟨cs, hcs, h⟩ := Option.bind_eq_some_iff.mp h
    obtain ⟨ts, hts, h⟩ := Option.bind_eq_some_iff.mp h
    obtain ⟨e, he, hv⟩ := Option.bind_eq_some_iff.mp h
    obtain rfl : repaired typed.toList = cs := by
      rw [readable?_eq] at hcs
      split at hcs
      · simpa using hcs
      · simp at hcs
    have hspells := spells_of_tokens (tidy_repaired _) hts he
    obtain ⟨c, hc, -⟩ := hspells.getLast?
    refine ⟨?_, e, hspells, by rw [← value?_eq_sumOfProducts?, hv]⟩
    rintro hnil
    simp [hnil] at hc
  · rintro ⟨-, e, hspells, hv⟩
    obtain ⟨ts, hts, he⟩ := tokens_of_spells hspells
    simp [evaluate, evaluateChars, readable?_of_spells hspells, hts, he,
      value?_eq_sumOfProducts?, hv]

end CurrencyPad.Expression
