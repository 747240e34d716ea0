/-
CurrencyPad.Proofs.Expression.Appending — an operator and an operand at the
end of a text.

A text that is typed on keeps its tokens: the operator is one more token
and so is the operand after it (`evaluateChars_append`). What this does to
the value depends on the operator. One that binds no tighter than a sum is
applied to the value of all that stands before it
(`tokensValue?_append`); any other joins the last product, and what it
makes of that is all that counts (`map_toRat_tokensValue?_congr`).

A text without foreign characters that ends in a digit is read as it
stands. One that ends in a point is read with a zero after it, which makes
no difference to a literal (`evaluateChars_of_tidy`).
-/
import CurrencyPad.Proofs.Expression.Operator
import CurrencyPad.Proofs.Expression.Printing

namespace CurrencyPad

/-! ## 1. Lexemes -/

namespace Lexeme

/-- An operator cuts a text in two. -/
theorem scan_append_operator (op : Operator) (cs ds : List Char) :
    scan (cs ++ op.toChar :: ds) = scan cs ++ .mark op.toChar :: scan ds := by
  induction cs with
  | nil => exact scan_operator op ds
  | cons c r ih =>
    rw [List.cons_append, scan, scan, ih]
    split
    · cases scan r with
      | nil => rfl
      | cons l ls => cases l <;> rfl
    · split <;> rfl

/-- The last run of a text grows with it, and nothing else does. -/
theorem exists_scan_append {cs : List Char} {c : Char} (hlast : cs.getLast? = some c)
    (hnum : Decimal.isNumeralChar c = true) :
    ∃ ls run, run.getLast? = some c ∧
      ∀ more : List Char, (∀ x ∈ more, Decimal.isNumeralChar x = true) →
        scan (cs ++ more) = ls ++ [.digits (run ++ more)] := by
  induction cs with
  | nil => simp at hlast
  | cons d r ih =>
    cases hr : r with
    | nil =>
      obtain rfl : d = c := by simpa [hr] using hlast
      refine ⟨[], [d], rfl, fun more hmore => ?_⟩
      have hall : ∀ x ∈ d :: more, Decimal.isNumeralChar x = true := by simpa [hnum] using hmore
      simpa using scan_numeral (List.cons_ne_nil d more) hall
    | cons d' r' =>
      rw [← hr]
      obtain ⟨ls, run, hrun, hscan⟩ := ih (by simpa [hr] using hlast)
      by_cases hd : Decimal.isNumeralChar d = true
      · -- the character joins the run that comes next, if there is one
        cases ls with
        | nil =>
          refine ⟨[], d :: run, by simp [List.getLast?_cons, hrun], fun more hmore => ?_⟩
          rw [List.cons_append, scan, if_pos hd, hscan more hmore]
          rfl
        | cons l ls =>
          cases l with
          | digits run' =>
            refine ⟨.digits (d :: run') :: ls, run, hrun, fun more hmore => ?_⟩
            rw [List.cons_append, scan, if_pos hd, hscan more hmore]
            rfl
          | blank x =>
            refine ⟨.digits [d] :: .blank x :: ls, run, hrun, fun more hmore => ?_⟩
            rw [List.cons_append, scan, if_pos hd, hscan more hmore]
            rfl
          | mark x =>
            refine ⟨.digits [d] :: .mark x :: ls, run, hrun, fun more hmore => ?_⟩
            rw [List.cons_append, scan, if_pos hd, hscan more hmore]
            rfl
      · by_cases hblank : Text.isBlank d = true
        · refine ⟨.blank d :: ls, run, hrun, fun more hmore => ?_⟩
          rw [List.cons_append, scan, if_neg hd, if_pos hblank, hscan more hmore,
            List.cons_append]
        · refine ⟨.mark d :: ls, run, hrun, fun more hmore => ?_⟩
          rw [List.cons_append, scan, if_neg hd, if_neg hblank, hscan more hmore,
            List.cons_append]

end Lexeme

/-! ## 2. Tokens -/

namespace Token

theorem ofLexemes?_append (ls ls' : List Lexeme) :
    ofLexemes? (ls ++ ls') =
      (ofLexemes? ls).bind fun ts => (ofLexemes? ls').map (ts ++ ·) := by
  induction ls with
  | nil => simp [ofLexemes?]
  | cons l ls ih =>
    cases l with
    | blank c => simpa [ofLexemes?] using ih
    | digits run =>
      simp only [List.cons_append, ofLexemes?, ih]
      cases Decimal.ofLiteral? run <;> cases ofLexemes? ls <;> cases ofLexemes? ls' <;> rfl
    | mark c =>
      simp only [List.cons_append, ofLexemes?, ih]
      cases Operator.ofChar? c <;> cases ofLexemes? ls <;> cases ofLexemes? ls' <;> rfl

/-- Only a minus sign is the sign of a number. -/
theorem ofSignedLexemes?_mark {c : Char} (hc : c ≠ '-') (ls : List Lexeme) :
    ofSignedLexemes? (.mark c :: ls) = ofLexemes? (.mark c :: ls) := by
  rw [ofSignedLexemes?.eq_def]
  split <;> simp_all

/-- After a text that is not empty, a sign is an operator. -/
theorem ofSignedLexemes?_append {ls ls' : List Lexeme} (hne : ls ≠ [])
    (hblank : ∀ c, .blank c ∉ ls) (hstart : ∀ run rest, ls' ≠ .digits run :: rest) :
    ofSignedLexemes? (ls ++ ls') =
      (ofSignedLexemes? ls).bind fun ts => (ofLexemes? ls').map (ts ++ ·) := by
  cases ls with
  | nil => exact absurd rfl hne
  | cons l ls =>
    cases l with
    | blank c => exact absurd (by simp) (hblank c)
    | digits run => exact ofLexemes?_append (.digits run :: ls) ls'
    | mark c =>
      by_cases hc : c = '-'
      · subst hc
        cases ls with
        | nil =>
          cases ls' with
          | nil => rfl
          | cons l' rest =>
            cases l' with
            | digits run => exact absurd rfl (hstart run rest)
            | blank c => exact ofLexemes?_append [.mark '-'] (.blank c :: rest)
            | mark c => exact ofLexemes?_append [.mark '-'] (.mark c :: rest)
        | cons l ls =>
          cases l with
          | blank c => exact absurd (by simp) (hblank c)
          | mark c => exact ofLexemes?_append (.mark '-' :: .mark c :: ls) ls'
          | digits run =>
            simp only [List.cons_append, ofSignedLexemes?, ofLexemes?_append]
            cases Decimal.ofLiteral? run <;> cases ofLexemes? ls <;> cases ofLexemes? ls' <;> rfl
      · rw [List.cons_append, ofSignedLexemes?_mark hc, ofSignedLexemes?_mark hc]
        exact ofLexemes?_append (.mark c :: ls) ls'

/-- A literal at the end may be replaced by another spelling of it. -/
theorem ofSignedLexemes?_concat_digits {ls : List Lexeme} {run run' : List Char}
    {ts : List Token} (hrun : ∀ d, Decimal.ofLiteral? run = some d → Decimal.ofLiteral? run' = some d)
    (h : ofSignedLexemes? (ls ++ [.digits run]) = some ts) :
    ofSignedLexemes? (ls ++ [.digits run']) = some ts := by
  have hplain (ls : List Lexeme) {ts : List Token} (h : ofLexemes? (ls ++ [.digits run]) = some ts) :
      ofLexemes? (ls ++ [.digits run']) = some ts := by
    rw [ofLexemes?_append] at h ⊢
    obtain ⟨ts', hts', h⟩ := Option.bind_eq_some_iff.mp h
    rw [hts', Option.bind_some]
    cases hd : Decimal.ofLiteral? run with
    | none => simp [ofLexemes?, hd] at h
    | some d => simpa [ofLexemes?, hd, hrun d hd] using h
  induction ls generalizing ts with
  | nil => exact hplain [] h
  | cons l ls ih =>
    cases l with
    | blank c => exact ih h
    | digits run'' => exact hplain (.digits run'' :: ls) h
    | mark c =>
      by_cases hc : c = '-'
      · subst hc
        cases ls with
        | nil =>
          cases hd : Decimal.ofLiteral? run with
          | none => simp [ofSignedLexemes?, hd] at h
          | some d => simpa [ofSignedLexemes?, hd, hrun d hd] using h
        | cons l ls =>
          cases l with
          | blank c => exact hplain (.mark '-' :: .blank c :: ls) h
          | mark c => exact hplain (.mark '-' :: .mark c :: ls) h
          | digits run'' =>
            simp only [List.cons_append, ofSignedLexemes?] at h ⊢
            obtain ⟨d, hd, h⟩ := Option.bind_eq_some_iff.mp h
            obtain ⟨ts', hts', h⟩ := Option.bind_eq_some_iff.mp h
            simp only [hd, hplain _ hts', Option.bind_eq_bind, Option.bind_some]
            exact h
      · rw [List.cons_append, ofSignedLexemes?_mark hc] at h ⊢
        exact hplain (.mark c :: ls) h

/-- An operator and a literal at the end of a text are two tokens at the end of its
tokens. -/
theorem ofChars?_append {cs run : List Char} {d : Decimal} (hne : cs ≠ [])
    (hchars : ∀ c ∈ cs, Text.isBlank c = false) (op : Operator) (hrun : run ≠ [])
    (hnum : ∀ c ∈ run, Decimal.isNumeralChar c = true) (hd : Decimal.ofLiteral? run = some d) :
    ofChars? (cs ++ op.toChar :: run) = (ofChars? cs).map (· ++ [.operator op, .number d]) := by
  have hscan := Lexeme.scan_numeral hrun hnum
  have hls : Lexeme.scan cs ≠ [] := by
    intro hnil
    have htext := Lexeme.flatMap_chars_scan cs
    rw [hnil] at htext
    exact hne htext.symm
  have hblank : ∀ c, .blank c ∉ Lexeme.scan cs := by
    intro c hc
    have := hchars c (Lexeme.mem_of_blank_mem_scan hc)
    rw [Lexeme.isBlank_of_mem_scan hc] at this
    exact absurd this (by decide)
  rw [ofChars?, Lexeme.scan_append_operator, hscan,
    ofSignedLexemes?_append hls hblank (by simp), ofChars?]
  simp [ofLexemes?, hd, Option.map_eq_bind]

end Token

/-! ## 3. Values -/

namespace Expression

/-- The value of a row of tokens, if it is an expression and has one. -/
def tokensValue? (ts : List Token) : Option Decimal := (ofTokens? ts).bind value?

theorem pairs?_append (ts : List Token) (op : Operator) (b : Decimal) :
    pairs? (ts ++ [.operator op, .number b]) = (pairs? ts).map (· ++ [(op, b)]) := by
  fun_induction pairs? ts with
  | case1 => rfl
  | case2 op' b' rest ih =>
    simp only [List.cons_append, pairs?, ih, Option.map_map]
    rfl
  | case3 ts hnil hpair =>
    rw [Option.map_none]
    cases ts with
    | nil => exact absurd rfl hnil
    | cons t rest =>
      cases t with
      | number a => rfl
      | operator op' =>
        cases rest with
        | nil => rfl
        | cons t rest =>
          cases t with
          | number b' => exact absurd rfl (hpair op' b' rest)
          | operator op'' => rfl

theorem ofTokens?_append (ts : List Token) (op : Operator) (b : Decimal) :
    ofTokens? (ts ++ [.operator op, .number b]) =
      (ofTokens? ts).map fun e => ⟨e.first, e.rest ++ [(op, b)]⟩ := by
  cases ts with
  | nil => rfl
  | cons t rest =>
    cases t with
    | operator op' => rfl
    | number a =>
      simp only [List.cons_append, ofTokens?, pairs?_append, Option.map_map]
      rfl

/-- **A sum or difference at the end** is taken of the value of what stands before. -/
theorem tokensValue?_append (ts : List Token) {op : Operator} (hop : op.bindsTighter = false)
    (b : Decimal) :
    tokensValue? (ts ++ [.operator op, .number b]) = (tokensValue? ts).bind (op.apply · b) := by
  have hpush (s : SumOfProducts) :
      (s.push (op, b)).bind SumOfProducts.close = s.close.bind (op.apply · b) := by
    rw [SumOfProducts.push, if_neg (by simp [hop]), SumOfProducts.close]
    cases s.pending.apply s.total s.term <;> rfl
  rw [tokensValue?, tokensValue?, ofTokens?_append]
  cases ofTokens? ts with
  | none => rfl
  | some e =>
    simp only [Option.map_some, Option.bind_some, value?, List.foldlM_append]
    cases e.rest.foldlM SumOfProducts.push (.start e.first) with
    | none => rfl
    | some s => simpa using hpush s

/-- What waits for the current term is a sum or a difference. -/
theorem bindsTighter_pending {rest : List (Operator × Decimal)} {s t : SumOfProducts}
    (hs : s.pending.bindsTighter = false) (h : rest.foldlM SumOfProducts.push s = some t) :
    t.pending.bindsTighter = false := by
  induction rest generalizing s with
  | nil => obtain rfl := Option.some.inj h; exact hs
  | cons p rest ih =>
    obtain ⟨s', hpush, h⟩ := Option.bind_eq_some_iff.mp h
    refine ih ?_ h
    rw [SumOfProducts.push] at hpush
    split at hpush
    · obtain ⟨x, -, rfl⟩ := Option.map_eq_some_iff.mp hpush
      exact hs
    · rename_i htight
      obtain ⟨x, -, rfl⟩ := Option.map_eq_some_iff.mp hpush
      simpa using htight

/-- The spelling of the last term makes no difference to a sum or difference. -/
theorem map_toRat_close_congr {s t : SumOfProducts} (htotal : s.total = t.total)
    (hpending : s.pending = t.pending) (hsum : s.pending.bindsTighter = false)
    (hterm : s.term.toRat = t.term.toRat) :
    s.close.map Decimal.toRat = t.close.map Decimal.toRat := by
  rw [SumOfProducts.close, SumOfProducts.close, ← htotal, ← hpending]
  cases hop : s.pending with
  | add => exact Decimal.map_toRat_add?_congr rfl hterm
  | subtract => exact Decimal.map_toRat_sub?_congr rfl hterm
  | multiply => simp [hop, Operator.bindsTighter] at hsum
  | divide => simp [hop, Operator.bindsTighter] at hsum

/-- The product at the end of the tokens, which a factor or divisor after them joins. -/
def lastProduct? (ts : List Token) : Option Decimal :=
  (ofTokens? ts).bind fun e =>
    (e.rest.foldlM SumOfProducts.push (.start e.first)).map (·.term)

/-- **A factor or divisor at the end** may be replaced by another one that makes the same number
of the last product. -/
theorem map_toRat_tokensValue?_congr {ts : List Token} {op : Operator} {b c : Decimal}
    (hop : op.bindsTighter = true)
    (h : ∀ t, lastProduct? ts = some t →
      (op.apply t b).map Decimal.toRat = (op.apply t c).map Decimal.toRat) :
    (tokensValue? (ts ++ [.operator op, .number b])).map Decimal.toRat =
      (tokensValue? (ts ++ [.operator op, .number c])).map Decimal.toRat := by
  have hpush (s : SumOfProducts) (b : Decimal) :
      s.push (op, b) = (op.apply s.term b).map ({ s with term := · }) := if_pos hop
  rw [tokensValue?, tokensValue?, ofTokens?_append, ofTokens?_append]
  cases he : ofTokens? ts with
  | none => rfl
  | some e =>
    simp only [Option.map_some, Option.bind_some, value?, List.foldlM_append]
    cases hs : e.rest.foldlM SumOfProducts.push (.start e.first) with
    | none => simp only [Option.bind_eq_bind, Option.bind_none, Option.map_none]
    | some s =>
      have hsum : s.pending.bindsTighter = false := bindsTighter_pending rfl hs
      have hsame := h s.term (by simp [lastProduct?, he, hs])
      simp only [Option.bind_eq_bind, Option.bind_some, List.foldlM_cons, List.foldlM_nil, hpush]
      cases hx : op.apply s.term b with
      | none =>
        have hy : op.apply s.term c = none := by simpa [hx] using hsame.symm
        rw [hy]
      | some x =>
        obtain ⟨y, hy, hxy⟩ : ∃ y, op.apply s.term c = some y ∧ y.toRat = x.toRat := by
          simpa [hx] using hsame.symm
        rw [hy]
        exact map_toRat_close_congr rfl rfl hsum hxy.symm

/-! ## 4. Texts that are read as they stand -/

theorem ofLiteral?_concat_zero {run : List Char} {d : Decimal} (hpoint : run.getLast? = some '.')
    (h : Decimal.ofLiteral? run = some d) : Decimal.ofLiteral? (run ++ ['0']) = some d := by
  have hclosed : Decimal.withFraction (run ++ ['0']) = Decimal.withFraction run := by
    rw [Decimal.withFraction, Decimal.withFraction, if_pos hpoint, if_neg (by simp)]
  rw [Decimal.ofLiteral?, hclosed]
  rw [Decimal.ofLiteral?] at h
  split at h
  · rename_i hdigit
    rw [if_pos (by simp [hdigit])]
    exact h
  · simp at h

/-- Completing a point at the end of a text does not change its tokens. -/
theorem ofChars?_completePoint {cs : List Char} {ts : List Token}
    (h : Token.ofChars? cs = some ts) : Token.ofChars? (completePoint cs) = some ts := by
  rw [completePoint]
  split
  · rename_i hpoint
    obtain ⟨ls, run, hrun, hscan⟩ := Lexeme.exists_scan_append hpoint rfl
    have hcs := hscan [] (by simp)
    rw [List.append_nil, List.append_nil] at hcs
    rw [Token.ofChars?, hcs] at h
    rw [Token.ofChars?, hscan ['0'] (List.forall_mem_singleton.mpr rfl)]
    exact Token.ofSignedLexemes?_concat_digits (fun d => ofLiteral?_concat_zero hrun) h
  · exact h

/-- A tidy text that ends in a digit or a point, and that is made of tokens, has the value
of these tokens. -/
theorem evaluateChars_of_tidy {cs : List Char} {ts : List Token} (htidy : Tidy cs)
    (hlast : ∃ c, cs.getLast? = some c ∧ Decimal.isNumeralChar c = true)
    (hts : Token.ofChars? cs = some ts) : evaluateChars cs = tokensValue? ts := by
  have hdigit : (completePoint cs).getLast?.any Char.isDigit = true := by
    obtain ⟨c, hc, hnum⟩ := hlast
    rw [completePoint]
    split
    · simp
    · rename_i hpoint
      have hne : c ≠ '.' := by
        rintro rfl
        exact hpoint hc
      simpa [hc, Decimal.isNumeralChar, hne] using hnum
  rw [evaluateChars, readable?_eq, repaired_eq_completePoint htidy hlast, if_pos hdigit]
  simp [ofChars?_completePoint hts, tokensValue?]

/-- A tidy text that ends in a digit, and that is not made of tokens, has no value. -/
theorem evaluateChars_of_tidy_eq_none {cs : List Char} (htidy : Tidy cs)
    (hlast : ∃ c, cs.getLast? = some c ∧ c.isDigit = true)
    (hts : Token.ofChars? cs = none) : evaluateChars cs = none := by
  rw [evaluateChars, readable?_eq, repaired_eq_self htidy hlast]
  split <;> simp [hts]

theorem getLast?_append_operator (cs : List Char) (op : Operator) {run : List Char}
    (hrun : run ≠ []) : (cs ++ op.toChar :: run).getLast? = run.getLast? := by
  rw [List.getLast?_append, List.getLast?_cons, List.getLast?_eq_some_getLast hrun]
  rfl

theorem tidy_append {cs run : List Char} (hne : cs ≠ [])
    (hchars : ∀ c ∈ cs, isExpressionChar c = true ∧ c ≠ ' ') (op : Operator) (hrun : run ≠ [])
    (hnum : ∀ c ∈ run, Decimal.isNumeralChar c = true) : Tidy (cs ++ op.toChar :: run) where
  chars := by
    intro c hc
    rcases List.mem_append.mp hc with hc | hc
    · exact (hchars c hc).1
    · rcases List.mem_cons.mp hc with rfl | hc
      · simp [isExpressionChar]
      · have := hnum c hc
        simp only [Decimal.isNumeralChar, Bool.or_eq_true] at this
        rcases this with h | h <;> simp [isExpressionChar, h]
  head := by
    rw [List.head?_append_of_ne_nil _ hne]
    intro hhead
    exact (hchars ' ' (List.mem_of_mem_head? hhead)).2 rfl
  last := by
    rw [getLast?_append_operator cs op hrun]
    intro hspace
    exact absurd (hnum ' ' (List.mem_of_getLast? hspace)) (by decide)

/-- A literal at the end of a text is not empty and has its last character in sight. -/
theorem exists_getLast?_of_ofLiteral? {run : List Char} {d : Decimal}
    (hd : Decimal.ofLiteral? run = some d) (cs : List Char) (op : Operator) :
    run ≠ [] ∧ ∃ c, (cs ++ op.toChar :: run).getLast? = some c ∧
      Decimal.isNumeralChar c = true := by
  have hlit := IsLiteral.ofValue hd
  obtain ⟨c, hc⟩ := Option.isSome_iff_exists.mp (List.getLast?_isSome.mpr hlit.ne_nil)
  exact ⟨hlit.ne_nil, c, by rw [getLast?_append_operator cs op hlit.ne_nil, hc],
    hlit.shape.numeral c (List.mem_of_getLast? hc)⟩

theorem ofChars?_append {cs run : List Char} {d : Decimal} (hne : cs ≠ [])
    (hchars : ∀ c ∈ cs, isExpressionChar c = true ∧ c ≠ ' ') (op : Operator)
    (hd : Decimal.ofLiteral? run = some d) :
    Token.ofChars? (cs ++ op.toChar :: run) =
      (Token.ofChars? cs).map (· ++ [.operator op, .number d]) := by
  have hblank : ∀ c ∈ cs, Text.isBlank c = false := fun c hc => by
    rw [isBlank_eq_space (hchars c hc).1]
    simpa using (hchars c hc).2
  have hlit := IsLiteral.ofValue hd
  exact Token.ofChars?_append hne hblank op hlit.ne_nil hlit.shape.numeral hd

/-- **What is typed after a text that is made of tokens** joins these, also while its point
is the last character. -/
theorem evaluateChars_append_of_tokens {cs run : List Char} {d : Decimal} {ts : List Token}
    (hne : cs ≠ []) (hchars : ∀ c ∈ cs, isExpressionChar c = true ∧ c ≠ ' ') (op : Operator)
    (hd : Decimal.ofLiteral? run = some d) (hts : Token.ofChars? cs = some ts) :
    evaluateChars (cs ++ op.toChar :: run) = tokensValue? (ts ++ [.operator op, .number d]) := by
  obtain ⟨hrun, hlast⟩ := exists_getLast?_of_ofLiteral? hd cs op
  have htokens := ofChars?_append hne hchars op hd
  rw [hts] at htokens
  exact evaluateChars_of_tidy
    (tidy_append hne hchars op hrun (Decimal.shape_of_ofLiteral? hd).numeral) hlast htokens

/-- **What is typed after a text** joins its tokens: a text that goes on with an operator
and a literal has the value of its tokens with these two at the end. -/
theorem evaluateChars_append {cs run : List Char} {d : Decimal} (hne : cs ≠ [])
    (hchars : ∀ c ∈ cs, isExpressionChar c = true ∧ c ≠ ' ') (op : Operator)
    (hd : Decimal.ofLiteral? run = some d)
    (hlast : ∃ c, run.getLast? = some c ∧ c.isDigit = true) :
    evaluateChars (cs ++ op.toChar :: run) =
      (Token.ofChars? cs).bind fun ts => tokensValue? (ts ++ [.operator op, .number d]) := by
  cases hts : Token.ofChars? cs with
  | some ts => exact evaluateChars_append_of_tokens hne hchars op hd hts
  | none =>
    obtain ⟨hrun, -⟩ := exists_getLast?_of_ofLiteral? hd cs op
    have htokens := ofChars?_append hne hchars op hd
    rw [hts] at htokens
    refine evaluateChars_of_tidy_eq_none
      (tidy_append hne hchars op hrun (Decimal.shape_of_ofLiteral? hd).numeral) ?_ htokens
    rwa [getLast?_append_operator cs op hrun]

/-! ## 5. Two operands -/

theorem tokensValue?_number (d : Decimal) : tokensValue? [.number d] = some d := value?_operand d

/-- Two operands have the value of the operation. -/
theorem tokensValue?_operator (a : Decimal) (op : Operator) (b : Decimal) :
    tokensValue? [.number a, .operator op, .number b] = op.apply a b := by
  cases hop : op.bindsTighter with
  | false =>
    have happend := tokensValue?_append [.number a] hop b
    rw [tokensValue?_number, Option.bind_some] at happend
    exact happend
  | true =>
    have hpush : tokensValue? [.number a, .operator op, .number b] =
        (op.apply a b).bind (Decimal.zero.add? ·) := by
      simp only [tokensValue?, ofTokens?, pairs?, value?, SumOfProducts.start, SumOfProducts.push,
        hop, if_true, Option.map_some, Option.bind_some, List.foldlM_cons, List.foldlM_nil]
      cases op.apply a b <;> rfl
    rw [hpush]
    cases op.apply a b <;> rfl

end Expression
end CurrencyPad
