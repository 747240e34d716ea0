/-
CurrencyPad.Proofs.Json.Lexing — the symbols of a written text are the
symbols that were written.

Symbols are written side by side, and only words need something that ends
them: a number or a literal goes on as long as there are word characters.
So each symbol is read from its text whatever comes after it, as long as
that does not go on with a word character (`lexFrom?_scalar`,
`lexFrom?_mark`).

A string is written character by character. One that is escaped by its
code comes back as a UTF-16 unit, any other as itself (`partOf`), and the
parts together decode to the text.
-/
import Mathlib.Tactic.SplitIfs
import CurrencyPad.Json.Symbol

namespace CurrencyPad.Json

open Text

/-! ## 1. The characters of a string -/

/-- How a written character is read back. -/
def partOf (c : Char) : Part :=
  if escapeLetter? c = none ∧ c.toNat < 32 then .unit c.toNat else .char c

theorem escaped?_of_escapeLetter? {c e : Char} (h : escapeLetter? c = some e) :
    escaped? e = some c ∧ e ≠ 'u' := by
  unfold escapeLetter? at h
  split_ifs at h with hc hc hc hc hc hc hc
  all_goals
    obtain rfl := Option.some.inj h
    rw [hc]
    decide

theorem hexValue?_digitChar {n : Nat} (h : n < 16) : hexValue? (Nat.digitChar n) = some n := by
  have : ∀ n < 16, hexValue? (Nat.digitChar n) = some n := by decide
  exact this n h

/-- A character between quotes is read back as one part. -/
theorem lexFrom?_encodeChar (seen : List Part) (c : Char) (rest : List Glyph) :
    lexFrom? (.string seen) ((encodeChar c).map some ++ rest) =
      lexFrom? (.string (partOf c :: seen)) rest := by
  cases hletter : escapeLetter? c with
  | some e =>
    obtain ⟨hescaped, hunit⟩ := escaped?_of_escapeLetter? hletter
    have hpart : partOf c = .char c := by simp [partOf, hletter]
    simp [encodeChar, hletter, lexFrom?, step?, hunit, hescaped, hpart]
  | none =>
    by_cases hcontrol : c.toNat < 32
    · have hpart : partOf c = .unit c.toNat := by simp [partOf, hletter, hcontrol]
      have hvalue : 16 * (c.toNat / 16) + c.toNat % 16 = c.toNat := by omega
      have hhigh := hexValue?_digitChar (n := c.toNat / 16) (by omega)
      have hlow := hexValue?_digitChar (n := c.toNat % 16) (by omega)
      have hzero : hexValue? '0' = some 0 := by decide
      simp [encodeChar, hletter, hcontrol, lexFrom?, step?, hzero, hhigh, hlow, hvalue, hpart]
    · have hpart : partOf c = .char c := by simp [partOf, hcontrol]
      have hquote : c ≠ '"' := by rintro rfl; simp [escapeLetter?] at hletter
      have hslash : c ≠ '\\' := by rintro rfl; simp [escapeLetter?] at hletter
      simp [encodeChar, hletter, hcontrol, lexFrom?, step?, hquote, hslash, hpart]

theorem decode_partOf_cons (c : Char) (parts : List Part) :
    decode (partOf c :: parts) = (decode parts).map (c :: ·) := by
  unfold partOf
  split_ifs with hcontrol
  · have hhigh : isHighUnit c.toNat = false := by simp [isHighUnit]; omega
    have hlow : isLowUnit c.toNat = false := by simp [isLowUnit]; omega
    rw [decode.eq_def]
    simp [hhigh, hlow]
  · rw [decode.eq_def]

theorem decode_map_partOf (cs : List Char) : decode (cs.map partOf) = some cs := by
  induction cs with
  | nil => rfl
  | cons c r ih => rw [List.map_cons, decode_partOf_cons, ih, Option.map_some]

theorem lexFrom?_flatMap_encodeChar (seen : List Part) (cs : List Char) (rest : List Glyph) :
    lexFrom? (.string seen) ((cs.flatMap encodeChar).map some ++ rest) =
      lexFrom? (.string ((cs.map partOf).reverse ++ seen)) rest := by
  induction cs generalizing seen with
  | nil => rfl
  | cons c r ih =>
    rw [List.flatMap_cons, List.map_append, List.append_assoc, lexFrom?_encodeChar, ih]
    simp

/-- A quoted text is read as a string. -/
theorem lexFrom?_encode (cs : List Char) (rest : List Glyph) :
    lexFrom? .between ((encode cs).map some ++ rest) =
      (lexFrom? .between rest).map (.scalar (.string (some (String.ofList cs))) :: ·) := by
  have hopen (more : List Glyph) :
      lexFrom? .between (some '"' :: more) = lexFrom? (.string []) more := by
    simp [lexFrom?, step?, begin?]
  have hclose (seen : List Part) (more : List Glyph) :
      lexFrom? (.string seen) (some '"' :: more) =
        (lexFrom? .between more).map (.scalar (.ofParts seen.reverse) :: ·) := by
    cases hmore : lexFrom? .between more <;> simp [lexFrom?, step?, hmore]
  rw [encode, List.cons_append, List.map_cons, List.cons_append, hopen, List.map_append,
    List.append_assoc, lexFrom?_flatMap_encodeChar, List.map_cons, List.map_nil,
    List.singleton_append, hclose]
  simp [Scalar.ofParts, decode_map_partOf]

/-! ## 2. Words -/

/-- The text does not go on with a word character. -/
def Delimited (rest : List Glyph) : Prop := ∀ c, rest.head? = some (some c) → isWordChar c = false

theorem delimited_nil : Delimited [] := by simp [Delimited]

theorem delimited_cons {c : Char} (h : isWordChar c = false) (rest : List Glyph) :
    Delimited (some c :: rest) := by
  intro d hd
  obtain rfl : c = d := by simpa using hd
  exact h

/-- A character that a word may begin with begins one. -/
theorem begin?_of_isWordChar {c : Char} (h : isWordChar c = true) :
    begin? c = some ([], .word [c]) := by
  have hgap : isGap c = false := by
    cases hgap : isGap c with
    | false => rfl
    | true =>
      simp only [isGap, Bool.or_eq_true, beq_iff_eq] at hgap
      rcases hgap with ((rfl | rfl) | rfl) | rfl <;> exact absurd h (by decide)
  unfold begin?
  split <;> first
    | exact absurd h (by decide)
    | simp [hgap, h]

/-- The end of a word. -/
theorem lexFrom?_word_end {seen : List Char} {s : Scalar} (hword : Scalar.ofWord? seen.reverse = some s)
    {rest : List Glyph} (hrest : Delimited rest) :
    lexFrom? (.word seen) rest = (lexFrom? .between rest).map (.scalar s :: ·) := by
  cases rest with
  | nil => simp [lexFrom?, finish?, hword]
  | cons g more =>
    cases g with
    | none => rfl
    | some c =>
      have hc : isWordChar c = false := hrest c rfl
      simp only [lexFrom?, step?, hc, hword]
      cases hbegin : begin? c with
      | none => simp
      | some p =>
        obtain ⟨out, mode⟩ := p
        cases hmore : lexFrom? mode more <;> simp [hmore]

theorem lexFrom?_word {seen w : List Char} (hw : ∀ c ∈ w, isWordChar c = true) (rest : List Glyph) :
    lexFrom? (.word seen) (w.map some ++ rest) = lexFrom? (.word (w.reverse ++ seen)) rest := by
  induction w generalizing seen with
  | nil => rfl
  | cons c r ih =>
    have hc : isWordChar c = true := hw c (by simp)
    have hstep : lexFrom? (.word seen) (some c :: (r.map some ++ rest)) =
        lexFrom? (.word (c :: seen)) (r.map some ++ rest) := by
      cases h : lexFrom? (.word (c :: seen)) (r.map some ++ rest) <;>
        simp [lexFrom?, step?, hc, h]
    rw [List.map_cons, List.cons_append, hstep, ih fun x hx => hw x (by simp [hx])]
    simp

/-- A word is read as its scalar, if it ends where it should. -/
theorem lexFrom?_ofWord {w : List Char} {s : Scalar} (hne : w ≠ [])
    (hall : w.all isWordChar = true) (hword : Scalar.ofWord? w = some s)
    {rest : List Glyph} (hrest : Delimited rest) :
    lexFrom? .between (w.map some ++ rest) = (lexFrom? .between rest).map (.scalar s :: ·) := by
  have hw := List.all_eq_true.mp hall
  obtain ⟨c, r, rfl⟩ := List.exists_cons_of_ne_nil hne
  have hbegin : lexFrom? .between (some c :: (r.map some ++ rest)) =
      lexFrom? (.word [c]) (r.map some ++ rest) := by
    cases h : lexFrom? (.word [c]) (r.map some ++ rest) <;>
      simp [lexFrom?, step?, begin?_of_isWordChar (hw c (by simp)), h]
  rw [List.map_cons, List.cons_append, hbegin, lexFrom?_word fun x hx => hw x (by simp [hx])]
  exact lexFrom?_word_end (by simpa using hword) hrest

/-! ## 3. Symbols -/

/-- A scalar whose text is read back as that scalar. -/
def Scalar.Legible : Scalar → Prop
  | .null | .bool _ => True
  | .number n => Numeral.ofChars? n.chars = some n ∧ ∀ c ∈ n.chars, isWordChar c = true
  | .string s => s.isSome = true

/-- A numeral is none of the literals. -/
theorem Scalar.ofWord?_chars {n : Numeral} (h : Numeral.ofChars? n.chars = some n) :
    Scalar.ofWord? n.chars = some (.number n) := by
  have hliteral (w : String) (hw : Numeral.ofChars? w.toList = none) : n.chars ≠ w.toList := by
    intro heq
    rw [heq, hw] at h
    cases h
  rw [ofWord?, if_neg (hliteral "null" (by decide)), if_neg (hliteral "true" (by decide)),
    if_neg (hliteral "false" (by decide)), h, Option.map_some]

/-- **A scalar is read from its text.** -/
theorem lexFrom?_scalar {s : Scalar} (h : s.Legible) {rest : List Glyph} (hrest : Delimited rest) :
    lexFrom? .between (s.chars.map some ++ rest) =
      (lexFrom? .between rest).map (.scalar s :: ·) := by
  cases s with
  | null => exact lexFrom?_ofWord (by decide) (by decide) (by decide) hrest
  | bool b =>
    cases b with
    | true => exact lexFrom?_ofWord (by decide) (by decide) (by decide) hrest
    | false => exact lexFrom?_ofWord (by decide) (by decide) (by decide) hrest
  | number n =>
    obtain ⟨hread, hchars⟩ := h
    have hne : n.chars ≠ [] := by
      intro hnil
      rw [hnil] at hread
      exact absurd hread (by simp [Numeral.ofChars?, Numeral.ofUnsigned?, Numeral.splitAt,
        Numeral.isWhole])
    exact lexFrom?_ofWord hne (List.all_eq_true.mpr hchars) (Scalar.ofWord?_chars hread) hrest
  | string text =>
    obtain ⟨text, rfl⟩ := Option.isSome_iff_exists.mp h
    simpa [Scalar.chars] using lexFrom?_encode text.toList rest

/-- A mark is read from its character, whatever comes after it. -/
theorem lexFrom?_mark {c : Char} {symbol : Symbol} (h : begin? c = some ([symbol], .between))
    (rest : List Glyph) :
    lexFrom? .between (some c :: rest) = (lexFrom? .between rest).map (symbol :: ·) := by
  cases hrest : lexFrom? .between rest <;> simp [lexFrom?, step?, h, hrest]

end CurrencyPad.Json
