/-
CurrencyPad.Proofs.Keypad.WellFormed — the buffer stays well formed.

A buffer is `WellFormed` when it is not empty, holds only characters that
keys write, never two operators side by side, and begins neither with a
point nor with a zero before another digit. `wellFormed_of_reachable`
says that the buffer of every session that can be met is well formed.

## How the proof goes

Every edit either adds a character at the end, takes one away, or puts
another text in the place of the buffer.

* `WellFormed.concat` says when a character may be added: an operator not
  after an operator, a digit not after a lone zero. These are the two
  cases in which `append` replaces a character instead of adding one.
* What is left of a well-formed buffer without its last character is well
  formed, if it is not empty (`WellFormed.dropLast`).
* The texts that take the place of the buffer are a lone zero, a rendered
  decimal (`wellFormed_renderChars`), and a replayed text, which is built
  by `append` from a lone zero or a lone minus sign
  (`wellFormed_restore`).
-/
import Mathlib.Data.List.Chain
import CurrencyPad.Proofs.Decimal.Rendering
import CurrencyPad.Proofs.Expression.Lexeme
import CurrencyPad.Proofs.Keypad.Run

namespace CurrencyPad

open Operator (isOperatorChar)

namespace Buffer

/-! ## 1. Well-formed buffers -/

/-- A digit, a point or an operator: the characters that keys write. -/
def isKeyChar (c : Char) : Bool := c.isDigit || c == '.' || isOperatorChar c

structure WellFormed (b : Buffer) : Prop where
  ne_nil : b ≠ []
  chars : ∀ c ∈ b, isKeyChar c = true
  /-- No two operators stand side by side. -/
  operators : b.IsChain fun c d => ¬(isOperatorChar c = true ∧ isOperatorChar d = true)
  point : b.head? ≠ some '.'
  /-- A zero in front is not followed by a digit. -/
  zero : ∀ c r, b = '0' :: c :: r → c.isDigit = false

theorem not_isOperatorChar_of_isNumeralChar {c : Char}
    (h : Decimal.isNumeralChar c = true) : isOperatorChar c = false := by
  by_contra hop
  obtain ⟨op, rfl⟩ := Operator.isOperatorChar_iff.mp (by simpa using hop)
  simp at h

theorem not_isOperatorChar_of_isDigit {c : Char} (h : c.isDigit = true) :
    isOperatorChar c = false :=
  not_isOperatorChar_of_isNumeralChar (Decimal.isNumeralChar_of_isDigit h)

theorem isKeyChar_of_isNumeralChar {c : Char} (h : Decimal.isNumeralChar c = true) :
    isKeyChar c = true := by
  rw [Decimal.isNumeralChar] at h
  simp [isKeyChar, h]

@[simp] theorem isKeyChar_toChar (op : Operator) : isKeyChar op.toChar = true := by
  simp [isKeyChar]

theorem isExpressionChar_of_isKeyChar {c : Char} (h : isKeyChar c = true) :
    Expression.isExpressionChar c = true ∧ c ≠ ' ' := by
  refine ⟨?_, ?_⟩
  · simp only [isKeyChar, Bool.or_eq_true] at h
    rcases h with (h | h) | h <;> simp [Expression.isExpressionChar, h]
  · rintro rfl
    exact absurd h (by decide)

/-- A character of the keys stands alone, unless it is a point. -/
theorem wellFormed_singleton {c : Char} (h : isKeyChar c = true) (hpoint : c ≠ '.') :
    WellFormed [c] where
  ne_nil := by simp
  chars := by simpa using h
  operators := .singleton c
  point := by simpa using hpoint
  zero := by simp

theorem wellFormed_blank : WellFormed blank := wellFormed_singleton rfl (by decide)

/-! ## 2. Adding and taking away a character -/

theorem endsWithOperator_concat (b : Buffer) (c : Char) :
    endsWithOperator (b ++ [c]) = isOperatorChar c := by
  simp [endsWithOperator]

/-- What the last character of a longer buffer has to do with the ones before it:
no operator comes after an operator, and no digit after a lone zero. -/
theorem wellFormed_concat_iff {b : Buffer} {c : Char} (hne : b ≠ []) :
    WellFormed (b ++ [c]) ↔
      WellFormed b ∧ isKeyChar c = true ∧
        (isOperatorChar c = true → b.endsWithOperator = false) ∧
        (c.isDigit = true → b ≠ blank) := by
  obtain ⟨d, r, rfl⟩ := List.exists_cons_of_ne_nil hne
  constructor
  · intro h
    obtain ⟨hchain, -, hpair⟩ := List.isChain_append.mp h.operators
    refine ⟨⟨hne, ?_, hchain, h.point, ?_⟩, h.chars c (by simp), ?_, ?_⟩
    · exact fun x hx => h.chars x (List.mem_append_left _ hx)
    · intro x r' heq
      exact h.zero x (r' ++ [c]) (by rw [heq]; rfl)
    · intro hop
      rw [endsWithOperator]
      split
      · rename_i x hx
        simpa [hop] using hpair x hx c rfl
      · rfl
    · rintro hdigit heq
      have := h.zero c [] (by rw [heq]; rfl)
      simp [this] at hdigit
  · rintro ⟨h, hkey, hop, hzero⟩
    refine ⟨by simp, ?_, List.isChain_append.mpr ⟨h.operators, .singleton c, ?_⟩,
      h.point, ?_⟩
    · intro x hx
      rcases List.mem_append.mp hx with hx | hx
      · exact h.chars x hx
      · obtain rfl : x = c := by simpa using hx
        exact hkey
    · rintro x hx y hy ⟨hxop, hyop⟩
      obtain rfl : c = y := by simpa using hy
      have := hop hyop
      rw [endsWithOperator, Option.mem_def.mp hx] at this
      simp [hxop] at this
    · intro x r' heq
      cases r with
      | nil =>
        -- the character added is the second one
        obtain ⟨rfl, rfl, -⟩ : d = '0' ∧ c = x ∧ [] = r' := by simpa using heq
        by_contra hx
        exact hzero (by simpa using hx) rfl
      | cons y r =>
        obtain ⟨rfl, rfl, -⟩ : d = '0' ∧ y = x ∧ r ++ [c] = r' := by simpa using heq
        exact h.zero y r rfl

/-- A longer buffer is what was there before its last character, and that. -/
theorem WellFormed.eq_concat {b : Buffer} (h : WellFormed b) :
    ∃ c, b = b.dropLast ++ [c] :=
  ⟨b.getLast h.ne_nil, (List.dropLast_concat_getLast h.ne_nil).symm⟩

/-- Keys keep a buffer well formed. -/
theorem WellFormed.append {b : Buffer} (h : WellFormed b) (key : Key) :
    WellFormed (b.append key) := by
  rw [Buffer.append]
  cases key with
  | digit c =>
    by_cases hc : c.isDigit = true
    · have hop := not_isOperatorChar_of_isDigit hc
      simp only [Key.char?, hc, if_true]
      split
      · exact wellFormed_singleton (by simp [isKeyChar, hc]) (by rintro rfl; simp at hc)
      · rename_i hblank
        exact (wellFormed_concat_iff h.ne_nil).mpr
          ⟨h, by simp [isKeyChar, hc], by simp [hop], fun _ => hblank⟩
    · simpa [Key.char?, hc] using h
  | point =>
    exact (wellFormed_concat_iff h.ne_nil).mpr
      ⟨h, rfl, by simp [isOperatorChar, Operator.ofChar?], by simp⟩
  | operator op =>
    have hdigit : op.toChar.isDigit = false := by cases op <;> rfl
    simp only [Key.char?]
    split
    · rename_i hends
      by_cases hne : b.dropLast = []
      · rw [hne]
        exact wellFormed_singleton (isKeyChar_toChar op) (by cases op <;> decide)
      · -- the operator before the new one goes, and before that there was none
        obtain ⟨c, hc⟩ := h.eq_concat
        rw [hc] at h hends
        obtain ⟨h, -, hop, -⟩ := (wellFormed_concat_iff hne).mp h
        rw [endsWithOperator_concat] at hends
        exact (wellFormed_concat_iff hne).mpr
          ⟨h, isKeyChar_toChar op, fun _ => hop hends, by simp [hdigit]⟩
    · rename_i hends
      exact (wellFormed_concat_iff h.ne_nil).mpr
        ⟨h, isKeyChar_toChar op, fun _ => by simpa using hends, by simp [hdigit]⟩
  | clear => exact h
  | equals => exact h
  | percent => exact h
  | delete => exact h

theorem WellFormed.delete {b : Buffer} (h : WellFormed b) : WellFormed b.delete := by
  rw [Buffer.delete]
  split
  · exact wellFormed_blank
  · rename_i hne
    obtain ⟨c, hc⟩ := h.eq_concat
    rw [hc] at h
    exact ((wellFormed_concat_iff hne).mp h).1

/-! ## 3. Texts in the place of the buffer -/

theorem wellFormed_renderChars (v : Decimal) : WellFormed v.renderChars := by
  obtain ⟨sign, body, heq, hsign, ⟨c, r, hbody, hdigit⟩, hnum, hzero⟩ := v.renderChars_shape
  have hpoint := Decimal.ne_point_of_isDigit hdigit
  have hchain : body.IsChain
      fun c d => ¬(isOperatorChar c = true ∧ isOperatorChar d = true) := by
    refine List.isChain_iff_forall_rel_of_append_cons_cons.mpr ?_
    rintro x y l₁ l₂ hsplit ⟨hx, -⟩
    have := not_isOperatorChar_of_isNumeralChar (hnum x (by simp [hsplit]))
    simp [this] at hx
  rw [heq]
  rcases hsign with rfl | rfl
  · rw [List.nil_append]
    exact ⟨by simp [hbody], fun x hx => isKeyChar_of_isNumeralChar (hnum x hx), hchain,
      by simpa [hbody] using hpoint, hzero⟩
  · refine ⟨by simp, ?_, hchain.cons ?_, by simp, by simp⟩
    · intro x hx
      rcases List.mem_cons.mp hx with rfl | hx
      · rfl
      · exact isKeyChar_of_isNumeralChar (hnum x hx)
    · rintro x hx ⟨-, hop⟩
      have := not_isOperatorChar_of_isNumeralChar (hnum x (List.mem_of_mem_head? hx))
      simp [this] at hop

theorem WellFormed.replay {b : Buffer} (h : WellFormed b) (c : Char) :
    WellFormed (b.replay c) := by
  rw [Buffer.replay]
  split
  · exact h.append _
  · exact h

theorem WellFormed.foldl_replay {b : Buffer} (h : WellFormed b) (cs : List Char) :
    WellFormed (cs.foldl Buffer.replay b) := by
  induction cs generalizing b with
  | nil => exact h
  | cons c r ih => exact ih (h.replay c)

theorem wellFormed_restore (text : List Char) : WellFormed (restore text) := by
  rw [restore]
  split
  · exact (wellFormed_singleton rfl (by decide)).foldl_replay _
  · exact wellFormed_blank.foldl_replay _

theorem WellFormed.replacedBy {b : Buffer} (h : WellFormed b) (v : Option Decimal) :
    WellFormed (b.replacedBy v) := by
  cases v with
  | none => exact h
  | some v => exact wellFormed_renderChars v

/-! ## 4. Edits -/

theorem WellFormed.press {b : Buffer} (h : WellFormed b) (key : Key) :
    WellFormed (b.press key) := by
  cases key with
  | equals => exact h.replacedBy _
  | percent => exact h.replacedBy _
  | delete => exact h.delete
  | clear => exact wellFormed_blank
  | digit c => exact h.append (.digit c)
  | point => exact h.append .point
  | operator op => exact h.append (.operator op)

/-- **One operation** keeps the buffer well formed. -/
theorem WellFormed.edit {b : Buffer} (h : WellFormed b) (a : Session.Action) :
    WellFormed (b.edit a) := by
  unfold Buffer.edit
  split
  · exact h.press _
  · split
    · exact wellFormed_restore _
    · exact h

end Buffer

theorem Session.Reachable.wellFormed {s : Session} (h : s.Reachable) :
    Buffer.WellFormed s.buffer :=
  h.buffer_induction Buffer.wellFormed_blank fun _ a hb => hb.edit a

/-- **Whole runs**: the buffer of every session that can be met is well formed. -/
theorem Session.wellFormed_of_reachable {s : Session} (h : s.Reachable) :
    Buffer.WellFormed s.buffer :=
  h.wellFormed

/-- A restored sign, an operator that takes the place of another, and a dead key. -/
def Session.signedKeys : List Session.Action :=
  [.setBuffer " -4x.5", .press (.operator .multiply), .pressLabel "÷", .press (.digit 'a'),
    .press (.digit '2')]

theorem Session.wellFormed_run_signedKeys :
    (({} : Session).run signedKeys).buffer = "-4.5/2".toList ∧
      Buffer.WellFormed (({} : Session).run signedKeys).buffer :=
  ⟨by decide +kernel, wellFormed_of_reachable (Reachable.new.run signedKeys)⟩

end CurrencyPad
