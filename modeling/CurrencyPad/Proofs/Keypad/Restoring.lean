/-
CurrencyPad.Proofs.Keypad.Restoring — a saved text is typed again.

To restore a text is to clear the session and to press the keys of the
characters of the text, all other characters left out. This holds of every
text that does not begin with a minus sign, which is the one character
that `restore` treats in its own way. The two paths do not keep the same
books: the keys recompute the derived values one by one, `restore` once.
They come to the same session all the same.

A restored text comes back as it is exactly when it is `WellFormed` and
begins with a number, so what is saved from a session is restored
unchanged (`setBuffer_replays`).

## How the proof goes

* Presses are edits of the buffer, and the values are recomputed once at
  the end (`run_clear_presses`). Trimming takes off blanks only, which no
  key writes, so both paths add the same characters
  (`restore_eq_foldl_press`).
* A character that may stand at the end of a well-formed buffer is added
  there and changes nothing before it (`WellFormed.replay_concat`). As every
  beginning of a well-formed text is well formed, all of it is added, by
  induction on what is still to come (`WellFormed.foldl_replay_append`).
-/
import CurrencyPad.Proofs.Keypad.Independence
import CurrencyPad.Proofs.Keypad.Sign
import CurrencyPad.Proofs.Text.Trim

namespace CurrencyPad

open Operator (isOperatorChar)

namespace Buffer

/-! ## 1. The keys of a text -/

/-- The keys of the characters of a text that keys write. -/
def keysOf (text : List Char) : List Key := text.filterMap keyOf?

theorem keyOf?_eq_none {c : Char} (h : isKeyChar c = false) : keyOf? c = none := by
  simp only [isKeyChar, isOperatorChar, Bool.or_eq_false_iff, beq_eq_false_iff_ne,
    Option.isSome_eq_false_iff, Option.isNone_iff_eq_none] at h
  obtain ⟨⟨hdigit, hpoint⟩, hop⟩ := h
  simp [keyOf?, hdigit, hpoint, hop]

/-- A character that keys write has a key, which adds it as any key does that is pressed. -/
theorem exists_keyOf? {c : Char} (h : isKeyChar c = true) :
    ∃ key, keyOf? c = some key ∧ key.char? = some c ∧ ∀ b, press b key = append b key := by
  by_cases hdigit : c.isDigit = true
  · exact ⟨.digit c, by simp [keyOf?, hdigit], by simp [Key.char?, hdigit], fun _ => rfl⟩
  · by_cases hpoint : c = '.'
    · subst hpoint
      exact ⟨.point, rfl, rfl, fun _ => rfl⟩
    · have hop : isOperatorChar c = true := by simpa [isKeyChar, hdigit, hpoint] using h
      obtain ⟨op, rfl⟩ := Operator.isOperatorChar_iff.mp hop
      exact ⟨.operator op, by simp [keyOf?, hdigit, hpoint], rfl, fun _ => rfl⟩

/-- The keys write just the characters of the text that keys write. -/
theorem map_char?_keysOf (text : List Char) :
    (keysOf text).map Key.char? = (text.filter isKeyChar).map some := by
  induction text with
  | nil => rfl
  | cons c r ih =>
    cases hc : isKeyChar c with
    | true =>
      obtain ⟨key, hkey, hchar, -⟩ := exists_keyOf? hc
      rw [keysOf, List.filterMap_cons_some hkey, List.filter_cons_of_pos hc, List.map_cons,
        List.map_cons, hchar, ← ih, keysOf]
    | false =>
      rw [keysOf, List.filterMap_cons_none (keyOf?_eq_none hc),
        List.filter_cons_of_neg (by simp [hc]), ← ih, keysOf]

theorem foldl_replay_eq_foldl_press (b : Buffer) (text : List Char) :
    text.foldl replay b = (keysOf text).foldl press b := by
  induction text generalizing b with
  | nil => rfl
  | cons c r ih =>
    rw [List.foldl_cons, replay, keysOf]
    cases hc : isKeyChar c with
    | true =>
      obtain ⟨key, hkey, -, hpress⟩ := exists_keyOf? hc
      rw [List.filterMap_cons_some hkey, List.foldl_cons, hkey, hpress]
      exact ih _
    | false =>
      have hkey := keyOf?_eq_none hc
      rw [List.filterMap_cons_none hkey, hkey]
      exact ih b

theorem isBlank_of_isKeyChar {c : Char} (h : isKeyChar c = true) : Text.isBlank c = false := by
  obtain ⟨hexpression, hspace⟩ := isExpressionChar_of_isKeyChar h
  rw [Expression.isBlank_eq_space hexpression]
  exact beq_false_of_ne hspace

theorem keysOf_trimChars (text : List Char) : keysOf (Text.trimChars text) = keysOf text := by
  rw [Text.trimChars_eq_strip]
  refine Text.filterMap_strip (fun c hc => keyOf?_eq_none ?_) text
  by_contra hkey
  simp [isBlank_of_isKeyChar (by simpa using hkey)] at hc

/-- **A text without a sign in front** is typed again from the start. -/
theorem restore_eq_foldl_press {text : List Char}
    (hsign : (Text.trimChars text).head? ≠ some '-') :
    restore text = (keysOf text).foldl press blank := by
  rw [← keysOf_trimChars, ← foldl_replay_eq_foldl_press, restore]
  split
  · rename_i r htext
    simp [htext] at hsign
  · rfl

/-! ## 2. Texts that come back as they are -/

/-- A character that may stand at the end is added there. -/
theorem WellFormed.replay_concat {b : Buffer} {c : Char} (hne : b ≠ [])
    (h : WellFormed (b ++ [c])) : b.replay c = b ++ [c] := by
  obtain ⟨-, hkey, hop, hzero⟩ := (wellFormed_concat_iff hne).mp h
  by_cases hdigit : c.isDigit = true
  · simp [Buffer.replay, keyOf?, hdigit, Buffer.append, Key.char?, hzero hdigit]
  · by_cases hpoint : c = '.'
    · subst hpoint
      rfl
    · have hoperator : isOperatorChar c = true := by simpa [isKeyChar, hdigit, hpoint] using hkey
      obtain ⟨op, rfl⟩ := Operator.isOperatorChar_iff.mp hoperator
      simp [Buffer.replay, keyOf?, hdigit, hpoint, Buffer.append, Key.char?, hop hoperator]

/-- A well-formed text is well formed from its beginning on. -/
theorem WellFormed.of_append {b : Buffer} (hne : b ≠ []) {cs : List Char}
    (h : WellFormed (b ++ cs)) : WellFormed b := by
  induction cs using List.reverseRecOn with
  | nil => rwa [List.append_nil] at h
  | append_singleton cs c ih =>
    rw [← List.append_assoc] at h
    exact ih ((wellFormed_concat_iff (by simp [hne])).mp h).1

/-- **What is still to come of a well-formed text** is added as it is. -/
theorem WellFormed.foldl_replay_append {b : Buffer} (hne : b ≠ []) {cs : List Char}
    (h : WellFormed (b ++ cs)) : cs.foldl Buffer.replay b = b ++ cs := by
  induction cs generalizing b with
  | nil => rw [List.foldl_nil, List.append_nil]
  | cons c r ih =>
    rw [List.append_cons] at h
    rw [List.foldl_cons, (h.of_append (by simp)).replay_concat hne, ih (by simp) h,
      ← List.append_cons]

theorem WellFormed.trimChars_eq {b : Buffer} (h : WellFormed b) : Text.trimChars b = b := by
  rw [Text.trimChars_eq_strip]
  refine Text.strip_eq_self (fun c hc => ?_) fun c hc => ?_
  · exact isBlank_of_isKeyChar (h.chars c (List.mem_of_head? hc))
  · exact isBlank_of_isKeyChar (h.chars c (List.mem_of_getLast? hc))

/-- **A text comes back as it is** exactly when it is well formed and begins with a number. -/
theorem restore_eq_self_iff (b : Buffer) :
    restore b = b ↔ WellFormed b ∧ b.startsNumber = true := by
  constructor
  · intro h
    have hwell : WellFormed b := h ▸ wellFormed_restore b
    refine ⟨hwell, ?_⟩
    rw [restore, hwell.trimChars_eq] at h
    split at h
    · rfl
    · rw [← h]
      exact startsNumber_of_isDigit (isDigit_head_foldl_replay b rfl)
  · rintro ⟨hwell, hstart⟩
    rw [restore, hwell.trimChars_eq]
    split
    · rename_i r
      exact hwell.foldl_replay_append (b := ['-']) (by simp)
    · rename_i hsign
      -- the first digit takes the place of the zero
      obtain ⟨c, r, rfl⟩ := List.exists_cons_of_ne_nil hwell.ne_nil
      have hdigit : c.isDigit = true := by
        have hc : c ≠ '-' := fun hc => hsign r (by rw [hc])
        simpa [startsNumber, hc] using hstart
      have hfirst : replay blank c = [c] := by
        simp [replay, keyOf?, hdigit, append, Key.char?]
      rw [List.foldl_cons, hfirst]
      exact hwell.foldl_replay_append (b := [c]) (by simp)

end Buffer

namespace Session

/-! ## 3. Sessions -/

/-- **A cleared session** on which keys are pressed. -/
theorem run_clear_presses (s : Session) (keys : List Key) :
    s.run (.press .clear :: keys.map .press) =
      recompute { s with buffer := keys.foldl Buffer.press Buffer.blank } := by
  have hrun : s.run (.press .clear :: keys.map .press) = s.clear.state.run (keys.map .press) := rfl
  have hclear : UpToDate s.clear.state := upToDate_recompute _
  have hkeys : (keys.map Action.press).map Action.key? = keys.map some := by
    rw [List.map_map]
    rfl
  rw [hrun, hclear.run_of_keys hkeys]
  rfl

/-- **Restoring replays the keypad.** A text without a minus sign in front leads to the session
that one gets by clearing and pressing the keys of its characters, whatever the session was. A
text comes back as it is exactly when it is well formed and begins with a number; so the text
of every session that begins with a number does, and its value with it. -/
theorem setBuffer_replays (s : Session) :
    (∀ text : String, (Text.trimChars text.toList).head? ≠ some '-' →
      (Buffer.keysOf text.toList).map Key.char? =
        (text.toList.filter Buffer.isKeyChar).map some ∧
      (s.setBuffer text).state =
        s.run (.press .clear :: (Buffer.keysOf text.toList).map .press)) ∧
    (∀ text : String, (s.setBuffer text).state.text = text ↔
      Buffer.WellFormed text.toList ∧ Buffer.startsNumber text.toList = true) ∧
    ∀ saved : Session, saved.Reachable → saved.buffer.startsNumber = true →
      (s.setBuffer saved.text).state.buffer = saved.buffer ∧
        (s.setBuffer saved.text).state.value = saved.value := by
  refine ⟨fun text hsign => ⟨Buffer.map_char?_keysOf _, ?_⟩, fun text => ?_,
    fun saved hsaved hstart => ?_⟩
  · rw [run_clear_presses, ← Buffer.restore_eq_foldl_press hsign]
    rfl
  · rw [← Buffer.restore_eq_self_iff]
    rw [← String.toList_inj]
    change (String.ofList (Buffer.restore text.toList)).toList = text.toList ↔ _
    rw [String.toList_ofList]
  · have hbuffer : (s.setBuffer saved.text).state.buffer = saved.buffer := by
      change Buffer.restore saved.text.toList = saved.buffer
      rw [text, String.toList_ofList]
      exact (Buffer.restore_eq_self_iff _).mpr ⟨hsaved.wellFormed, hstart⟩
    refine ⟨hbuffer, ?_⟩
    have hvalue : (s.setBuffer saved.text).state.value =
        Expression.evaluateChars (s.setBuffer saved.text).state.buffer := rfl
    rw [hvalue, hbuffer, hsaved.upToDate.value, evaluate_text]

/-- Blanks, a letter and three operators in a row. -/
def scrawl : String := " 1.5x--+2 "

def scrawlKeys : List Key :=
  [.digit '1', .point, .digit '5', .operator .subtract, .operator .subtract, .operator .add,
    .digit '2']

theorem setBuffer_replays_scrawl :
    (interrupted.setBuffer scrawl).state.text = "1.5+2" ∧
      (interrupted.setBuffer scrawl).state =
        interrupted.run (.press .clear :: scrawlKeys.map .press) ∧
      ((quotedSession .one).setBuffer interrupted.text).state.buffer = interrupted.buffer := by
  have hkeys : Buffer.keysOf scrawl.toList = scrawlKeys := by decide +kernel
  obtain ⟨hreplayed, -, -⟩ := setBuffer_replays interrupted
  obtain ⟨-, -, hrestored⟩ := setBuffer_replays (quotedSession .one)
  exact ⟨by decide +kernel, hkeys ▸ (hreplayed scrawl (by decide +kernel)).2,
    (hrestored interrupted ((Reachable.start _ _).run interruptedKeys) (by decide +kernel)).1⟩

end Session
end CurrencyPad
