/-
CurrencyPad.Proofs.Keypad.Sign — what a buffer begins with.

A buffer is meant to begin with a digit, or with the minus sign of its
first number; no expression begins with another operator. There is one way
to get there all the same: a minus sign stands alone, left over from a
number below zero or put there by a restored text, and an operator takes
its place as if it stood between operands (`ReplacesSign`).

`startsNumber_run_iff` says that this is the exact condition, for whole
runs: the buffer begins with a digit or a minus sign all along exactly
when no operation of the run replaces a lone sign.

## How the proof goes

A key changes the first character of a buffer only when it stands alone:
a digit replaces a lone zero, an operator a lone operator
(`head?_append`). In a replayed text this can happen only to the operators
right after the sign, and the last of them is what stays in front
(`head?_foldl_replay_operator`).
-/
import CurrencyPad.Proofs.Keypad.WellFormed

namespace CurrencyPad

open Operator (isOperatorChar)

namespace Buffer

/-- The first character can begin a number: it is a digit or a minus sign. -/
def startsNumber (b : Buffer) : Bool := b.head?.any fun c => c.isDigit || c == '-'

/-- The operators that a text begins with, all that no key writes left out. -/
def leadingOperators (text : List Char) : List Char :=
  (text.filter isKeyChar).takeWhile isOperatorChar

/-- The operation puts another operator in the place of a sign that stands alone:
as a key, or among the operators right after the sign of a restored text. -/
inductive ReplacesSign (b : Buffer) : Session.Action → Prop
  | key {a : Session.Action} {op : Operator} (hkey : a.key? = some (.operator op))
      (hop : op ≠ .subtract) (hsign : b = ['-']) : ReplacesSign b a
  | text {text : String} {r : List Char} {c : Char}
      (htext : Text.trimChars text.toList = '-' :: r)
      (hlast : (leadingOperators r).getLast? = some c) (hc : c ≠ '-') :
      ReplacesSign b (.setBuffer text)

/-! ## 1. The first character under keys -/

/-- A key changes the first character only of a lone zero, which a digit replaces,
and of a lone operator. -/
theorem head?_append {b : Buffer} (hne : b ≠ [])
    (halone : ∀ c, b = [c] → isOperatorChar c = false) (key : Key) :
    (b.append key).head? = b.head? ∨ ∃ c, c.isDigit = true ∧ b.append key = [c] := by
  have hadd : ∀ c, (b ++ [c]).head? = b.head? := fun c => List.head?_append_of_ne_nil b hne
  rw [append]
  cases key with
  | digit c =>
    by_cases hc : c.isDigit = true
    · simp only [Key.char?, hc, if_true]
      split
      · exact .inr ⟨c, hc, rfl⟩
      · exact .inl (hadd c)
    · exact .inl (by simp [Key.char?, hc])
  | point => exact .inl (hadd '.')
  | operator op =>
    simp only [Key.char?]
    split
    · rename_i hends
      left
      rcases b with _ | ⟨c, _ | ⟨d, r⟩⟩
      · exact absurd rfl hne
      · simp [endsWithOperator, halone c rfl] at hends
      · rfl
    · exact .inl (hadd op.toChar)
  | clear => exact .inl rfl
  | equals => exact .inl rfl
  | percent => exact .inl rfl
  | delete => exact .inl rfl

/-- What begins with a digit begins with one after every key. -/
theorem isDigit_head_append {b : Buffer} (h : b.head?.any Char.isDigit = true) (key : Key) :
    (b.append key).head?.any Char.isDigit = true := by
  have hne : b ≠ [] := by rintro rfl; simp at h
  have halone : ∀ c, b = [c] → isOperatorChar c = false := by
    rintro c rfl
    exact not_isOperatorChar_of_isDigit (by simpa using h)
  rcases head?_append hne halone key with heq | ⟨c, hc, heq⟩
  · rw [heq, h]
  · simp [heq, hc]

theorem startsNumber_of_isDigit {b : Buffer} (h : b.head?.any Char.isDigit = true) :
    b.startsNumber = true := by
  rw [startsNumber]
  cases hb : b.head? with
  | none => simp [hb] at h
  | some c => simp_all

/-- A key spoils the beginning of a buffer only in the place of a lone sign. -/
theorem startsNumber_append_iff {b : Buffer} (hb : b.startsNumber = true) (key : Key) :
    (b.append key).startsNumber = true ↔
      ¬∃ op, key = .operator op ∧ op ≠ .subtract ∧ b = ['-'] := by
  by_cases hsign : b = ['-']
  · subst hsign
    cases key with
    | digit c =>
      by_cases hc : c.isDigit = true <;>
        simp [append, Key.char?, hc, blank, startsNumber]
    | operator op => cases op <;> simp [append, Key.char?, Operator.toChar, startsNumber,
        endsWithOperator, isOperatorChar, Operator.ofChar?]
    | point => simp [append, Key.char?, startsNumber]
    | clear => simp [append, Key.char?, startsNumber]
    | equals => simp [append, Key.char?, startsNumber]
    | percent => simp [append, Key.char?, startsNumber]
    | delete => simp [append, Key.char?, startsNumber]
  · -- no operator stands alone in front of the key
    have hne : b ≠ [] := by rintro rfl; simp [startsNumber] at hb
    have halone : ∀ c, b = [c] → isOperatorChar c = false := by
      rintro c rfl
      have hc : c ≠ '-' := by rintro rfl; exact hsign rfl
      exact not_isOperatorChar_of_isDigit (by simpa [startsNumber, hc] using hb)
    have hkept : (b.append key).startsNumber = true := by
      rcases head?_append hne halone key with heq | ⟨c, hc, heq⟩
      · rw [startsNumber, heq]
        exact hb
      · simp [startsNumber, heq, hc]
    simp [hkept, hsign]

/-! ## 2. The first character of a replayed text -/

/-- No key changes the first of two characters. -/
theorem append_cons_cons (c d : Char) (r : List Char) (key : Key) :
    ∃ e t, append (c :: d :: r) key = c :: e :: t := by
  have hadd : ∀ x, ∃ e t, (c :: d :: r) ++ [x] = c :: e :: t := fun x => ⟨d, r ++ [x], rfl⟩
  rw [append]
  cases key with
  | digit x =>
    by_cases hx : x.isDigit = true
    · simp [Key.char?, hx, blank]
    · simp [Key.char?, hx]
  | point => exact hadd '.'
  | operator op =>
    simp only [Key.char?]
    split
    · cases r with
      | nil => exact ⟨op.toChar, [], rfl⟩
      | cons x r => exact ⟨d, (x :: r).dropLast ++ [op.toChar], rfl⟩
    · exact hadd op.toChar
  | clear => exact ⟨d, r, rfl⟩
  | equals => exact ⟨d, r, rfl⟩
  | percent => exact ⟨d, r, rfl⟩
  | delete => exact ⟨d, r, rfl⟩

theorem head?_foldl_replay_cons_cons (cs : List Char) (c d : Char) (r : List Char) :
    (cs.foldl replay (c :: d :: r)).head? = some c := by
  induction cs generalizing d r with
  | nil => rfl
  | cons x cs ih =>
    rw [List.foldl_cons, replay]
    split
    · rename_i key _
      obtain ⟨e, t, heq⟩ := append_cons_cons c d r key
      rw [heq]
      exact ih e t
    · exact ih d r

/-- The first character that is left of a sign and the text after it: the last of
the operators that the text begins with. -/
theorem head?_foldl_replay_operator (cs : List Char) {o : Char}
    (ho : isOperatorChar o = true) :
    (cs.foldl replay [o]).head? = some ((leadingOperators cs).getLast?.getD o) := by
  induction cs generalizing o with
  | nil => rfl
  | cons c cs ih =>
    rw [List.foldl_cons, replay, keyOf?]
    by_cases hdigit : c.isDigit = true
    · -- from the second character on the first one stays
      have hop := not_isOperatorChar_of_isDigit hdigit
      have hblank : [o] ≠ blank := by
        rintro heq
        obtain rfl : o = '0' := by simpa [blank] using heq
        simp [isOperatorChar, Operator.ofChar?] at ho
      simp [hdigit, append, Key.char?, hblank, head?_foldl_replay_cons_cons,
        leadingOperators, isKeyChar, hop]
    · by_cases hpoint : c = '.'
      · subst hpoint
        simp [append, Key.char?, head?_foldl_replay_cons_cons, leadingOperators,
          isKeyChar, isOperatorChar, Operator.ofChar?]
      · by_cases hop : isOperatorChar c = true
        · obtain ⟨op, rfl⟩ := Operator.isOperatorChar_iff.mp hop
          have hkeep : leadingOperators (op.toChar :: cs) =
              op.toChar :: leadingOperators cs := by
            simp [leadingOperators]
          rw [hkeep, List.getLast?_cons, Option.getD_some, ← ih hop]
          simp [hdigit, hpoint, append, Key.char?, endsWithOperator, ho]
        · have hskip : leadingOperators (c :: cs) = leadingOperators cs := by
            simp [leadingOperators, isKeyChar, hdigit, hpoint, hop]
          rw [hskip, ← ih ho]
          have hnone : Operator.ofChar? c = none := by
            simpa [isOperatorChar] using hop
          simp [hdigit, hpoint, hnone]

theorem isDigit_head_foldl_replay (cs : List Char) {b : Buffer}
    (h : b.head?.any Char.isDigit = true) :
    (cs.foldl replay b).head?.any Char.isDigit = true := by
  induction cs generalizing b with
  | nil => exact h
  | cons c cs ih =>
    rw [List.foldl_cons]
    refine ih ?_
    rw [replay]
    split
    · exact isDigit_head_append h _
    · exact h

theorem replacesSign_setBuffer_iff {b : Buffer} {text : String} :
    ReplacesSign b (.setBuffer text) ↔ ∃ r c, Text.trimChars text.toList = '-' :: r ∧
      (leadingOperators r).getLast? = some c ∧ c ≠ '-' := by
  constructor
  · rintro (⟨hkey, -, -⟩ | ⟨htext, hlast, hc⟩)
    · simp [Session.Action.key?] at hkey
    · exact ⟨_, _, htext, hlast, hc⟩
  · rintro ⟨r, c, htext, hlast, hc⟩
    exact .text htext hlast hc

/-- A restored text begins with a number unless its sign is replaced. -/
theorem startsNumber_restore_iff (b : Buffer) (text : String) :
    (restore text.toList).startsNumber = true ↔ ¬ReplacesSign b (.setBuffer text) := by
  rw [restore, replacesSign_setBuffer_iff]
  split
  · rename_i r htext
    have hhead : (r.foldl replay ['-']).head? =
        some ((leadingOperators r).getLast?.getD '-') := head?_foldl_replay_operator r rfl
    rw [startsNumber, hhead]
    cases hlast : (leadingOperators r).getLast? with
    | none => simp [htext, hlast]
    | some c =>
      have hop : isOperatorChar c = true :=
        (List.all_eq_true.mp List.all_takeWhile) c (List.mem_of_getLast? hlast)
      have hdigit : c.isDigit = false := by
        by_contra hc
        simp [not_isOperatorChar_of_isDigit (by simpa using hc)] at hop
      simp [htext, hlast, hdigit]
  · rename_i r hsign
    refine iff_of_true (startsNumber_of_isDigit (isDigit_head_foldl_replay _ rfl)) ?_
    rintro ⟨r, c, htext, -⟩
    exact hsign r htext

/-! ## 3. Edits and runs -/

theorem startsNumber_renderChars (v : Decimal) : startsNumber v.renderChars = true := by
  obtain ⟨sign, body, heq, hsign, ⟨c, r, hbody, hdigit⟩, -, -⟩ := v.renderChars_shape
  rw [heq, hbody]
  rcases hsign with rfl | rfl
  · simp [startsNumber, hdigit]
  · simp [startsNumber]

theorem startsNumber_replacedBy {b : Buffer} (hb : b.startsNumber = true)
    (v : Option Decimal) : (b.replacedBy v).startsNumber = true := by
  cases v with
  | none => exact hb
  | some v => exact startsNumber_renderChars v

theorem startsNumber_delete {b : Buffer} (hb : b.startsNumber = true) :
    b.delete.startsNumber = true := by
  rw [delete]
  rcases b with _ | ⟨c, _ | ⟨d, r⟩⟩
  · rfl
  · rfl
  · exact hb

/-- A key that is pressed spoils the beginning of a buffer exactly when it is another
operator in the place of a lone sign. -/
theorem startsNumber_press_iff {b : Buffer} (hb : b.startsNumber = true) (key : Key) :
    (b.press key).startsNumber = true ↔
      ¬∃ op, key = .operator op ∧ op ≠ .subtract ∧ b = ['-'] := by
  cases key with
  | equals => simp [press, startsNumber_replacedBy hb]
  | percent => simp [press, startsNumber_replacedBy hb]
  | delete => simp [press, startsNumber_delete hb]
  | clear => exact iff_of_true rfl (by simp)
  | digit c => exact startsNumber_append_iff hb (.digit c)
  | point => exact startsNumber_append_iff hb .point
  | operator op => exact startsNumber_append_iff hb (.operator op)

theorem replacesSign_key_iff {b : Buffer} {a : Session.Action} {key : Key}
    (hkey : a.key? = some key) :
    ReplacesSign b a ↔ ∃ op, key = .operator op ∧ op ≠ .subtract ∧ b = ['-'] := by
  constructor
  · rintro (⟨hop', hop, hsign⟩ | _)
    · exact ⟨_, Option.some.inj (hkey.symm.trans hop'), hop, hsign⟩
    · simp [Session.Action.key?] at hkey
  · rintro ⟨op, rfl, hop, hsign⟩
    exact .key hkey hop hsign

/-- **One operation**: a buffer that begins with a number still does afterwards
exactly when no lone sign is replaced. -/
theorem startsNumber_edit_iff {b : Buffer} (hb : b.startsNumber = true)
    (a : Session.Action) : (b.edit a).startsNumber = true ↔ ¬ReplacesSign b a := by
  unfold edit
  cases hkey : a.key? with
  | some key =>
    rw [replacesSign_key_iff hkey]
    exact startsNumber_press_iff hb key
  | none =>
    dsimp only
    split
    · exact startsNumber_restore_iff b _
    · rename_i hother
      refine iff_of_true hb ?_
      rintro (⟨hop, -, -⟩ | ⟨-, -, -⟩)
      · simp [hkey] at hop
      · exact hother _ rfl

end Buffer

namespace Session

/-- **Whole runs**: the buffer begins with a number all along exactly when no
operation of the run replaces a lone sign. -/
theorem startsNumber_run_iff {s : Session} (hs : s.buffer.startsNumber = true)
    (actions : List Action) :
    (∀ first, first <+: actions → (s.run first).buffer.startsNumber = true) ↔
      ∀ first a, first ++ [a] <+: actions →
        ¬Buffer.ReplacesSign (s.run first).buffer a := by
  constructor
  · intro hall first a hfirst
    have hbefore := hall first ((List.prefix_append first [a]).trans hfirst)
    have hafter := hall (first ++ [a]) hfirst
    rw [run_append] at hafter
    change (((s.run first).act a).state).buffer.startsNumber = true at hafter
    rw [buffer_act] at hafter
    exact (Buffer.startsNumber_edit_iff hbefore a).mp hafter
  · intro hnone first
    -- by induction from the end: the last operation acts on a buffer that is fine
    induction first using List.reverseRecOn with
    | nil => exact fun _ => hs
    | append_singleton first a ih =>
      intro hfirst
      have hbefore := ih ((List.prefix_append first [a]).trans hfirst)
      rw [run_append]
      change (((s.run first).act a).state).buffer.startsNumber = true
      rw [buffer_act]
      exact (Buffer.startsNumber_edit_iff hbefore a).mpr (hnone first a hfirst)

/-- `0-5` is solved, deleted down to its sign, and the sign is replaced. -/
def spoilingKeys : List Action :=
  [.press (.operator .subtract), .press (.digit '5'), .press .equals, .press .delete,
    .press (.operator .add)]

theorem buffer_run_spoilingKeys : (({} : Session).run spoilingKeys).buffer = ['+'] := by
  decide +kernel

theorem not_startsNumber_spoilingKeys :
    ¬∀ actions, (({} : Session).run actions).buffer.startsNumber = true := by
  intro hall
  have := hall spoilingKeys
  rw [buffer_run_spoilingKeys] at this
  simp [Buffer.startsNumber] at this

/-- The run of `spoilingKeys` has an operation that replaces a lone sign. -/
theorem exists_replacesSign_spoilingKeys :
    ∃ first a, first ++ [a] <+: spoilingKeys ∧
      Buffer.ReplacesSign (({} : Session).run first).buffer a := by
  by_contra hnone
  have hall := (startsNumber_run_iff (s := {}) rfl spoilingKeys).mpr
    (by simpa using hnone) spoilingKeys List.prefix_rfl
  rw [buffer_run_spoilingKeys] at hall
  simp [Buffer.startsNumber] at hall

end Session
end CurrencyPad
