/-
CurrencyPad.Proofs.Keypad.Run — the sessions that can be met, and what
becomes of their buffers.

`Session.Reachable` holds of a new session, of one started from settings,
and of every session that an operation makes of such a one, however its
numbers are shown.

The buffer is edited by a machine of its own: what an operation makes of
it depends on no other part of the session. `Buffer.edit` is that
machine and `buffer_act` says that a session follows it, so that an
invariant of the buffer needs to be shown of `edit` only. Six of the
operations press a key, two of them by a label; `Action.key?` says which.
-/
import CurrencyPad.Keypad.Session

namespace CurrencyPad

namespace Session

/-! ## 1. Reachable sessions -/

/-- The sessions that can be met. -/
inductive Reachable : Session → Prop
  /-- A new session. -/
  | new : Reachable {}
  /-- A session with the configured pair of currencies. -/
  | start (settings : Settings) (currencies : List Currency) :
      Reachable (start settings currencies)
  /-- Numbers may be shown in any format. -/
  | format {s : Session} (format : NumberFormat) :
      Reachable s → Reachable { s with format }
  | act {s : Session} (a : Action) : Reachable s → Reachable (s.act a).state

theorem Reachable.run {s : Session} (h : s.Reachable) (actions : List Action) :
    (s.run actions).Reachable := by
  induction actions generalizing s with
  | nil => exact h
  | cons a rest ih => exact ih (h.act a)

theorem run_append (s : Session) (first rest : List Action) :
    s.run (first ++ rest) = (s.run first).run rest := List.foldl_append

/-- The key that an operation presses, if it presses one. -/
def Action.key? : Action → Option Key
  | .press key => some key
  | .pressLabel label => Key.ofLabelChars? (Text.trimChars label.toList)
  | .delete => some .delete
  | .solve => some .equals
  | .percent => some .percent
  | .setBuffer _ | .swap | .setSource _ | .setTarget _ | .rebind _ => none

end Session

/-! ## 2. The machine of the buffer -/

namespace Buffer

/-- The rendered value in the place of the buffer, if there is a value. -/
def replacedBy (b : Buffer) : Option Decimal → Buffer
  | some v => v.renderChars
  | none => b

/-- What a key makes of the buffer. -/
def press (b : Buffer) : Key → Buffer
  | .equals => b.replacedBy (Expression.evaluateChars b)
  | .percent => b.replacedBy b.percentage?
  | .delete => b.delete
  | .clear => blank
  | .digit c => b.append (.digit c)
  | .point => b.append .point
  | .operator op => b.append (.operator op)

/-- What an operation makes of the buffer. -/
def edit (b : Buffer) (a : Session.Action) : Buffer :=
  match a.key? with
  | some key => b.press key
  | none =>
    match a with
    | .setBuffer text => restore text.toList
    | _ => b

end Buffer

namespace Session

theorem buffer_press (s : Session) (key : Key) :
    (s.press key).state.buffer = s.buffer.press key := by
  cases key with
  | equals =>
    simp only [Session.press, solve, Buffer.press]
    cases Expression.evaluateChars s.buffer <;> rfl
  | percent =>
    simp only [Session.press, percent, Buffer.press]
    cases s.buffer.percentage? <;> rfl
  | delete => rfl
  | clear => rfl
  | digit c => rfl
  | point => rfl
  | operator op => rfl

/-- **A session's buffer follows the machine of the buffer.** -/
theorem buffer_act (s : Session) (a : Action) :
    (s.act a).state.buffer = s.buffer.edit a := by
  cases a with
  | press key => exact s.buffer_press key
  | pressLabel label =>
    simp only [act, pressLabel, Key.ofLabel, Buffer.edit, Action.key?]
    cases Key.ofLabelChars? (Text.trimChars label.toList) with
    | none => rfl
    | some key => exact s.buffer_press key
  | delete => rfl
  | solve => exact s.buffer_press .equals
  | percent => exact s.buffer_press .percent
  | setBuffer text => rfl
  | swap => rfl
  | setSource c => rfl
  | setTarget c => rfl
  | rebind currencies => rfl

/-- What every edit preserves holds of the buffer of every reachable session. -/
theorem Reachable.buffer_induction {P : Buffer → Prop} (hblank : P Buffer.blank)
    (hedit : ∀ b a, P b → P (b.edit a)) {s : Session} (h : s.Reachable) : P s.buffer := by
  induction h with
  | new => exact hblank
  | start settings currencies => exact hblank
  | format f _ ih => exact ih
  | act a _ ih =>
    rw [buffer_act]
    exact hedit _ a ih

end Session
end CurrencyPad
