/-
CurrencyPad.Proofs.Keypad.Undoing — the delete key takes back what was
typed.

A key that adds a character is taken back by the delete key: the session
is as it was, its derived values included. An operator that takes the
place of another cannot be taken back, since the one before it is gone;
what is left is what the delete key alone would have left. So of several
operators pressed in a row only the last one counts
(`undoes_of_reachable`).

All of this is said of the buffer first (`delete_press_digit`), and a session in
which the derived values are up to date follows its buffer
(`UpToDate.run_of_keys`).
-/
import CurrencyPad.Proofs.Keypad.Independence
import CurrencyPad.Proofs.Keypad.WellFormed

namespace CurrencyPad

namespace Buffer

variable {b : Buffer}

/-! ## 1. The buffer -/

theorem delete_concat (hne : b ≠ []) (c : Char) : delete (b ++ [c]) = b := by
  rw [delete, List.dropLast_concat]
  split
  · exact absurd rfl hne
  · rfl

/-- A digit is taken back, also where it has taken the place of a lone zero. -/
theorem delete_press_digit (hne : b ≠ []) {c : Char} (hc : c.isDigit = true) :
    (b.press (.digit c)).delete = b := by
  simp only [press, append, Key.char?, hc, if_true]
  split
  · rename_i hblank
    rw [hblank]
    rfl
  · exact delete_concat hne c

theorem delete_press_point (hne : b ≠ []) : (b.press .point).delete = b :=
  delete_concat hne '.'

/-- An operator takes the place of an operator at the end. -/
theorem press_operator (b : Buffer) (op : Operator) :
    b.press (.operator op) =
      (if b.endsWithOperator then b.dropLast else b) ++ [op.toChar] := by
  simp only [press, append, Key.char?]
  split <;> rfl

/-- An operator is taken back; one that it has replaced does not come again. -/
theorem delete_press_operator (hne : b ≠ []) (op : Operator) :
    (b.press (.operator op)).delete = if b.endsWithOperator then b.delete else b := by
  rw [press_operator]
  split
  · rw [delete, List.dropLast_concat, delete]
  · exact delete_concat hne op.toChar

/-- Of two operators the second one counts. -/
theorem press_operator_press_operator (b : Buffer) (op op' : Operator) :
    (b.press (.operator op)).press (.operator op') = b.press (.operator op') := by
  have hends : (b.press (.operator op)).endsWithOperator = true := by
    rw [press_operator, endsWithOperator_concat, Operator.isOperatorChar_toChar]
  rw [press_operator (b.press _), if_pos hends, press_operator b op, List.dropLast_concat,
    press_operator b op']

end Buffer

namespace Session

/-! ## 2. Sessions -/

/-- What the operation `d`, which presses the delete key, takes back on a session. -/
structure Undoes (s : Session) (d : Action) : Prop where
  digit : ∀ a c, a.key? = some (.digit c) → c.isDigit = true → s.run [a, d] = s
  point : ∀ a, a.key? = some .point → s.run [a, d] = s
  operator : ∀ a op, a.key? = some (.operator op) → s.buffer.endsWithOperator = false →
    s.run [a, d] = s
  /-- After another operator one deletes as if the operator had not been pressed. -/
  replaced : ∀ a op, a.key? = some (.operator op) → s.buffer.endsWithOperator = true →
    s.run [a, d] = s.run [d]

/-- The operation presses the key of an operator. -/
def Action.pressesOperator (a : Action) : Prop := ∃ op, a.key? = some (.operator op)

variable {s : Session} {a d : Action} {key : Key}

theorem UpToDate.run_undone (h : UpToDate s) (ha : a.key? = some key)
    (hd : d.key? = some .delete) :
    s.run [a, d] = recompute { s with buffer := (s.buffer.press key).delete } := by
  have hkeys : [a, d].map Action.key? = [key, .delete].map some := by simp [ha, hd]
  exact h.run_of_keys hkeys

/-- One key. -/
theorem UpToDate.run_key (h : UpToDate s) (ha : a.key? = some key) :
    s.run [a] = recompute { s with buffer := s.buffer.press key } := by
  have hkeys : [a].map Action.key? = [key].map some := by simp [ha]
  exact h.run_of_keys hkeys

/-- A key whose character can be taken back. -/
theorem UpToDate.run_undone_eq_self (h : UpToDate s) (ha : a.key? = some key)
    (hd : d.key? = some .delete) (hbuffer : (s.buffer.press key).delete = s.buffer) :
    s.run [a, d] = s := by
  rw [h.run_undone ha hd, hbuffer]
  exact h.recompute_eq

theorem undoes (h : UpToDate s) (hne : s.buffer ≠ []) (hd : d.key? = some .delete) :
    Undoes s d where
  digit a c ha hc := h.run_undone_eq_self ha hd (Buffer.delete_press_digit hne hc)
  point a ha := h.run_undone_eq_self ha hd (Buffer.delete_press_point hne)
  operator a op ha hends := by
    refine h.run_undone_eq_self ha hd ?_
    rw [Buffer.delete_press_operator hne, hends]
    rfl
  replaced a op ha hends := by
    rw [h.run_undone ha hd, h.run_key hd, Buffer.delete_press_operator hne, if_pos hends]
    rfl

theorem UpToDate.run_operators {actions : List Action} (h : UpToDate s)
    (hactions : ∀ a ∈ actions, a.pressesOperator) (ha : a.pressesOperator) :
    s.run (actions ++ [a]) = s.run [a] := by
  obtain ⟨op, ha⟩ := ha
  induction actions generalizing s with
  | nil => rfl
  | cons first rest ih =>
    obtain ⟨op', hfirst⟩ := hactions first (by simp)
    have hkeys : [first, a].map Action.key? = [Key.operator op', .operator op].map some := by
      simp [hfirst, ha]
    have hpair : s.run [first, a] = s.run [a] := by
      rw [h.run_of_keys hkeys, h.run_key ha, List.foldl_cons, List.foldl_cons, List.foldl_nil,
        Buffer.press_operator_press_operator]
    calc s.run (first :: rest ++ [a])
        = (s.act first).state.run (rest ++ [a]) := rfl
      _ = (s.act first).state.run [a] := ih (h.act first) fun a ha => hactions a (by simp [ha])
      _ = s.run [a] := hpair

/-- **The delete key takes back what was typed.** In every session that can be met, a digit,
the point, and an operator that has not replaced another are taken back, and the whole session
is as it was; and of operators pressed in a row only the last one counts. -/
theorem undoes_of_reachable (h : s.Reachable) :
    (∀ d, d.key? = some .delete → Undoes s d) ∧
      ∀ actions a, (∀ a' ∈ actions, a'.pressesOperator) → a.pressesOperator →
        s.run (actions ++ [a]) = s.run [a] :=
  ⟨fun _ hd => undoes h.upToDate h.wellFormed.ne_nil hd,
    fun _ _ hactions ha => h.upToDate.run_operators hactions ha⟩

/-- A sign that is left alone, after `5` was solved below zero and deleted. -/
def bareSign : Session := ({} : Session).run
  [.press (.operator .subtract), .press (.digit '5'), .solve, .delete]

theorem undoes_bareSign :
    bareSign.buffer = ['-'] ∧ bareSign.run [.pressLabel "7", .press .delete] = bareSign ∧
      bareSign.run [.pressLabel "÷", .delete] = ({} : Session) ∧
      ({} : Session).run [.press (.digit '7'), .delete] = {} ∧
      bareSign.run [.pressLabel "÷", .press (.operator .subtract)] = bareSign := by
  have hbare := Reachable.new.run
    [.press (.operator .subtract), .press (.digit '5'), .solve, .delete]
  obtain ⟨hundoes, hlast⟩ := undoes_of_reachable hbare
  refine ⟨by decide +kernel, (hundoes _ rfl).digit _ '7' (by decide +kernel) rfl, ?_,
    ((undoes_of_reachable .new).1 _ rfl).digit _ '7' rfl rfl, ?_⟩
  · have hreplaced : bareSign.run [.pressLabel "÷", .delete] = bareSign.run [.delete] :=
      (hundoes .delete rfl).replaced _ .divide (by decide +kernel) (by decide +kernel)
    exact hreplaced.trans (by decide +kernel)
  · refine (hlast [.pressLabel "÷"] _ ?_ ⟨.subtract, rfl⟩).trans (by decide +kernel)
    simp only [List.forall_mem_singleton]
    exact ⟨.divide, by decide +kernel⟩

end Session
end CurrencyPad
