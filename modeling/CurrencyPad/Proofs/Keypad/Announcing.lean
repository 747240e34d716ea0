/-
CurrencyPad.Proofs.Keypad.Announcing — derived values and announcements.

A session keeps two values that are derived from its buffer and its pair,
and it tells observers of its state. Neither falls behind the session:

* `upToDate_of_reachable`: in every session that can be met the derived
  values are those of the buffer and the pair.
* `announces_or_silent`: an operation announces the state it leads to,
  once, or it is `Silent` and changes nothing. So the last announcement of
  a run always tells the state that the run has come to.

## How the proof goes

Everything rests on one description of what an operation does. A silent
one asks for a result that is not there, or presses a label that names no
key (`act_of_silent`). Any other edits the buffer and the pair, whatever
the path it takes to do so, and is then recomputed and announced
(`act_of_not_silent`).
-/
import CurrencyPad.Proofs.Keypad.Run

namespace CurrencyPad

/-- The event tells the state of a session: the text of its buffer, its derived
values, and the codes of its pair. -/
def Event.Describes (e : Event) (s : Session) : Prop :=
  e = .conversionUpdated (String.ofList s.buffer) s.value s.converted
    (s.source.map Currency.code) (s.target.map Currency.code)

namespace Session

/-! ## 1. What an operation does -/

/-- The operation finds nothing to do. -/
inductive Silent (s : Session) : Action → Prop
  /-- The buffer is to be solved, and it has no value. -/
  | noValue {a : Action} (hkey : a.key? = some .equals)
      (hvalue : Expression.evaluate s.text = none) : Silent s a
  /-- A percentage is to be taken, and there is none. -/
  | noPercentage {a : Action} (hkey : a.key? = some .percent)
      (hvalue : s.buffer.percentage? = none) : Silent s a
  /-- The label names no key. -/
  | noKey {label : String} {e : InputError} (hlabel : Key.ofLabel label = .error e) :
      Silent s (.pressLabel label)

/-- What an operation makes of the source. -/
def sourceAfter (s : Session) : Action → Option Currency
  | .swap => s.target
  | .setSource c => some c
  | .rebind currencies => s.source.map (freshCopy currencies)
  | _ => s.source

/-- What an operation makes of the target. -/
def targetAfter (s : Session) : Action → Option Currency
  | .swap => s.source
  | .setTarget c => some c
  | .rebind currencies => s.target.map (freshCopy currencies)
  | _ => s.target

/-- The session with its buffer and its pair as an operation makes them, and its
values as they were. -/
def edited (s : Session) (a : Action) : Session :=
  { s with
    buffer := s.buffer.edit a
    source := s.sourceAfter a
    target := s.targetAfter a }

theorem evaluate_text (s : Session) :
    Expression.evaluate s.text = Expression.evaluateChars s.buffer := by
  rw [Expression.evaluate, text, String.toList_ofList]

/-- An operation that presses a key is that key pressed. -/
theorem act_of_key (s : Session) {a : Action} {key : Key} (hkey : a.key? = some key) :
    s.act a = s.press key := by
  cases a with
  | pressLabel label =>
    have hlabel : Key.ofLabelChars? (Text.trimChars label.toList) = some key := hkey
    simp only [act, pressLabel, Key.ofLabel, hlabel]
  | press key' => cases hkey; rfl
  | delete => cases hkey; rfl
  | solve => cases hkey; rfl
  | percent => cases hkey; rfl
  | setBuffer text => cases hkey
  | swap => cases hkey
  | setSource c => cases hkey
  | setTarget c => cases hkey
  | rebind currencies => cases hkey

/-- A key edits the buffer only. -/
theorem edited_of_key (s : Session) {a : Action} {key : Key} (hkey : a.key? = some key) :
    s.edited a = { s with buffer := s.buffer.press key } := by
  have hbuffer : s.buffer.edit a = s.buffer.press key := by
    simp only [Buffer.edit, hkey]
  cases a with
  | pressLabel label => simp only [edited, hbuffer]; rfl
  | press key' => cases hkey; rfl
  | delete => cases hkey; rfl
  | solve => cases hkey; rfl
  | percent => cases hkey; rfl
  | setBuffer text => cases hkey
  | swap => cases hkey
  | setSource c => cases hkey
  | setTarget c => cases hkey
  | rebind currencies => cases hkey

/-- **A silent operation** changes nothing and says nothing. -/
theorem act_of_silent {s : Session} {a : Action} (h : Silent s a) :
    (s.act a).state = s ∧ (s.act a).events = [] := by
  cases h with
  | noValue hkey hvalue =>
    rw [evaluate_text] at hvalue
    rw [act_of_key s hkey]
    simp [press, solve, hvalue, unchanged]
  | noPercentage hkey hvalue =>
    rw [act_of_key s hkey]
    simp [press, percent, hvalue, unchanged]
  | noKey hlabel => simp [act, pressLabel, hlabel]

/-- **Any other operation** edits the buffer and the pair; then the session is
recomputed and announced. -/
theorem act_of_not_silent {s : Session} {a : Action} (h : ¬Silent s a) :
    s.act a = announce (s.edited a) := by
  cases hkey : a.key? with
  | some key =>
    rw [act_of_key s hkey, edited_of_key s hkey]
    cases key with
    | equals =>
      cases hvalue : Expression.evaluateChars s.buffer with
      | none => exact absurd (.noValue hkey (by rw [evaluate_text, hvalue])) h
      | some v => simp [press, solve, Buffer.press, Buffer.replacedBy, hvalue]
    | percent =>
      cases hvalue : s.buffer.percentage? with
      | none => exact absurd (.noPercentage hkey hvalue) h
      | some v => simp [press, percent, Buffer.press, Buffer.replacedBy, hvalue]
    | delete => rfl
    | clear => rfl
    | digit c => rfl
    | point => rfl
    | operator op => rfl
  | none =>
    cases a with
    | pressLabel label =>
      have hlabel : Key.ofLabelChars? (Text.trimChars label.toList) = none := hkey
      exact absurd (.noKey (e := .unknownKey label) (by simp [Key.ofLabel, hlabel])) h
    | press key => cases hkey
    | delete => cases hkey
    | solve => cases hkey
    | percent => cases hkey
    | setBuffer text => rfl
    | swap => rfl
    | setSource c => rfl
    | setTarget c => rfl
    | rebind currencies => rfl

/-! ## 2. Derived values -/

/-- The derived values are those of the buffer and the pair. -/
structure UpToDate (s : Session) : Prop where
  value : s.value = Expression.evaluate s.text
  /-- With a value and a pair, the converted amount is that value converted. -/
  converted : ∀ v source target, s.value = some v → s.source = some source →
    s.target = some target → s.converted = convert v source target
  /-- Without a value or without a pair it is zero. -/
  idle : s.value = none ∨ s.source = none ∨ s.target = none → s.converted = .zero

theorem convertedAmount_of_none {value : Option Decimal} {source target : Option Currency}
    (h : value = none ∨ source = none ∨ target = none) :
    convertedAmount value source target = .zero := by
  rcases h with rfl | rfl | rfl
  · rfl
  · cases value <;> rfl
  · cases value <;> cases source <;> rfl

theorem converted_recompute (s : Session) :
    s.recompute.converted =
      convertedAmount s.recompute.value s.recompute.source s.recompute.target := rfl

theorem upToDate_recompute (s : Session) : UpToDate s.recompute where
  value := (evaluate_text s.recompute).symm
  converted := by
    intro v source target hvalue hsource htarget
    rw [converted_recompute, hvalue, hsource, htarget]
    rfl
  idle := by
    intro hidle
    rw [converted_recompute, convertedAmount_of_none hidle]

/-- Nothing is left to be recomputed. -/
theorem UpToDate.recompute_eq {s : Session} (h : UpToDate s) : s.recompute = s := by
  have hvalue : Expression.evaluateChars s.buffer = s.value := by
    rw [h.value, evaluate_text]
  have hconverted : convertedAmount s.value s.source s.target = s.converted := by
    cases hv : s.value with
    | none => exact (h.idle (.inl hv)).symm
    | some v =>
      cases hs : s.source with
      | none => exact (h.idle (.inr (.inl hs))).symm
      | some a =>
        cases ht : s.target with
        | none => exact (h.idle (.inr (.inr ht))).symm
        | some b => exact (h.converted v a b hv hs ht).symm
  simp only [recompute, hvalue, hconverted]

/-- **One operation** leaves derived values that are up to date. -/
theorem UpToDate.act {s : Session} (h : UpToDate s) (a : Action) :
    UpToDate (s.act a).state := by
  by_cases hsilent : Silent s a
  · rw [(act_of_silent hsilent).1]
    exact h
  · rw [act_of_not_silent hsilent]
    exact upToDate_recompute _

theorem upToDate_new : UpToDate {} where
  value := by decide +kernel
  converted := by intro v source target _ hsource; cases hsource
  idle := fun _ => rfl

theorem Reachable.upToDate {s : Session} (h : s.Reachable) : UpToDate s := by
  induction h with
  | new => exact upToDate_new
  | start settings currencies => exact upToDate_recompute _
  | format format _ ih => exact ⟨ih.value, ih.converted, ih.idle⟩
  | act a _ ih => exact ih.act a

/-- **Derived values are never stale**: in every session that can be met they are
those of the buffer and the pair. -/
theorem upToDate_of_reachable {s : Session} (h : s.Reachable) : UpToDate s := h.upToDate

/-- A dollar and a euro. -/
def quotedPair (euro : Decimal) : List Currency :=
  [{ code := "USD", rate := some .one }, { code := "EUR", rate := some euro }]

/-- A session with that pair. -/
def quotedSession (euro : Decimal) : Session :=
  start { source := "USD", target := "EUR" } (quotedPair euro)

/-- A quotient by zero that cannot be solved, a label of no key, the zero replaced by a
four, the pair exchanged, and then the euro's rate refreshed. -/
def interruptedKeys : List Action :=
  [.pressLabel "8", .pressLabel "÷", .press (.digit '0'), .solve, .pressLabel "%%", .delete,
    .press (.digit '4'), .swap, .rebind (quotedPair { coeff := 8, scale := 1 })]

def interrupted : Session :=
  (start { source := "USD", target := "EUR" } (quotedPair { coeff := 9, scale := 1 })).run
    interruptedKeys

theorem upToDate_interrupted :
    interrupted.value = some { coeff := 2, scale := 0 } ∧
      interrupted.converted = { coeff := 25, scale := 1 } ∧ UpToDate interrupted :=
  ⟨by decide +kernel, by decide +kernel,
    upToDate_of_reachable ((Reachable.start _ _).run interruptedKeys)⟩

/-! ## 3. Announcements -/

theorem describes_announcement (s : Session) : s.announcement.Describes s := rfl

/-- What observers hear during a sequence of operations. -/
def transcript (s : Session) : List Action → List Event
  | [] => []
  | a :: rest => (s.act a).events ++ (s.act a).state.transcript rest

/-- **One operation** is silent or announces the state that it leads to. -/
theorem act_cases (s : Session) (a : Action) :
    (Silent s a ∧ (s.act a).events = [] ∧ (s.act a).state = s) ∨
      (¬Silent s a ∧ (s.act a).events = [(s.act a).state.announcement]) := by
  by_cases hsilent : Silent s a
  · obtain ⟨hstate, hevents⟩ := act_of_silent hsilent
    exact .inl ⟨hsilent, hevents, hstate⟩
  · refine .inr ⟨hsilent, ?_⟩
    rw [act_of_not_silent hsilent]
    rfl

/-- **A run** of silent operations has changed nothing, and any other has announced
the state that it has come to. -/
theorem run_cases (s : Session) (actions : List Action) :
    (s.transcript actions = [] ∧ s.run actions = s) ∨
      (s.transcript actions).getLast? = some (s.run actions).announcement := by
  induction actions generalizing s with
  | nil => exact .inl ⟨rfl, rfl⟩
  | cons a rest ih =>
    have hrun : s.run (a :: rest) = (s.act a).state.run rest := rfl
    rw [transcript, hrun]
    rcases ih (s.act a).state with ⟨hrest, hstate⟩ | hlast
    · -- the last to speak, if there is one, is the first operation
      rw [hrest, hstate, List.append_nil]
      rcases s.act_cases a with ⟨-, hevents, hsame⟩ | ⟨-, hevents⟩
      · exact .inl ⟨hevents, hsame⟩
      · exact .inr (by rw [hevents]; rfl)
    · exact .inr (by rw [List.getLast?_append, hlast]; rfl)

/-- **Announcements are faithful.** An operation is silent and changes nothing, or it
announces once, and what it announces is the state that it leads to. Over a whole run
either nothing was said and nothing has changed, or the last announcement tells the
state that the run has come to. -/
theorem announces_or_silent (s : Session) :
    (∀ a, (Silent s a ∧ (s.act a).events = [] ∧ (s.act a).state = s) ∨
      (¬Silent s a ∧ ∃ e, (s.act a).events = [e] ∧ e.Describes (s.act a).state)) ∧
    ∀ actions, (s.transcript actions = [] ∧ s.run actions = s) ∨
      ∃ e, (s.transcript actions).getLast? = some e ∧ e.Describes (s.run actions) := by
  constructor
  · intro a
    rcases s.act_cases a with hsilent | ⟨hsilent, hevents⟩
    · exact .inl hsilent
    · exact .inr ⟨hsilent, _, hevents, describes_announcement _⟩
  · intro actions
    rcases s.run_cases actions with hquiet | hlast
    · exact .inl hquiet
    · exact .inr ⟨_, hlast, describes_announcement _⟩

/-- A dead key changes nothing, and is announced all the same. -/
example : (({} : Session).press (.digit 'a')).state = {} ∧
    (({} : Session).press (.digit 'a')).events = [({} : Session).announcement] := by
  decide +kernel

end Session
end CurrencyPad
