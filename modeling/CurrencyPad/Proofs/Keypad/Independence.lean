/-
CurrencyPad.Proofs.Keypad.Independence — editing and the choice of
currencies do not interfere.

Some operations edit the buffer, the others choose the pair of currencies.
`run_interleaved`: however a sequence of edits and a sequence of choices
are interleaved, the session comes to the same state; its buffer is what
the edits alone make of it, and its pair what the choices alone make of
it.

## How the proof goes

* While the derived values are up to date, a silent operation may as well
  be followed by a recomputation, so that every operation is `edited` and
  then `recompute` (`state_act`). A run is all of its `edited` steps and
  one recomputation at the end (`run_eq_recompute`).
* An edit and a choice can change places (`edited_comm`), since neither
  reads what the other writes. So all edits of an interleaving can be
  moved to the front (`Interleaves.foldl_eq`).
-/
import Mathlib.Data.List.Induction
import CurrencyPad.Proofs.Keypad.Announcing

namespace CurrencyPad

/-! ## 1. Interleavings -/

/-- `zs` has the members of `xs` and those of `ys`, each of the two in its own order. -/
inductive Interleaves {α : Type} : List α → List α → List α → Prop
  | nil : Interleaves [] [] []
  | left {xs ys zs : List α} (x : α) :
      Interleaves xs ys zs → Interleaves (x :: xs) ys (x :: zs)
  | right {xs ys zs : List α} (y : α) :
      Interleaves xs ys zs → Interleaves xs (y :: ys) (y :: zs)

theorem Interleaves.symm {α : Type} {xs ys zs : List α} (h : Interleaves xs ys zs) :
    Interleaves ys xs zs := by
  induction h with
  | nil => exact .nil
  | left x _ ih => exact ih.right x
  | right y _ ih => exact ih.left y

/-- A step that commutes with all the others can be made last. -/
theorem foldl_of_comm {σ α : Type} {f : σ → α → σ} {y : α} {xs : List α}
    (hcomm : ∀ s, ∀ x ∈ xs, f (f s y) x = f (f s x) y) (s : σ) :
    xs.foldl f (f s y) = f (xs.foldl f s) y := by
  induction xs generalizing s with
  | nil => rfl
  | cons x xs ih =>
    rw [List.foldl_cons, List.foldl_cons, hcomm s x (by simp)]
    exact ih (fun s x' hx' => hcomm s x' (by simp [hx'])) (f s x)

/-- Where the steps of the two lists commute, one list can be gone through first. -/
theorem Interleaves.foldl_eq {σ α : Type} {f : σ → α → σ} {xs ys zs : List α}
    (h : Interleaves xs ys zs)
    (hcomm : ∀ s, ∀ x ∈ xs, ∀ y ∈ ys, f (f s y) x = f (f s x) y) (s : σ) :
    zs.foldl f s = ys.foldl f (xs.foldl f s) := by
  induction h generalizing s with
  | nil => rfl
  | left x _ ih =>
    exact ih (fun s x' hx' => hcomm s x' (by simp [hx'])) (f s x)
  | right y _ ih =>
    rw [List.foldl_cons, List.foldl_cons,
      ih (fun s x hx y' hy' => hcomm s x hx y' (by simp [hy'])) (f s y),
      foldl_of_comm (fun s x hx => hcomm s x hx y (by simp)) s]

namespace Session

/-! ## 2. Edits and choices -/

/-- The operation edits the buffer. Any other chooses the pair of currencies. -/
def Action.isEdit : Action → Bool
  | .press _ | .pressLabel _ | .delete | .solve | .percent | .setBuffer _ => true
  | .swap | .setSource _ | .setTarget _ | .rebind _ => false

theorem edit_of_choice (b : Buffer) {a : Action} (h : a.isEdit = false) : b.edit a = b := by
  cases a with
  | swap | setSource | setTarget | rebind => rfl
  | press | pressLabel | delete | solve | percent | setBuffer => cases h

theorem pair_of_edit (s : Session) {a : Action} (h : a.isEdit = true) :
    s.sourceAfter a = s.source ∧ s.targetAfter a = s.target := by
  cases a with
  | press | pressLabel | delete | solve | percent | setBuffer => exact ⟨rfl, rfl⟩
  | swap | setSource | setTarget | rebind => cases h

/-- What becomes of the pair depends on the pair only. -/
theorem pair_congr {s t : Session} (hsource : s.source = t.source) (htarget : s.target = t.target)
    (a : Action) : s.sourceAfter a = t.sourceAfter a ∧ s.targetAfter a = t.targetAfter a := by
  cases a <;> simp [sourceAfter, targetAfter, hsource, htarget]

theorem edited_of_edit (s : Session) {a : Action} (h : a.isEdit = true) :
    s.edited a = { s with buffer := s.buffer.edit a } := by
  obtain ⟨hsource, htarget⟩ := s.pair_of_edit h
  simp only [edited, hsource, htarget]

theorem edited_of_choice (s : Session) {a : Action} (h : a.isEdit = false) :
    s.edited a = { s with source := s.sourceAfter a, target := s.targetAfter a } := by
  simp only [edited, edit_of_choice s.buffer h]

/-- **An edit and a choice** can change places. -/
theorem edited_comm (s : Session) {a c : Action} (ha : a.isEdit = true) (hc : c.isEdit = false) :
    (s.edited c).edited a = (s.edited a).edited c := by
  rw [edited_of_edit _ ha, edited_of_edit _ ha, edited_of_choice _ hc, edited_of_choice _ hc]
  obtain ⟨hsource, htarget⟩ :=
    pair_congr (s := { s with buffer := s.buffer.edit a }) (t := s) rfl rfl c
  rw [hsource, htarget]

/-! ## 3. Runs -/

theorem edited_of_silent {s : Session} {a : Action} (h : Silent s a) : s.edited a = s := by
  cases h with
  | noValue hkey hvalue =>
    rw [evaluate_text] at hvalue
    rw [edited_of_key s hkey]
    simp [Buffer.press, Buffer.replacedBy, hvalue]
  | noPercentage hkey hvalue =>
    rw [edited_of_key s hkey]
    simp [Buffer.press, Buffer.replacedBy, hvalue]
  | @noKey label e hlabel =>
    have hkey : (Action.pressLabel label).key? = none := by
      unfold Key.ofLabel at hlabel
      split at hlabel
      · cases hlabel
      · rename_i hnone
        exact hnone
    rw [edited_of_edit s rfl]
    simp [Buffer.edit, hkey]

/-- **One operation** on a session that is up to date. -/
theorem UpToDate.state_act {s : Session} (h : UpToDate s) (a : Action) :
    (s.act a).state = (s.edited a).recompute := by
  by_cases hsilent : Silent s a
  · rw [(act_of_silent hsilent).1, edited_of_silent hsilent, h.recompute_eq]
  · rw [act_of_not_silent hsilent]
    rfl

/-- The derived values that an operation meets do not count. -/
theorem recompute_edited_recompute (s : Session) (a : Action) :
    (s.recompute.edited a).recompute = (s.edited a).recompute := by
  cases a <;> rfl

theorem foldl_edited_recompute (s : Session) (actions : List Action) :
    (actions.foldl edited s.recompute).recompute = (actions.foldl edited s).recompute := by
  induction actions using List.reverseRecOn with
  | nil => rfl
  | append_singleton actions a ih =>
    simp only [List.foldl_append, List.foldl_cons, List.foldl_nil]
    rw [← recompute_edited_recompute, ih, recompute_edited_recompute]

/-- **A run** recomputes once, at its end. -/
theorem UpToDate.run_eq_recompute {s : Session} (h : UpToDate s) (actions : List Action) :
    s.run actions = (actions.foldl edited s).recompute := by
  induction actions generalizing s with
  | nil => exact h.recompute_eq.symm
  | cons a rest ih =>
    have hrun : s.run (a :: rest) = (s.act a).state.run rest := rfl
    rw [hrun, ih (h.act a), h.state_act a, foldl_edited_recompute, List.foldl_cons]

/-- Operations that press keys edit the buffer only. -/
theorem foldl_edited_of_keys (s : Session) {actions : List Action} {keys : List Key}
    (h : actions.map Action.key? = keys.map some) :
    actions.foldl edited s = { s with buffer := keys.foldl Buffer.press s.buffer } := by
  induction actions generalizing s keys with
  | nil =>
    obtain rfl : keys = [] := by simpa using h.symm
    rfl
  | cons a rest ih =>
    cases keys with
    | nil => simp at h
    | cons key keys =>
      obtain ⟨hkey, hrest⟩ := List.cons.inj h
      rw [List.foldl_cons, edited_of_key s hkey, ih _ hrest, List.foldl_cons]

/-- **Keys that are pressed** leave what the machine of the buffer makes of them. -/
theorem UpToDate.run_of_keys {s : Session} (h : UpToDate s) {actions : List Action}
    {keys : List Key} (hkeys : actions.map Action.key? = keys.map some) :
    s.run actions = recompute { s with buffer := keys.foldl Buffer.press s.buffer } := by
  rw [h.run_eq_recompute, foldl_edited_of_keys s hkeys]

theorem buffer_foldl_of_choices (s : Session) {choices : List Action}
    (h : ∀ a ∈ choices, a.isEdit = false) : (choices.foldl edited s).buffer = s.buffer := by
  induction choices generalizing s with
  | nil => rfl
  | cons a rest ih =>
    rw [List.foldl_cons, ih _ fun a' ha' => h a' (by simp [ha'])]
    exact edit_of_choice s.buffer (h a (by simp))

theorem pair_foldl_of_edits (s : Session) {edits : List Action}
    (h : ∀ a ∈ edits, a.isEdit = true) :
    (edits.foldl edited s).source = s.source ∧ (edits.foldl edited s).target = s.target := by
  induction edits generalizing s with
  | nil => exact ⟨rfl, rfl⟩
  | cons a rest ih =>
    rw [List.foldl_cons, edited_of_edit s (h a (by simp))]
    exact ih _ fun a' ha' => h a' (by simp [ha'])

/-! ## 4. Interleaved edits and choices -/

/-- **Editing and choosing do not interfere**: any two interleavings of some edits and
some choices lead to the same session, with the buffer that the edits alone lead to and
the pair that the choices alone lead to. -/
theorem run_interleaved {s : Session} (h : s.Reachable)
    {edits choices actions actions' : List Action}
    (hedits : ∀ a ∈ edits, a.isEdit = true) (hchoices : ∀ a ∈ choices, a.isEdit = false)
    (hactions : Interleaves edits choices actions)
    (hactions' : Interleaves edits choices actions') :
    s.run actions = s.run actions' ∧
      (s.run actions).buffer = (s.run edits).buffer ∧
      (s.run actions).source = (s.run choices).source ∧
      (s.run actions).target = (s.run choices).target := by
  have hrun := h.upToDate.run_eq_recompute
  have hcomm (s : Session) (a : Action) (ha : a ∈ edits) (c : Action) (hc : c ∈ choices) :
      (s.edited c).edited a = (s.edited a).edited c :=
    s.edited_comm (hedits a ha) (hchoices c hc)
  have hfirst : actions.foldl edited s = choices.foldl edited (edits.foldl edited s) :=
    hactions.foldl_eq hcomm s
  have hlast : actions.foldl edited s = edits.foldl edited (choices.foldl edited s) :=
    hactions.symm.foldl_eq (fun s c hc a ha => (hcomm s a ha c hc).symm) s
  refine ⟨?_, ?_, ?_, ?_⟩
  · rw [hrun, hrun, hfirst, hactions'.foldl_eq hcomm s]
  · rw [hrun, hrun, hfirst]
    exact buffer_foldl_of_choices _ hchoices
  · rw [hrun, hrun, hlast]
    exact (pair_foldl_of_edits _ hedits).1
  · rw [hrun, hrun, hlast]
    exact (pair_foldl_of_edits _ hedits).2

/-- A quotient is typed and its divisor, a zero, is mended after an attempt to solve it. -/
def mendedEdits : List Action :=
  [.pressLabel "8", .pressLabel "÷", .press (.digit '0'), .solve, .delete, .pressLabel "4"]

/-- The pair is exchanged, and then the euro's rate refreshed. -/
def exchangedChoices : List Action := [.swap, .rebind (quotedPair .hundred)]

def mixedActions : List Action :=
  [.pressLabel "8", .swap, .pressLabel "÷", .press (.digit '0'), .solve,
    .rebind (quotedPair .hundred), .delete, .pressLabel "4"]

theorem interleaves_mixedActions : Interleaves mendedEdits exchangedChoices mixedActions :=
  .left _ <| .right _ <| .left _ <| .left _ <| .left _ <| .right _ <| .left _ <| .left _ .nil

theorem interleaves_append_exchangedChoices :
    Interleaves mendedEdits exchangedChoices (mendedEdits ++ exchangedChoices) :=
  .left _ <| .left _ <| .left _ <| .left _ <| .left _ <| .left _ <| .right _ <| .right _ .nil

theorem run_interleaved_mixedActions :
    ((quotedSession .one).run mixedActions).converted = { coeff := 2, scale := 2 } ∧
      (quotedSession .one).run mixedActions =
        (quotedSession .one).run (mendedEdits ++ exchangedChoices) :=
  ⟨by decide +kernel,
    (run_interleaved (.start _ _) (by decide) (by decide) interleaves_mixedActions
      interleaves_append_exchangedChoices).1⟩

end Session
end CurrencyPad
