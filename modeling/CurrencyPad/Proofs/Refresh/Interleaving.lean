/-
CurrencyPad.Proofs.Refresh.Interleaving — refreshes that run at the same
time.

Any number of refreshes share a world. They take their steps in turn, in
any order (`Pool.run`); what the requests are answered, and which steps
fail, is left open. `singleFlight_run` says what the lock is worth:

* at most one refresh holds it at any time, and it is free when none does;
* a refresh that finds it taken ends at once, and one that finds it free
  goes on to its request;
* however the interleaving went, whenever no refresh holds the lock the
  repository and the events are those that come of running the refreshes
  that have taken it one after the other, in the order in which they took
  it; and each has the result that it has there.

## How the proof goes

`Serial` is the invariant. While the lock is free the world agrees with
the serial run of all that took it. While it is held, the holder alone has
effects, so what matters is where its remaining steps lead: to finish it
from here (`finish`) comes to the same as to run it serially after those
before it. A step of the holder does not change where that leads
(`Pool.finish_step_of_holdsLock`), and the others only write to the log,
which has no effect (`World.Agrees.finish`). `Serial.step` is the case
analysis.
-/
import Mathlib.Logic.Function.Basic
import CurrencyPad.Proofs.Refresh.Agreement
import CurrencyPad.Proofs.Refresh.Applied

namespace CurrencyPad.Refresh

/-! ## 1. Refreshes that share a world -/

/-- The refresh has taken the lock and has not given it back. -/
def Stage.holdsLock : Stage → Bool
  | .starting | .done _ => false
  | .fetching | .loading _ | .writing _ _ _ _ | .announcing _ _ | .releasing _ => true

/-- A world that refreshes share, and how far each of them has come. -/
structure Pool (ι σ : Type) where
  world : World σ
  stage : ι → Stage

namespace Pool

variable {ι σ : Type}

/-- All refreshes are about to start. -/
def start (w : World σ) : Pool ι σ := ⟨w, fun _ => .starting⟩

/-- No refresh is running. -/
def Idle (p : Pool ι σ) : Prop := ∀ i, (p.stage i).holdsLock = false

/-- The next step of a refresh takes the lock. -/
def takesLock (p : Pool ι σ) (i : ι) : Bool :=
  match p.stage i with
  | .starting => !p.world.locked
  | _ => false

variable [DecidableEq ι] [Repository σ] (requests : ι → Request)

/-- One of the refreshes takes its next step. -/
def step (p : Pool ι σ) (i : ι) : Pool ι σ where
  world := (advance (requests i) p.world (p.stage i)).1
  stage := Function.update p.stage i (advance (requests i) p.world (p.stage i)).2

/-- The refreshes take steps as a schedule says. -/
def run (p : Pool ι σ) (schedule : List ι) : Pool ι σ := schedule.foldl (step requests) p

/-- The refreshes that take the lock during a schedule, in that order. -/
def lockOrder (p : Pool ι σ) : List ι → List ι
  | [] => []
  | i :: schedule =>
    if p.takesLock i then i :: (p.step requests i).lockOrder schedule
    else (p.step requests i).lockOrder schedule

end Pool

variable {ι σ : Type} [Repository σ] {requests : ι → Request}

/-- Refreshes one after the other. -/
def serially (requests : ι → Request) (w : World σ) (order : List ι) : World σ :=
  order.foldl (fun w i => (update (requests i) w).1) w

theorem serially_concat (w : World σ) (order : List ι) (i : ι) :
    serially requests w (order ++ [i]) =
      (update (requests i) (serially requests w order)).1 := by
  rw [serially, List.foldl_append]
  rfl

/-! ## 2. One step -/

theorem result?_of_holdsLock {stage : Stage} (h : stage.holdsLock = true) :
    stage.result? = none := by
  cases stage with
  | done result => simp [Stage.holdsLock] at h
  | _ => rfl

/-- A refresh that holds the lock keeps it, or is done and has given it back. -/
theorem advance_of_holdsLock (request : Request) (w : World σ) {stage : Stage}
    (h : stage.holdsLock = true) :
    ((advance request w stage).2.holdsLock = true ∧
        (advance request w stage).1.locked = w.locked) ∨
      ∃ result, (advance request w stage).2 = .done result ∧
        (advance request w stage).1.locked = false := by
  cases stage with
  | starting => simp [Stage.holdsLock] at h
  | fetching =>
    left
    simp only [advance]
    cases request.reply with
    | ok table => exact ⟨rfl, rfl⟩
    | error e => exact ⟨rfl, (agrees_reportFailure _ _ _).locked⟩
  | loading table =>
    left
    simp only [advance]
    split
    · exact ⟨rfl, rfl⟩
    · exact ⟨rfl, rfl⟩
  | writing table todo updated stale =>
    left
    cases todo with
    | nil => exact ⟨rfl, (agrees_reportApplied w _ _ _).locked⟩
    | cons c todo =>
      simp only [advance, writeNext]
      split
      · exact ⟨rfl, rfl⟩
      · split
        · exact ⟨rfl, rfl⟩
        · refine ⟨?_, rfl⟩
          split
          · rfl
          · rfl
  | announcing updated result => exact .inl ⟨rfl, rfl⟩
  | releasing result => exact .inr ⟨result, rfl, rfl⟩
  | done result => simp [Stage.holdsLock] at h

namespace Pool

variable [DecidableEq ι] {p : Pool ι σ} {i : ι}

theorem stage_step_self (p : Pool ι σ) (i : ι) :
    (p.step requests i).stage i = (advance (requests i) p.world (p.stage i)).2 :=
  Function.update_self _ _ _

theorem stage_step_of_ne (p : Pool ι σ) {j : ι} (h : j ≠ i) :
    (p.step requests i).stage j = p.stage j := Function.update_of_ne h _ _

/-- What holds of the refresh that took the step, and held of the others before, holds of
all. -/
theorem forall_stage_step {P : ι → Stage → Prop} (hi : P i ((p.step requests i).stage i))
    (hothers : ∀ j, j ≠ i → P j (p.stage j)) (j : ι) : P j ((p.step requests i).stage j) := by
  by_cases hj : j = i
  · rw [hj]
    exact hi
  · rw [stage_step_of_ne p hj]
    exact hothers j hj

theorem step_of_done {result : Except Error RefreshOutcome} (h : p.stage i = .done result) :
    p.step requests i = p := by
  simp only [step, h, advance]
  rw [← h, Function.update_eq_self]

/-- A refresh that finds the lock free goes on to its request. -/
theorem step_of_free (requests : ι → Request) (h : p.stage i = .starting)
    (hfree : p.world.locked = false) :
    (p.step requests i).world = { p.world with locked := true } ∧
      (p.step requests i).stage i = .fetching := by
  rw [stage_step_self, step, h, advance, if_neg (by simp [hfree])]
  exact ⟨rfl, rfl⟩

/-- A refresh that finds the lock taken is done, and only the log shows it. -/
theorem step_of_locked (requests : ι → Request) (h : p.stage i = .starting)
    (hlocked : p.world.locked = true) :
    (p.step requests i).world.Agrees p.world ∧
      (p.step requests i).stage i = .done (.ok .alreadyInFlight) := by
  rw [stage_step_self, step, h, advance, if_pos hlocked]
  exact ⟨agrees_report _ _ _, rfl⟩

/-- A step of the refresh that holds the lock: it keeps the lock, or gives it back. -/
theorem step_of_holdsLock (requests : ι → Request) (h : (p.stage i).holdsLock = true) :
    (((p.step requests i).stage i).holdsLock = true ∧
        (p.step requests i).world.locked = p.world.locked) ∨
      ∃ result, (p.step requests i).stage i = .done result ∧
        (p.step requests i).world.locked = false := by
  rw [stage_step_self]
  exact advance_of_holdsLock (requests i) p.world h

/-- Where the remaining steps of the holder lead does not change with the next of them. -/
theorem finish_step_of_holdsLock (requests : ι → Request) (h : (p.stage i).holdsLock = true) :
    finish (requests i) (p.step requests i).world ((p.step requests i).stage i) =
      finish (requests i) p.world (p.stage i) := by
  rw [stage_step_self, finish_step _ p.world (result?_of_holdsLock h)]
  rfl

/-- A refresh that is run on its own comes to its end. -/
theorem exists_run_done (requests : ι → Request) (p : Pool ι σ) (i : ι) :
    ∃ n, ((p.run requests (List.replicate n i)).stage i).result?.isSome = true := by
  cases hresult : (p.stage i).result? with
  | some result => exact ⟨0, by rw [List.replicate_zero, run, List.foldl_nil, hresult]; rfl⟩
  | none =>
    obtain ⟨n, hn⟩ := exists_run_done requests (p.step requests i) i
    exact ⟨n + 1, hn⟩
termination_by (p.stage i).remaining
decreasing_by
  rw [stage_step_self]
  exact remaining_advance (requests i) p.world (p.stage i) hresult

end Pool

/-! ## 3. The invariant -/

/-- How a refresh has ended: it was skipped, or has the result that it has in its turn
when those that took the lock are run one after the other. -/
inductive EndsAs (requests : ι → Request) (w : World σ) (order : List ι) (i : ι) :
    Except Error RefreshOutcome → Prop
  | skipped (hnot : i ∉ order) : EndsAs requests w order i (.ok .alreadyInFlight)
  | inTurn {before after : List ι} (horder : order = before ++ i :: after) :
      EndsAs requests w order i (update (requests i) (serially requests w before)).2

/-- The world while the lock is free, and while a refresh holds it. -/
inductive LockState (requests : ι → Request) (w : World σ) (order : List ι) (p : Pool ι σ) :
    Prop
  /-- The world is that of the serial run. -/
  | free (hlocked : p.world.locked = false) (hidle : p.Idle)
      (hworld : p.world.Agrees (serially requests w order))
  /-- The holder was the last to take the lock, and its remaining steps lead to where it
  leads in the serial run. -/
  | held {i : ι} {before : List ι} (horder : order = before ++ [i])
      (hlocked : p.world.locked = true) (hholder : ∀ j, (p.stage j).holdsLock = true ↔ j = i)
      (hworld : (finish (requests i) p.world (p.stage i)).1.Agrees
        (update (requests i) (serially requests w before)).1)
      (hresult : (finish (requests i) p.world (p.stage i)).2 =
        (update (requests i) (serially requests w before)).2)

/-- The refreshes of a pool that began with the world `w`, when those of `order` have
taken the lock so far. -/
structure Serial (requests : ι → Request) (w : World σ) (order : List ι) (p : Pool ι σ) :
    Prop where
  lock : LockState requests w order p
  waiting : ∀ i ∈ order, p.stage i ≠ .starting
  ended : ∀ i result, p.stage i = .done result → EndsAs requests w order i result
  nodup : order.Nodup

section Invariant

variable {w : World σ} {order : List ι} {p : Pool ι σ} {i : ι}

theorem EndsAs.concat {result : Except Error RefreshOutcome} {j : ι}
    (h : EndsAs requests w order i result) (hne : i ≠ j) :
    EndsAs requests w (order ++ [j]) i result := by
  cases h with
  | skipped hnot => exact .skipped (by simp [hnot, hne])
  | inTurn horder => exact .inTurn (by rw [horder, List.append_assoc, List.cons_append])

variable [DecidableEq ι]

theorem Serial.waiting_step (h : Serial requests w order p)
    (hi : (p.step requests i).stage i ≠ .starting) :
    ∀ j ∈ order, (p.step requests i).stage j ≠ .starting :=
  Pool.forall_stage_step (P := fun j s => j ∈ order → s ≠ .starting) (fun _ => hi)
    fun j _ => h.waiting j

theorem Serial.ended_step (h : Serial requests w order p)
    (hi : ∀ result, (p.step requests i).stage i = .done result →
      EndsAs requests w order i result) :
    ∀ j result, (p.step requests i).stage j = .done result →
      EndsAs requests w order j result :=
  Pool.forall_stage_step
    (P := fun j s => ∀ result, s = .done result → EndsAs requests w order j result) hi
    fun j _ => h.ended j

/-- **The lock is taken**: the refresh is about to do what it does after all those
before it. -/
theorem Serial.take (h : Serial requests w order p) (hfree : p.world.locked = false)
    (hi : p.stage i = .starting) : Serial requests w (order ++ [i]) (p.step requests i) := by
  have hnot : i ∉ order := fun hmem => h.waiting i hmem hi
  obtain ⟨hstep, hstage⟩ := Pool.step_of_free requests hi hfree
  refine ⟨?_, ?_, ?_, ?_⟩
  · cases h.lock with
    | held _ hlocked => simp [hfree] at hlocked
    | free _ hidle hworld =>
      have hstart : update (requests i) p.world =
          finish (requests i) (p.step requests i).world ((p.step requests i).stage i) := by
        rw [update, finish_step _ _ rfl, hstep, hstage]
        simp [advance, hfree]
      obtain ⟨hagrees, hsame⟩ := hworld.update (requests i)
      rw [hstart] at hagrees hsame
      refine .held rfl (by rw [hstep]) ?_ hagrees hsame
      refine Pool.forall_stage_step (P := fun j s => s.holdsLock = true ↔ j = i) ?_ ?_
      · simp [hstage, Stage.holdsLock]
      · intro j hj
        simp [hidle j, hj]
  · refine Pool.forall_stage_step (P := fun j s => j ∈ order ++ [i] → s ≠ .starting) ?_ ?_
    · simp [hstage]
    · intro j hj hmem
      exact h.waiting j (by simpa [hj] using hmem)
  · refine Pool.forall_stage_step
      (P := fun j s => ∀ result, s = .done result → EndsAs requests w (order ++ [i]) j result) ?_ ?_
    · simp [hstage]
    · intro j hj result hdone
      exact (h.ended j result hdone).concat hj
  · rw [List.nodup_append]
    refine ⟨h.nodup, by simp, fun j hj k hk => ?_⟩
    obtain rfl := List.mem_singleton.mp hk
    rintro rfl
    exact hnot hj

/-- **The lock is found taken**: the refresh is done, and nothing has changed for the
others. -/
theorem Serial.skip (h : Serial requests w order p) (hlocked : p.world.locked = true)
    (hi : p.stage i = .starting) : Serial requests w order (p.step requests i) := by
  obtain ⟨hagrees, hstage⟩ := Pool.step_of_locked requests hi hlocked
  refine ⟨?_, ?_, ?_, h.nodup⟩
  · cases h.lock with
    | free hfree => simp [hlocked] at hfree
    | @held k before horder _ hholder hworld hresult =>
      have hki : k ≠ i := by
        rintro rfl
        simpa [hi, Stage.holdsLock] using (hholder k).mpr rfl
      obtain ⟨hend, hsame⟩ := hagrees.finish (requests k) (p.stage k)
      have hstagek : (p.step requests i).stage k = p.stage k := Pool.stage_step_of_ne p hki
      refine .held horder (hagrees.locked.trans hlocked) ?_
        (by rw [hstagek]; exact hend.trans hworld) (by rw [hstagek, hsame, hresult])
      refine Pool.forall_stage_step (P := fun j s => s.holdsLock = true ↔ j = k) ?_ ?_
      · simp [hstage, Stage.holdsLock, Ne.symm hki]
      · exact fun j _ => hholder j
  · exact h.waiting_step (by simp [hstage])
  · refine h.ended_step fun result hdone => ?_
    obtain rfl := Stage.done.inj (hstage.symm.trans hdone)
    exact .skipped fun hmem => h.waiting i hmem hi

/-- **The holder goes on**, and gives the lock back when it is done. -/
theorem Serial.proceed (h : Serial requests w order p) (hi : (p.stage i).holdsLock = true) :
    Serial requests w order (p.step requests i) := by
  cases h.lock with
  | free _ hidle => simp [hidle i] at hi
  | @held k before horder hlocked hholder hworld hresult =>
    obtain rfl := (hholder i).mp hi
    rw [← Pool.finish_step_of_holdsLock requests hi] at hworld hresult
    have hothers : ∀ j, j ≠ i → (p.stage j).holdsLock = false := by
      intro j hj
      simpa [hj] using hholder j
    rcases Pool.step_of_holdsLock requests hi with ⟨hkeeps, hlock⟩ | ⟨result, hdone, hfree⟩
    · refine ⟨.held horder (hlock.trans hlocked) ?_ hworld hresult, h.waiting_step ?_,
        h.ended_step ?_, h.nodup⟩
      · refine Pool.forall_stage_step (P := fun j s => s.holdsLock = true ↔ j = i) ?_ ?_
        · simp [hkeeps]
        · exact fun j _ => hholder j
      · intro hstarting
        simp [hstarting, Stage.holdsLock] at hkeeps
      · intro result hdone
        simp [hdone, Stage.holdsLock] at hkeeps
    · rw [hdone, finish_done] at hworld hresult
      refine ⟨.free hfree ?_ ?_, h.waiting_step (by simp [hdone]), h.ended_step ?_, h.nodup⟩
      · refine Pool.forall_stage_step (P := fun _ s => s.holdsLock = false) ?_ hothers
        simp [hdone, Stage.holdsLock]
      · rwa [horder, serially_concat]
      · intro result' hdone'
        obtain rfl := Stage.done.inj (hdone.symm.trans hdone')
        rw [show result = _ from hresult]
        exact .inTurn horder

/-- **One step of one refresh** keeps the invariant. -/
theorem Serial.step (h : Serial requests w order p) (i : ι) :
    Serial requests w (order ++ if p.takesLock i then [i] else []) (p.step requests i) := by
  cases hstage : p.stage i with
  | starting =>
    cases hlocked : p.world.locked with
    | false => simpa [Pool.takesLock, hstage, hlocked] using h.take hlocked hstage
    | true => simpa [Pool.takesLock, hstage, hlocked] using h.skip hlocked hstage
  | done result => simpa [Pool.takesLock, hstage, Pool.step_of_done hstage] using h
  | _ =>
    have hholds : (p.stage i).holdsLock = true := by rw [hstage]; rfl
    simpa [Pool.takesLock, hstage] using h.proceed hholds

/-- **A whole schedule** keeps the invariant. -/
theorem Serial.run (h : Serial requests w order p) (schedule : List ι) :
    Serial requests w (order ++ p.lockOrder requests schedule) (p.run requests schedule) := by
  induction schedule generalizing order p with
  | nil => simpa [Pool.lockOrder, Pool.run] using h
  | cons i schedule ih =>
    have hrest := ih (h.step i)
    rw [List.append_assoc] at hrest
    rw [Pool.lockOrder]
    split <;> rename_i htakes
    · simpa [htakes, Pool.run] using hrest
    · simpa [htakes, Pool.run] using hrest

omit [DecidableEq ι] in
theorem serial_start (requests : ι → Request) (hfree : w.locked = false) :
    Serial requests w [] (Pool.start w) where
  lock := .free hfree (fun _ => rfl) (.refl w)
  waiting := by simp
  ended := by intro i result h; cases h
  nodup := .nil

omit [DecidableEq ι] in
theorem LockState.locked_iff (h : LockState requests w order p) :
    p.world.locked = true ↔ ∃ i, (p.stage i).holdsLock = true := by
  cases h with
  | free hfree hidle => simp [hfree, hidle _]
  | @held i _ _ hlocked hholder => simp [hlocked, hholder]

end Invariant

/-! ## 4. The result -/

/-- What holds at every moment of an interleaving that began with the world `w`, when the
refreshes of `order` have taken the lock so far. -/
structure SingleFlight [DecidableEq ι] (requests : ι → Request) (w : World σ)
    (order : List ι) (p : Pool ι σ) : Prop where
  /-- At most one refresh holds the lock. -/
  exclusive : ∀ i j, (p.stage i).holdsLock = true → (p.stage j).holdsLock = true → i = j
  /-- The lock is taken while a refresh holds it, and free otherwise. -/
  locked_iff : p.world.locked = true ↔ ∃ i, (p.stage i).holdsLock = true
  /-- A refresh that starts while another one runs is done at once: it makes no request,
  writes nothing and tells observers nothing. -/
  skips : ¬p.Idle → ∀ i, p.stage i = .starting →
    (p.step requests i).stage i = .done (.ok .alreadyInFlight) ∧
      (p.step requests i).world.Agrees p.world
  /-- A refresh that starts while no other one runs goes on to its request. -/
  proceeds : p.Idle → ∀ i, p.stage i = .starting → (p.step requests i).stage i = .fetching
  /-- Whatever its result, a refresh has given the lock back when it is done. -/
  releases : ∀ i result, (p.stage i).holdsLock = true →
    (p.step requests i).stage i = .done result → (p.step requests i).world.locked = false
  /-- Every refresh can come to its end. -/
  ends : ∀ i, ∃ n, ((p.run requests (List.replicate n i)).stage i).result?.isSome = true
  /-- While no refresh runs, the repository and the events are those of the serial run. -/
  serial : p.Idle → p.world.Agrees (serially requests w order)
  /-- The result of each refresh is that of its turn in the serial run, or that it was
  skipped. -/
  results : ∀ i result, p.stage i = .done result → EndsAs requests w order i result
  /-- No refresh takes the lock twice. -/
  nodup : order.Nodup

/-- **Refreshes are single-flight** under every interleaving. -/
theorem singleFlight_run [DecidableEq ι] (requests : ι → Request) {w : World σ}
    (hfree : w.locked = false) (schedule : List ι) :
    SingleFlight requests w ((Pool.start w).lockOrder requests schedule)
      ((Pool.start w).run requests schedule) := by
  have h := (serial_start requests hfree).run schedule
  rw [List.nil_append] at h
  generalize (Pool.start w).lockOrder requests schedule = order at h ⊢
  generalize (Pool.start w).run requests schedule = p at h ⊢
  have hlocked := h.lock.locked_iff
  constructor
  case exclusive =>
    intro i j hi hj
    cases h.lock with
    | free _ hidle => simp [hidle i] at hi
    | held _ _ hholder => rw [(hholder i).mp hi, (hholder j).mp hj]
  case locked_iff => exact hlocked
  case skips =>
    intro hbusy i hi
    have hholds : ∃ i, (p.stage i).holdsLock = true := by simpa [Pool.Idle] using hbusy
    obtain ⟨hagrees, hstage⟩ := Pool.step_of_locked requests hi (hlocked.mpr hholds)
    exact ⟨hstage, hagrees⟩
  case proceeds =>
    intro hidle i hi
    have hfree : p.world.locked = false := by
      rw [← Bool.not_eq_true, hlocked]
      simp [hidle _]
    exact (Pool.step_of_free requests hi hfree).2
  case releases =>
    intro i result hi hdone
    rcases Pool.step_of_holdsLock requests hi with ⟨hkeeps, -⟩ | ⟨-, -, hfree⟩
    · simp [hdone, Stage.holdsLock] at hkeeps
    · exact hfree
  case ends => exact p.exists_run_done requests
  case serial =>
    intro hidle
    cases h.lock with
    | free _ _ hworld => exact hworld
    | held _ hheld => simp [hidle _] at hlocked; simp [hlocked] at hheld
  case results => exact h.ended
  case nodup => exact h.nodup

/-- The request of the first refresh fails. -/
def overlapping : Fin 3 → Request
  | 0 => { euroRequest with reply := .error (.badRequest 503) }
  | _ => euroRequest

/-- The second one starts while the first one waits, the third one after that has
failed. -/
def overlap : List (Fin 3) := [0, 1, 0, 0] ++ List.replicate 9 2

theorem singleFlight_run_overlap :
    ∃ s, Store.ofCurrencies storedCurrencies = .ok s ∧
      SingleFlight overlapping { repository := s } [0, 2]
        ((Pool.start { repository := s }).run overlapping overlap) ∧
      ((Pool.start { repository := s }).run overlapping overlap).Idle := by
  have hbuilt : Store.ofCurrencies storedCurrencies = .ok _ := rfl
  refine ⟨_, hbuilt, singleFlight_run overlapping rfl overlap, ?_⟩
  unfold Pool.Idle
  decide +kernel

end CurrencyPad.Refresh
