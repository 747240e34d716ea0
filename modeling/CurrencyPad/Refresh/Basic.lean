/-
CurrencyPad.Refresh.Basic — refreshing the stored rates.

A refresh asks the rate source for a table relative to the pivot and
writes it back currency by currency, in the order of the codes. The pivot
itself gets a rate of exactly one; a currency that the table does not
know keeps its rate and is reported as stale. A failed request changes
nothing. A failed write stops the refresh: the rates written before it
stay, and observers are told of them.

Only one refresh runs at a time. It takes a lock first and gives it back
at the end, however it ends; a refresh that finds the lock taken does
nothing.

A refresh is a machine that goes through stages (`Stage`), each step
(`advance`) changing the world that all refreshes share: the repository,
the lock, the events and the reports. `finish` goes on to the end without
pausing, which is what a single refresh does; the steps of several
refreshes may also be taken in turn.
-/
import CurrencyPad.Store.Repository
import CurrencyPad.Rates.Source
import CurrencyPad.Refresh.Outcome
import CurrencyPad.Event.Basic
import CurrencyPad.Text.Quoted

namespace CurrencyPad.Refresh

/-! ## 1. The shared world -/

/-- What all refreshes share. -/
structure World (σ : Type) where
  repository : σ
  /-- A refresh is running. -/
  locked : Bool := false
  events : List Event := []
  log : List LogLine := []

variable {σ : Type}

namespace World

def emit (w : World σ) (e : Event) : World σ := { w with events := w.events ++ [e] }

def report (w : World σ) (level : LogLevel) (message : String) : World σ :=
  { w with log := w.log ++ [⟨level, message⟩] }

def reportAll (w : World σ) (log : List LogLine) : World σ := { w with log := w.log ++ log }

end World

/-- What one refresh works with. -/
structure Request where
  /-- All rates are relative to this currency, which is in upper case. -/
  pivot : String
  /-- The name of the rate source. -/
  sourceId : String
  /-- What the rate source answers. -/
  reply : Except FetchError RateTable
  /-- What the rate source reports. -/
  replyLog : List LogLine := []
  /-- The time written beside the rates. -/
  time : Timestamp

/-- The pivot that a setting names: in upper case, without blanks around it. -/
def pivotOf (code : String) : String := Text.normalize code

/-- A refresh relative to `pivot` from a rate source as it is now. -/
def Request.ofSource (source : RateSource) (pivot : String) (time : Timestamp) : Request where
  pivot := pivot
  sourceId := RateSource.id
  reply := source.fetch pivot
  replyLog := source.fetchLog pivot
  time := time

/-! ## 2. Stages -/

/-- How far a refresh has come. -/
inductive Stage
  /-- It is about to take the lock. -/
  | starting
  /-- It waits for the rate source. -/
  | fetching
  /-- It is about to list the stored currencies. -/
  | loading (table : RateTable)
  /-- It writes rates, and has written or left out some of them. -/
  | writing (table : RateTable) (todo : List Currency) (updated stale : List String)
  /-- It is about to tell observers what was written. -/
  | announcing (updated : List String) (result : Except Error RefreshOutcome)
  /-- It is about to give back the lock. -/
  | releasing (result : Except Error RefreshOutcome)
  | done (result : Except Error RefreshOutcome)

/-- The rate that a currency gets; none when the table does not know it. -/
def rateFor? (pivot : String) (table : RateTable) (code : String) : Option Decimal :=
  if code = pivot then some .one else table.get? code

/-- The report on a request that failed. -/
def reportFailure (w : World σ) (request : Request) (e : Error) : World σ :=
  if e.isRetryable then
    w.report .warn ("Rate fetch from " ++ request.sourceId ++
      " failed, keeping existing rates until the next refresh: " ++ e.message)
  else
    w.report .error ("Rate fetch from " ++ request.sourceId ++
      " failed and will not succeed on retry: " ++ e.message)

/-- The reports on a refresh that was applied. -/
def reportApplied (w : World σ) (request : Request) (updated stale : List String) : World σ :=
  let w := w.report .info ("Applied " ++ toString updated.length ++ " rates from " ++
    request.sourceId ++ " (" ++ toString stale.length ++ " stale)")
  if stale = [] then w
  else w.report .debug ("Stale currencies kept their previous rates: " ++ Text.quotedList stale)

/-- The report on a rate that could not be written. -/
def reportUnsaved (w : World σ) (code : String) (updated : List String) (e : Error) : World σ :=
  w.report .error ("Failed to save rate for " ++ code ++ " after " ++
    toString updated.length ++ " updates: " ++ e.message)

/-! ## 3. Steps -/

variable [Repository σ]

/-- Writes the rate of the next currency, or leaves it out. -/
def writeNext (request : Request) (w : World σ) (table : RateTable) (c : Currency)
    (todo : List Currency) (updated stale : List String) : World σ × Stage :=
  match rateFor? request.pivot table c.code with
  | none => (w, .writing table todo updated (stale ++ [c.code]))
  | some rate =>
    match (Repository.saveRate c.code rate request.time).run w.repository with
    | .ok _ repository =>
      ({ w with repository }, .writing table todo (updated ++ [c.code]) stale)
    | .error e repository =>
      (reportUnsaved { w with repository } c.code updated e,
        if updated = [] then .releasing (.error e) else .announcing updated (.error e))

/-- One step of a refresh. -/
def advance (request : Request) (w : World σ) : Stage → World σ × Stage
  | .starting =>
    if w.locked then
      (w.report .debug "Rate refresh already in flight, skipping trigger",
        .done (.ok .alreadyInFlight))
    else ({ w with locked := true }, .fetching)
  | .fetching =>
    let w := w.reportAll request.replyLog
    match request.reply with
    | .ok table => (w, .loading table)
    | .error e => (reportFailure w request (.fetch e), .releasing (.error (.fetch e)))
  | .loading table =>
    match Repository.load w.repository with
    | .ok currencies => (w, .writing table currencies [] [])
    | .error e => (w, .releasing (.error e))
  | .writing _ [] updated stale =>
    (reportApplied w request updated stale,
      .announcing updated (.ok (.applied updated stale request.time)))
  | .writing table (c :: todo) updated stale => writeNext request w table c todo updated stale
  | .announcing updated result => (w.emit (.ratesUpdated request.pivot updated), .releasing result)
  | .releasing result => ({ w with locked := false }, .done result)
  | .done result => (w, .done result)

/-! ## 4. Whole refreshes -/

/-- How the refresh ended, once it is done. -/
def Stage.result? : Stage → Option (Except Error RefreshOutcome)
  | .done result => some result
  | _ => none

/-- How many kinds of stages come after, and how many currencies are left. -/
def Stage.remaining : Stage → Nat × Nat
  | .starting => (6, 0)
  | .fetching => (5, 0)
  | .loading _ => (4, 0)
  | .writing _ todo _ _ => (3, todo.length)
  | .announcing _ _ => (2, 0)
  | .releasing _ => (1, 0)
  | .done _ => (0, 0)

/-- Every step of a refresh that is not done brings it closer to its end. -/
theorem remaining_advance (request : Request) (w : World σ) (stage : Stage)
    (h : stage.result? = none) :
    Prod.Lex (· < ·) (· < ·) (advance request w stage).2.remaining stage.remaining := by
  cases stage with
  | starting =>
    simp only [advance]
    split <;> exact .left _ _ (by decide)
  | fetching =>
    simp only [advance]
    split <;> exact .left _ _ (by decide)
  | loading table =>
    simp only [advance]
    split <;> exact .left _ _ (by decide)
  | writing table todo updated stale =>
    cases todo with
    | nil => exact .left _ _ (by decide)
    | cons c todo =>
      simp only [advance, writeNext]
      split
      · exact .right _ (by simp)
      · split
        · exact .right _ (by simp)
        · split <;> exact .left _ _ (by decide)
  | announcing updated result => exact .left _ _ (by decide)
  | releasing result => exact .left _ _ (by decide)
  | done result => simp [Stage.result?] at h

/-- Takes the steps of a refresh to its end. -/
def finish (request : Request) (w : World σ) (stage : Stage) :
    World σ × Except Error RefreshOutcome :=
  match _h : stage.result? with
  | some result => (w, result)
  | none => finish request (advance request w stage).1 (advance request w stage).2
termination_by stage.remaining
decreasing_by exact remaining_advance request w stage ‹_›

/-- A refresh from its start to its end. -/
def update (request : Request) (w : World σ) : World σ × Except Error RefreshOutcome :=
  finish request w .starting

end CurrencyPad.Refresh
