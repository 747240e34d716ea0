/-
CurrencyPad.Proofs.Refresh.Writing — what a refresh writes into the store.

The writing stage goes through the listed currencies one by one. While
every write succeeds, its effect on the store is one function,
`refreshed`, applied to the currencies that it has gone through: those
that the pivot or the table has a rate for get that rate and the time of
the refresh, the others stay as they are.

## How the proof goes

* `finish_step` takes one step of a refresh that is not done.
* `finish_writing_cons` does so for the next currency in the list. A write
  changes every currency under the code that is written (`changeAt`), and
  there is only one.
* `finish_writing_append` is the induction over the currencies that are
  written, whatever comes after them in the list. It asks of each that it
  is `Writable`, which no write to the store changes.
-/
import CurrencyPad.Proofs.Store.Records
import CurrencyPad.Refresh.Basic

namespace CurrencyPad.Refresh

open Store (changeAt)

/-! ## 1. Steps -/

section Steps

variable {σ : Type}

/-- Reports change the log only. -/
theorem exists_reportApplied (w : World σ) (request : Request) (updated stale : List String) :
    ∃ log, reportApplied w request updated stale = { w with log } := by
  rw [reportApplied]
  split
  · exact ⟨_, rfl⟩
  · exact ⟨_, rfl⟩

variable [Repository σ]

/-- A refresh that is not done goes on from its next step. -/
theorem finish_step (request : Request) (w : World σ) {stage : Stage}
    (h : stage.result? = none) :
    finish request w stage =
      finish request (advance request w stage).1 (advance request w stage).2 := by
  rw [finish]
  split
  · rename_i result hresult
    simp [h] at hresult
  · rfl

@[simp] theorem finish_done (request : Request) (w : World σ)
    (result : Except Error RefreshOutcome) : finish request w (.done result) = (w, result) := by
  rw [finish]
  split
  · rename_i hresult
    cases hresult
    rfl
  · rename_i hresult
    simp [Stage.result?] at hresult

@[simp] theorem finish_releasing (request : Request) (w : World σ)
    (result : Except Error RefreshOutcome) :
    finish request w (.releasing result) = ({ w with locked := false }, result) := by
  rw [finish_step request w rfl]
  exact finish_done request _ result

@[simp] theorem finish_announcing (request : Request) (w : World σ) (updated : List String)
    (result : Except Error RefreshOutcome) :
    finish request w (.announcing updated result) =
      ({ w.emit (.ratesUpdated request.pivot updated) with locked := false }, result) := by
  rw [finish_step request w rfl]
  exact finish_releasing request _ result

/-- When the list is at its end, the refresh was applied: that is reported, observers
are told, and the lock is given back. -/
theorem finish_writing_nil (request : Request) (w : World σ) (table : RateTable)
    (updated stale : List String) :
    ∃ log, finish request w (.writing table [] updated stale) =
      ({ w with
          locked := false
          events := w.events ++ [.ratesUpdated request.pivot updated]
          log },
        .ok (.applied updated stale request.time)) := by
  obtain ⟨log, hlog⟩ := exists_reportApplied w request updated stale
  refine ⟨log, ?_⟩
  rw [finish_step request w rfl]
  simp only [advance, hlog, finish_announcing, World.emit]

end Steps

/-! ## 2. What is written -/

variable (request : Request) (table : RateTable)

/-- The refresh has a rate for the code. -/
def hasRate (code : String) : Bool := (rateFor? request.pivot table code).isSome

/-- The currency as the refresh leaves it. -/
def refreshed (c : Currency) : Currency :=
  match rateFor? request.pivot table c.code with
  | some rate => c.withRate rate request.time
  | none => c

/-- The codes of those currencies that get a rate. -/
def ratedCodes (currencies : List Currency) : List String :=
  (currencies.map (·.code)).filter (hasRate request table)

/-- The codes of those that get none. -/
def unratedCodes (currencies : List Currency) : List String :=
  (currencies.map (·.code)).filter (!hasRate request table ·)

/-- The refresh of those currencies whose codes are in the list. -/
def refreshedAmong (codes : List String) (c : Currency) : Currency :=
  if c.code ∈ codes then refreshed request table c else c

/-- The rate of the currency can be written: its code is valid, in upper case and
stored, and its rate, if it gets one, is not below zero. -/
structure Writable (s : Store) (c : Currency) : Prop where
  canonical : canonicalCode? c.code = some c.code
  stored : s.records[c.code]?.isSome = true
  rate : ∀ rate, rateFor? request.pivot table c.code = some rate → rate.isNegative = false

variable {request table}

@[simp] theorem rateFor?_pivot (pivot : String) (table : RateTable) :
    rateFor? pivot table pivot = some .one := if_pos rfl

theorem rateFor?_of_ne {pivot code : String} (h : code ≠ pivot) (table : RateTable) :
    rateFor? pivot table code = table.get? code := if_neg h

theorem hasRate_iff {code : String} :
    hasRate request table code = true ↔ code = request.pivot ∨ (table.get? code).isSome := by
  rw [hasRate, rateFor?]
  split <;> simp_all

theorem refreshed_of_some {c : Currency} {rate : Decimal}
    (h : rateFor? request.pivot table c.code = some rate) :
    refreshed request table c = c.withRate rate request.time := by
  rw [refreshed, h]

theorem refreshed_of_none {c : Currency} (h : rateFor? request.pivot table c.code = none) :
    refreshed request table c = c := by
  rw [refreshed, h]

@[simp] theorem code_refreshed (c : Currency) : (refreshed request table c).code = c.code := by
  rw [refreshed]
  split <;> rfl

@[simp] theorem refreshed_refreshed (c : Currency) :
    refreshed request table (refreshed request table c) = refreshed request table c := by
  cases hrate : rateFor? request.pivot table c.code with
  | none => simp [refreshed, hrate]
  | some rate => simp [refreshed, Currency.withRate, hrate]

theorem refreshedAmong_nil : refreshedAmong request table [] = id := by
  funext c
  simp [refreshedAmong]

/-- The refresh of one currency and then of others is that of them all. -/
theorem refreshedAmong_comp_changeAt (code : String) (codes : List String) :
    refreshedAmong request table codes ∘ changeAt code (refreshed request table) =
      refreshedAmong request table (code :: codes) := by
  funext c
  by_cases hcode : c.code = code
  · simp [refreshedAmong, changeAt, hcode]
  · simp [refreshedAmong, changeAt, hcode]

theorem Writable.mapCurrencies {s : Store} {c : Currency} (h : Writable request table s c)
    (f : Currency → Currency) : Writable request table (s.mapCurrencies f) c where
  canonical := h.canonical
  stored := by simpa using h.stored
  rate := h.rate

/-! ## 3. Writing -/

/-- **One currency** is written, or left as it is. -/
theorem finish_writing_cons {w : World Store} (hkeyed : w.repository.Keyed) {c : Currency}
    (hc : Writable request table w.repository c) (todo : List Currency)
    (updated stale : List String) :
    finish request w (.writing table (c :: todo) updated stale) =
      finish request
        { w with repository :=
            w.repository.mapCurrencies (changeAt c.code (refreshed request table)) }
        (.writing table todo (updated ++ ratedCodes request table [c])
          (stale ++ unratedCodes request table [c])) := by
  rw [finish_step request w rfl]
  simp only [advance, writeNext]
  cases hrate : rateFor? request.pivot table c.code with
  | none =>
    -- nothing is written, and what is refreshed is as it was
    have hid : w.repository.mapCurrencies (changeAt c.code (refreshed request table)) =
        w.repository := by
      rw [Store.mapCurrencies_congr (g := id) ?_, Store.mapCurrencies_id]
      intro code d _
      by_cases hcode : d.code = c.code
      · simp [changeAt, refreshed, hcode, hrate]
      · simp [changeAt, hcode]
    simp [hid, ratedCodes, unratedCodes, hasRate, hrate]
  | some rate =>
    have hsave : (Repository.saveRate c.code rate request.time).run w.repository =
        .ok () (w.repository.mapCurrencies (changeAt c.code (refreshed request table))) := by
      refine (Store.Writing.saveRate_eq_ok_iff hkeyed).mpr
        ⟨hc.rate rate hrate, c.code, hc.canonical, hc.stored,
          Store.mapCurrencies_congr fun code d _ => ?_⟩
      by_cases hcode : d.code = c.code
      · simp [changeAt, refreshed, hcode, hrate]
      · simp [changeAt, hcode]
    simp [hsave, ratedCodes, unratedCodes, hasRate, hrate]

/-- **The first currencies of the list** are written, or left as they are. -/
theorem finish_writing_append {w : World Store} (hkeyed : w.repository.Keyed)
    (first rest : List Currency) (hfirst : ∀ c ∈ first, Writable request table w.repository c)
    (updated stale : List String) :
    finish request w (.writing table (first ++ rest) updated stale) =
      finish request
        { w with repository :=
            w.repository.mapCurrencies (refreshedAmong request table (first.map (·.code))) }
        (.writing table rest (updated ++ ratedCodes request table first)
          (stale ++ unratedCodes request table first)) := by
  induction first generalizing w updated stale with
  | nil => simp [refreshedAmong_nil, Store.mapCurrencies_id, ratedCodes, unratedCodes]
  | cons c first ih =>
    obtain ⟨hc, hfirst⟩ := List.forall_mem_cons.mp hfirst
    rw [List.cons_append, finish_writing_cons hkeyed hc, ih]
    · simp only [Store.mapCurrencies_mapCurrencies, refreshedAmong_comp_changeAt, List.map_cons,
        List.append_assoc, ratedCodes, unratedCodes, ← List.filter_append]
      rfl
    · exact hkeyed.mapCurrencies (Store.code_changeAt code_refreshed)
    · exact fun d hd => (hfirst d hd).mapCurrencies _

/-- A refresh whose request is answered lists the store and begins to write. -/
theorem update_eq_finish_writing {w : World Store} (hfree : w.locked = false)
    (hreply : request.reply = .ok table) :
    update request w =
      finish request { w with locked := true, log := w.log ++ request.replyLog }
        (.writing table w.repository.all [] []) := by
  rw [update, finish_step request w rfl]
  simp only [advance, hfree]
  rw [if_neg (by simp), finish_step request _ rfl]
  simp only [advance, hreply]
  rw [finish_step request _ rfl]
  rfl

end CurrencyPad.Refresh
