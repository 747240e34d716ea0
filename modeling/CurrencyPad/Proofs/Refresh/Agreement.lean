/-
CurrencyPad.Proofs.Refresh.Agreement — the log has no effect.

A refresh writes to the log and never reads it. Two worlds that agree on
all but their logs (`World.Agrees`) agree after one step of a refresh as
well, and the step leads to the same stage (`World.Agrees.advance`); so
they agree when the refresh has ended, and it has the same result
(`World.Agrees.finish`). What a refresh reports can then be left out
wherever only the repository and the events count.
-/
import CurrencyPad.Proofs.Refresh.Writing

namespace CurrencyPad.Refresh

variable {σ : Type}

/-! ## 1. Worlds up to their logs -/

/-- The worlds differ in their logs at most. -/
structure World.Agrees (w v : World σ) : Prop where
  repository : w.repository = v.repository
  locked : w.locked = v.locked
  events : w.events = v.events

namespace World.Agrees

variable {u v w : World σ}

@[refl] theorem refl (w : World σ) : w.Agrees w := ⟨rfl, rfl, rfl⟩

theorem symm (h : w.Agrees v) : v.Agrees w :=
  ⟨h.repository.symm, h.locked.symm, h.events.symm⟩

theorem trans (h : u.Agrees v) (h' : v.Agrees w) : u.Agrees w :=
  ⟨h.repository.trans h'.repository, h.locked.trans h'.locked, h.events.trans h'.events⟩

/-- Worlds that agree still do after both have changed in their logs. -/
theorem congr {w' v' : World σ} (h : w.Agrees v) (hw : w'.Agrees w) (hv : v'.Agrees v) :
    w'.Agrees v' := hw.trans (h.trans hv.symm)

end World.Agrees

/-! ## 2. Reports -/

theorem agrees_report (w : World σ) (level : LogLevel) (message : String) :
    (w.report level message).Agrees w := ⟨rfl, rfl, rfl⟩

theorem agrees_reportAll (w : World σ) (log : List LogLine) : (w.reportAll log).Agrees w :=
  ⟨rfl, rfl, rfl⟩

theorem agrees_reportFailure (w : World σ) (request : Request) (e : Error) :
    (reportFailure w request e).Agrees w := by
  rw [reportFailure]
  split
  · exact agrees_report w _ _
  · exact agrees_report w _ _

theorem agrees_reportApplied (w : World σ) (request : Request) (updated stale : List String) :
    (reportApplied w request updated stale).Agrees w := by
  obtain ⟨log, hlog⟩ := exists_reportApplied w request updated stale
  rw [hlog]
  exact ⟨rfl, rfl, rfl⟩

theorem agrees_reportUnsaved (w : World σ) (code : String) (updated : List String) (e : Error) :
    (reportUnsaved w code updated e).Agrees w := agrees_report w _ _

/-! ## 3. Steps and whole refreshes -/

variable [Repository σ] {w v : World σ}

/-- **One step** leads from worlds that agree to worlds that agree, and to one stage. -/
theorem World.Agrees.advance (h : w.Agrees v) (request : Request) (stage : Stage) :
    (advance request w stage).1.Agrees (advance request v stage).1 ∧
      (advance request w stage).2 = (advance request v stage).2 := by
  have hrepository := h.repository
  cases stage with
  | starting =>
    simp only [Refresh.advance, h.locked]
    split
    · exact ⟨h.congr (agrees_report w _ _) (agrees_report v _ _), rfl⟩
    · exact ⟨⟨hrepository, rfl, h.events⟩, rfl⟩
  | fetching =>
    have hreply := h.congr (agrees_reportAll w request.replyLog)
      (agrees_reportAll v request.replyLog)
    simp only [Refresh.advance]
    cases request.reply with
    | ok table => exact ⟨hreply, rfl⟩
    | error e =>
      exact ⟨hreply.congr (agrees_reportFailure _ _ _) (agrees_reportFailure _ _ _), rfl⟩
  | loading table =>
    simp only [Refresh.advance, hrepository]
    split
    · exact ⟨h, rfl⟩
    · exact ⟨h, rfl⟩
  | writing table todo updated stale =>
    cases todo with
    | nil => exact ⟨h.congr (agrees_reportApplied w _ _ _) (agrees_reportApplied v _ _ _), rfl⟩
    | cons c todo =>
      simp only [Refresh.advance, writeNext, hrepository]
      cases rateFor? request.pivot table c.code with
      | none => exact ⟨h, rfl⟩
      | some rate =>
        dsimp only
        cases (Repository.saveRate c.code rate request.time).run v.repository with
        | ok _ repository => exact ⟨⟨rfl, h.locked, h.events⟩, rfl⟩
        | error e repository =>
          have hleft : World.Agrees { w with repository } { v with repository } :=
            ⟨rfl, h.locked, h.events⟩
          exact ⟨hleft.congr (agrees_reportUnsaved _ _ _ _) (agrees_reportUnsaved _ _ _ _), rfl⟩
  | announcing updated result =>
    exact ⟨⟨hrepository, h.locked, congrArg (· ++ _) h.events⟩, rfl⟩
  | releasing result => exact ⟨⟨hrepository, rfl, h.events⟩, rfl⟩
  | done result => exact ⟨h, rfl⟩

/-- **A whole refresh** leads from worlds that agree to worlds that agree, with one
result. -/
theorem World.Agrees.finish {w v : World σ} (h : w.Agrees v) (request : Request)
    (stage : Stage) :
    (finish request w stage).1.Agrees (finish request v stage).1 ∧
      (finish request w stage).2 = (finish request v stage).2 := by
  cases hresult : stage.result? with
  | some result =>
    cases stage with
    | done result' => exact ⟨by simpa using h, by simp⟩
    | _ => simp [Stage.result?] at hresult
  | none =>
    obtain ⟨hworld, hstage⟩ := h.advance request stage
    rw [finish_step request w hresult, finish_step request v hresult, ← hstage]
    exact World.Agrees.finish hworld request _
termination_by stage.remaining
decreasing_by exact remaining_advance request w stage hresult

theorem World.Agrees.update (h : w.Agrees v) (request : Request) :
    (update request w).1.Agrees (update request v).1 ∧
      (update request w).2 = (update request v).2 := h.finish request .starting

end CurrencyPad.Refresh
