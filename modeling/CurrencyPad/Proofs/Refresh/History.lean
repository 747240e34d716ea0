/-
CurrencyPad.Proofs.Refresh.History — where a stored rate comes from.

The rates of a store are written by refreshes, and by nothing else while a
service runs: between its refreshes the store is only asked to mark
favourites and to take in new currencies. What happens to a service is a
history (`Occurrence`), and the rate of a currency and the time beside it
are one pair, its `stamp`.

`hasOrigins_replay` says which pair each stored currency has at the end of
a history: the one that was written by the latest refresh, since the
currency was inserted, whose table has a rate for it, or the one that it
was inserted with when there was no such refresh. Every refresh whose
request was answered was applied, and a request that failed has left no
trace.

## How the proof goes

The induction is on the history, from its end. `getElem?_after` is the
step: a currency that is stored after one more occurrence was stored
before, and its stamp is the same or has just been written, or it has just
been inserted. What every occurrence keeps (`Sound`) is what a refresh
asks of a store to be applied.
-/
import Mathlib.Data.List.Induction
import CurrencyPad.Proofs.Refresh.Agreement
import CurrencyPad.Proofs.Refresh.Stopped
import CurrencyPad.Proofs.Store.Operations

namespace CurrencyPad

/-- The rate of a currency and when it was written. -/
def Currency.stamp (c : Currency) : Option Decimal × Option Timestamp := (c.rate, c.updated)

namespace Refresh

/-! ## 1. Histories -/

/-- What happens to the currencies of a service. -/
inductive Occurrence
  | refresh (request : Request)
  | operation (op : Store.Operation)

/-- The world after one occurrence. -/
def World.after (w : World Store) : Occurrence → World Store
  | .refresh request => (update request w).1
  | .operation op => { w with repository := w.repository.perform op }

/-- The world after a history. -/
def World.replay (w : World Store) (history : List Occurrence) : World Store :=
  history.foldl World.after w

/-- What happens to a service with this pivot: its refreshes, whose requests fail or are
answered by a table without rates below zero; favourites that are marked; and currencies
that are inserted under canonical codes. -/
inductive Occurrence.Allowed (pivot : String) : Occurrence → Prop
  | refresh {request : Request} (hpivot : request.pivot = pivot)
      (hrates : ∀ table, request.reply = .ok table →
        ∀ e ∈ table.entries, e.2.isNegative = false) :
      Allowed pivot (.refresh request)
  | setFavorite (code : String) (favorite : Bool) :
      Allowed pivot (.operation (.setFavorite code favorite))
  | insert {c : Currency} (hcode : canonicalCode? c.code = some c.code) :
      Allowed pivot (.operation (.insert c))

/-- The pair that an occurrence writes beside a code: a rate of one for the pivot, and
for another code the rate that the table has for it. -/
def Occurrence.written? (pivot code : String) : Occurrence → Option (Decimal × Timestamp)
  | .refresh request =>
    match request.reply with
    | .ok table =>
      if code = pivot then some (.one, request.time)
      else (table.get? code).map (·, request.time)
    | .error _ => none
  | .operation _ => none

/-- The pair that is beside a code after a history: the one that was written last, or
the one before the history when none was written. -/
def stampAfter (pivot code : String) (stamp : Option Decimal × Option Timestamp)
    (history : List Occurrence) : Option Decimal × Option Timestamp :=
  match (history.filterMap (Occurrence.written? pivot code)).getLast? with
  | some (rate, time) => (some rate, some time)
  | none => stamp

/-- `c` is the currency under a code as it was when it came into the store, and `since`
is what has happened since then. -/
inductive CameIn (w : World Store) (history : List Occurrence) (code : String) :
    Currency → List Occurrence → Prop
  /-- It was there before the history. -/
  | stored {c : Currency} (hc : w.repository.records[code]? = some c) :
      CameIn w history code c history
  /-- It was inserted in the course of it. -/
  | inserted {c : Currency} {before since : List Occurrence}
      (hhistory : history = before ++ .operation (.insert c) :: since) (hcode : c.code = code)
      (hfree : (w.replay before).repository.records[code]? = none) :
      CameIn w history code c since

variable {w v : World Store} {pivot : String} {o : Occurrence}

theorem World.replay_append (w : World Store) (first rest : List Occurrence) :
    w.replay (first ++ rest) = (w.replay first).replay rest := List.foldl_append

theorem World.replay_cons (w : World Store) (o : Occurrence) (rest : List Occurrence) :
    w.replay (o :: rest) = (w.after o).replay rest := rfl

theorem stampAfter_append (pivot code : String) (stamp : Option Decimal × Option Timestamp)
    (first rest : List Occurrence) :
    stampAfter pivot code stamp (first ++ rest) =
      stampAfter pivot code (stampAfter pivot code stamp first) rest := by
  simp only [stampAfter, List.filterMap_append, List.getLast?_append]
  cases (rest.filterMap (Occurrence.written? pivot code)).getLast? with
  | none => rfl
  | some pair => rfl

/-! ## 2. What every occurrence keeps -/

/-- What a refresh asks of a world to be applied. -/
structure Sound (w : World Store) : Prop where
  unlocked : w.locked = false
  keyed : w.repository.Keyed
  canonical : w.repository.Canonical

/-- **A request that fails** shows in the log only. -/
theorem agrees_after_of_error {request : Request} {e : FetchError} (hfree : w.locked = false)
    (hreply : request.reply = .error e) : (w.after (.refresh request)).Agrees w := by
  obtain ⟨log, hupdate⟩ := update_of_fetchError hfree hreply
  rw [World.after, hupdate]
  exact ⟨rfl, rfl, rfl⟩

theorem Sound.operation (h : Sound w) {op : Store.Operation}
    (hop : ∀ c, op = .insert c → canonicalCode? c.code = some c.code) :
    Sound (w.after (.operation op)) := by
  have hchange := h.keyed.change_perform op
  exact ⟨h.unlocked, hchange.keyed h.keyed, hchange.canonical h.keyed h.canonical hop⟩

/-- **Every occurrence** keeps what a refresh asks for. -/
theorem Sound.after (h : Sound w) (ho : o.Allowed pivot) : Sound (w.after o) := by
  cases ho with
  | @refresh request hpivot hrates =>
    cases hreply : request.reply with
    | error e =>
      have hagrees := agrees_after_of_error h.unlocked hreply
      refine ⟨hagrees.locked.trans h.unlocked, ?_, ?_⟩
      · rw [hagrees.repository]
        exact h.keyed
      · rw [hagrees.repository]
        exact h.canonical
    | ok table =>
      obtain ⟨log, hupdate⟩ :=
        update_eq_applied h.unlocked h.keyed h.canonical hreply (hrates table hreply)
      rw [World.after, hupdate]
      exact ⟨rfl, h.keyed.mapCurrencies code_refreshed, h.canonical.mapCurrencies code_refreshed⟩
  | setFavorite code favorite => exact h.operation nofun
  | insert hcode =>
    refine h.operation fun c hc => ?_
    obtain rfl := Store.Operation.insert.inj hc
    exact hcode

theorem Sound.replay (h : Sound w) {history : List Occurrence}
    (hallowed : ∀ o ∈ history, o.Allowed pivot) : Sound (w.replay history) := by
  induction history generalizing w with
  | nil => exact h
  | cons o rest ih =>
    obtain ⟨ho, hrest⟩ := List.forall_mem_cons.mp hallowed
    exact ih (h.after ho) hrest

/-- Worlds that agree still do after a history. -/
theorem World.Agrees.replay (h : w.Agrees v) (history : List Occurrence) :
    (w.replay history).Agrees (v.replay history) := by
  induction history generalizing w v with
  | nil => exact h
  | cons o rest ih =>
    refine ih ?_
    cases o with
    | refresh request => exact (h.update request).1
    | operation op => exact ⟨congrArg (·.perform op) h.repository, h.locked, h.events⟩

/-! ## 3. One occurrence -/

/-- A refreshed currency has the stamp that was written, or the one it had. -/
theorem stamp_refreshed {request : Request} {table : RateTable} (hpivot : request.pivot = pivot)
    (hreply : request.reply = .ok table) (c : Currency) :
    (refreshed request table c).stamp =
      stampAfter pivot c.code c.stamp [.refresh request] := by
  have hwritten : Occurrence.written? pivot c.code (.refresh request) =
      (rateFor? request.pivot table c.code).map (·, request.time) := by
    simp only [Occurrence.written?, hreply, rateFor?, hpivot]
    split
    · rfl
    · rfl
  rw [stampAfter, List.filterMap_cons, hwritten, refreshed]
  cases rateFor? request.pivot table c.code with
  | none => rfl
  | some rate => rfl

theorem stamp_changeAt_favorite (code : String) (favorite : Bool) (c : Currency) :
    (Store.changeAt code ({ · with favorite }) c).stamp = c.stamp := by
  rw [Store.changeAt]
  split <;> rfl

/-- **One occurrence**: what is stored after it was stored before and has the stamp that
was written, or the one it had; or it was just inserted. -/
theorem getElem?_after (h : Sound w) (ho : o.Allowed pivot) {code : String} {c : Currency}
    (hc : (w.after o).repository.records[code]? = some c) :
    (∃ c', w.repository.records[code]? = some c' ∧
        c.stamp = stampAfter pivot code c'.stamp [o]) ∨
      (o = .operation (.insert c) ∧ c.code = code ∧ w.repository.records[code]? = none) := by
  cases ho with
  | @refresh request hpivot hrates =>
    left
    cases hreply : request.reply with
    | error e =>
      rw [(agrees_after_of_error h.unlocked hreply).repository] at hc
      refine ⟨c, hc, ?_⟩
      simp [stampAfter, Occurrence.written?, hreply]
    | ok table =>
      obtain ⟨log, hupdate⟩ :=
        update_eq_applied h.unlocked h.keyed h.canonical hreply (hrates table hreply)
      rw [World.after, hupdate, Store.getElem?_mapCurrencies] at hc
      obtain ⟨c', hc', rfl⟩ := Option.map_eq_some_iff.mp hc
      exact ⟨c', hc', by rw [stamp_refreshed hpivot hreply, h.keyed code c' hc']⟩
  | setFavorite code' favorite =>
    left
    have hchange := h.keyed.change_perform (.setFavorite code' favorite)
    rw [World.after] at hc
    generalize w.repository.perform (.setFavorite code' favorite) = s' at hc hchange
    cases hchange with
    | failed _ => exact ⟨c, hc, rfl⟩
    | marked =>
      rw [Store.getElem?_mapCurrencies] at hc
      obtain ⟨c', hc', rfl⟩ := Option.map_eq_some_iff.mp hc
      exact ⟨c', hc', stamp_changeAt_favorite _ _ _⟩
  | @insert d hcode =>
    have hchange := h.keyed.change_perform (.insert d)
    rw [World.after] at hc
    generalize w.repository.perform (.insert d) = s' at hc hchange
    cases hchange with
    | failed _ => exact .inl ⟨c, hc, rfl⟩
    | inserted hfree =>
      by_cases hsame : code = d.code
      · subst hsame
        rw [Store.getElem?_insert_self] at hc
        obtain rfl := Option.some.inj hc
        exact .inr ⟨rfl, rfl, hfree⟩
      · rw [Store.getElem?_insert_of_ne _ hsame] at hc
        exact .inl ⟨c, hc, rfl⟩

/-! ## 4. Whole histories -/

/-- What holds at the end of a history. -/
structure HasOrigins (pivot : String) (w : World Store) (history : List Occurrence) : Prop where
  /-- The rate and the time of every stored currency were written by the latest refresh
  that had a rate for it, or came in with it. -/
  origin : ∀ code c, (w.replay history).repository.records[code]? = some c →
    ∃ c₀ since, CameIn w history code c₀ since ∧
      c.stamp = stampAfter pivot code c₀.stamp since
  /-- Every refresh whose request was answered was applied. -/
  applied : ∀ before request rest table, history = before ++ .refresh request :: rest →
    request.reply = .ok table → ∃ updated stale,
      (update request (w.replay before)).2 = .ok (.applied updated stale request.time)
  /-- A request that failed has left no trace: without it, the repository and the events
  would be the same at the end. -/
  traceless : ∀ before request rest e, history = before ++ .refresh request :: rest →
    request.reply = .error e →
      (w.replay history).Agrees (w.replay (before ++ rest))

/-- The stamp of every stored currency has an origin. -/
theorem exists_origin (h : Sound w) {history : List Occurrence}
    (hallowed : ∀ o ∈ history, o.Allowed pivot) {code : String} {c : Currency}
    (hc : (w.replay history).repository.records[code]? = some c) :
    ∃ c₀ since, CameIn w history code c₀ since ∧
      c.stamp = stampAfter pivot code c₀.stamp since := by
  induction history using List.reverseRecOn generalizing c with
  | nil => exact ⟨c, [], .stored hc, rfl⟩
  | append_singleton history o ih =>
    have hbefore : ∀ o ∈ history, o.Allowed pivot :=
      fun o ho => hallowed o (List.mem_append_left _ ho)
    have ho : o.Allowed pivot := hallowed o (by simp)
    rw [World.replay_append] at hc
    rcases getElem?_after (h.replay hbefore) ho hc with
      ⟨c', hc', hstamp⟩ | ⟨rfl, hcode, hfree⟩
    · obtain ⟨c₀, since, hcame, horigin⟩ := ih hbefore hc'
      refine ⟨c₀, since ++ [o], ?_, by rw [hstamp, horigin, stampAfter_append]⟩
      cases hcame with
      | stored hc₀ => exact .stored hc₀
      | inserted hhistory hcode hfree =>
        exact .inserted (by rw [hhistory, List.append_assoc, List.cons_append]) hcode hfree
    · exact ⟨c, [], .inserted rfl hcode hfree, rfl⟩

/-- **Over any history each stored rate has one origin.** -/
theorem hasOrigins_replay {history : List Occurrence} (hfree : w.locked = false)
    (hstore : w.repository.Reachable) (hcanonical : w.repository.Canonical)
    (hallowed : ∀ o ∈ history, o.Allowed pivot) : HasOrigins pivot w history := by
  have hsound : Sound w := ⟨hfree, hstore.keyed, hcanonical⟩
  have hbefore : ∀ before o rest, history = before ++ o :: rest →
      Sound (w.replay before) ∧ o.Allowed pivot := by
    rintro before o rest rfl
    exact ⟨hsound.replay fun o ho => hallowed o (by simp [ho]), hallowed o (by simp)⟩
  constructor
  case origin => exact fun code c hc => exists_origin hsound hallowed hc
  case applied =>
    intro before request rest table hhistory hreply
    obtain ⟨h, ho⟩ := hbefore before _ rest hhistory
    cases ho with
    | refresh hpivot hrates =>
      obtain ⟨log, hupdate⟩ :=
        update_eq_applied h.unlocked h.keyed h.canonical hreply (hrates table hreply)
      exact ⟨_, _, congrArg Prod.snd hupdate⟩
  case traceless =>
    intro before request rest e hhistory hreply
    obtain ⟨h, -⟩ := hbefore before _ rest hhistory
    rw [hhistory, World.replay_append, World.replay_cons, World.replay_append]
    exact (agrees_after_of_error h.unlocked hreply).replay rest

/-- A later refresh, whose table knows the pound only. -/
def poundRequest : Request :=
  { euroRequest with
    reply := .ok (.ofEntries [("GBP", { coeff := 806, scale := 3 })])
    time := { euroRequest.time with year := 2025, month := 3 } }

/-- The pound comes in between the two refreshes, and a request fails. -/
def mixedHistory : List Occurrence :=
  [.refresh euroRequest, .operation (.insert { code := "GBP" }),
    .operation (.setFavorite "dollar" true),
    .refresh { euroRequest with reply := .error (.badRequest 503) },
    .operation (.setFavorite "jpy" true), .refresh poundRequest]

theorem hasOrigins_replay_mixedHistory :
    ∃ s, Store.ofCurrencies storedCurrencies = .ok s ∧
      (∀ o ∈ mixedHistory, o.Allowed "USD") ∧
      HasOrigins "USD" { repository := s } mixedHistory := by
  have hbuilt : Store.ofCurrencies storedCurrencies = .ok _ := rfl
  have hallowed : ∀ o ∈ mixedHistory, o.Allowed "USD" := by
    simp only [mixedHistory, List.forall_mem_cons]
    refine ⟨.refresh rfl ?_, .insert (by decide +kernel), .setFavorite _ _, .refresh rfl nofun,
      .setFavorite _ _, .refresh rfl ?_, nofun⟩
    · rintro table hreply
      obtain rfl := Except.ok.inj hreply
      decide +kernel
    · rintro table hreply
      obtain rfl := Except.ok.inj hreply
      decide +kernel
  exact ⟨_, hbuilt, hallowed, hasOrigins_replay rfl (Store.reachable_ofCurrencies hbuilt)
    (by decide +kernel) hallowed⟩

end Refresh
end CurrencyPad
