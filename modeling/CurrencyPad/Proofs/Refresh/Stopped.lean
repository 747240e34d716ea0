/-
CurrencyPad.Proofs.Refresh.Stopped — what a refresh leaves behind when it
fails.

A table that was not built by `insert` can hold rates below zero, which
the store refuses. Over a store whose codes are all valid and in upper
case this is the only way in which a write can fail, and the refresh stops
at the least code that it happens to. `StoppedAt` says what is left behind
then: what comes before that code is refreshed as if nothing had happened,
that code and what comes after it are untouched, and observers are told of
what was written, if anything was. A refresh whose request fails leaves
everything as it is. `update_eq_error` is the result.

Up to the refused code the writing stage runs as in a refresh that is
applied (`finish_writing_append`); `finish_writing_refused` is the step
that stops it.
-/
import Mathlib.Order.Bounds.Defs
import CurrencyPad.Proofs.Refresh.Applied

namespace CurrencyPad

namespace Refresh

/-! ## 1. The step that stops -/

section Steps

/-- What observers are told of the codes that were written, if there are any. -/
def told (request : Request) (written : List String) : List Event :=
  if written = [] then [] else [.ratesUpdated request.pivot written]

variable {request : Request} {table : RateTable}

/-- **A rate below zero** stops the refresh. -/
theorem finish_writing_refused (w : World Store) {c : Currency} {rate : Decimal}
    (hrate : rateFor? request.pivot table c.code = some rate)
    (hnegative : rate.isNegative = true) (todo : List Currency) (updated stale : List String) :
    ∃ log, finish request w (.writing table (c :: todo) updated stale) =
      ({ w with locked := false, events := w.events ++ told request updated, log },
        .error (.invalidRate c.code rate.text)) := by
  have hsave : (Repository.saveRate c.code rate request.time).run w.repository =
      .error (.invalidRate c.code rate.text) w.repository :=
    Store.Writing.saveRate_of_isNegative w.repository c.code request.time hnegative
  refine ⟨(reportUnsaved w c.code updated (.invalidRate c.code rate.text)).log, ?_⟩
  rw [finish_step request w rfl]
  simp only [advance, writeNext, hrate, hsave]
  by_cases hwritten : updated = []
  · simp [hwritten, told, reportUnsaved, World.report]
  · simp [hwritten, told, reportUnsaved, World.report, World.emit]

/-- **A request that fails** ends the refresh before anything is written. -/
theorem update_of_fetchError {σ : Type} [Repository σ] {w : World σ}
    (hfree : w.locked = false) {e : FetchError} (hreply : request.reply = .error e) :
    ∃ log, update request w = ({ w with log }, .error (.fetch e)) := by
  have hreport : ∀ v : World σ, ∃ log, reportFailure v request (.fetch e) = { v with log } := by
    intro v
    rw [reportFailure]
    split
    · exact ⟨_, rfl⟩
    · exact ⟨_, rfl⟩
  obtain ⟨log, hlog⟩ := hreport
    { w with locked := true, log := w.log ++ request.replyLog }
  refine ⟨log, ?_⟩
  rw [update, finish_step request w rfl]
  simp only [advance, hfree]
  rw [if_neg (by simp), finish_step request _ rfl]
  simp only [advance, hreply, World.reportAll, hlog, finish_releasing, ← hfree]

end Steps

/-! ## 2. The outcome in closed form -/

variable (request : Request) (table : RateTable)

/-- A stored code, not the pivot, for which the table has a rate below zero. -/
structure Refused (s : Store) (code : String) : Prop where
  ne_pivot : code ≠ request.pivot
  stored : s.records[code]?.isSome = true
  rate : ∃ rate, table.get? code = some rate ∧ rate.isNegative = true

/-- The rate that the refresh has for the code is below zero. -/
def hasNegativeRate (code : String) : Bool :=
  (rateFor? request.pivot table code).any Decimal.isNegative

variable {request table}

/-- The pivot's own rate is not below zero, so it is never refused. -/
theorem hasNegativeRate_iff {code : String} :
    hasNegativeRate request table code = true ↔
      code ≠ request.pivot ∧ ∃ rate, table.get? code = some rate ∧ rate.isNegative = true := by
  rw [hasNegativeRate, rateFor?, Option.any_eq_true]
  split
  · rename_i hpivot
    simp only [Option.some.injEq, exists_eq_left', hpivot, ne_eq, not_true_eq_false, false_and]
    decide
  · rename_i hpivot
    simp [hpivot]

/-- **A refresh that stops**: the currencies listed before the refused one are
refreshed. -/
theorem update_eq_stopped {w : World Store} (hfree : w.locked = false)
    (hkeyed : w.repository.Keyed) (hcanonical : w.repository.Canonical)
    (hreply : request.reply = .ok table) {first rest : List Currency} {c : Currency}
    {rate : Decimal} (hall : w.repository.all = first ++ c :: rest)
    (hfirst : ∀ d ∈ first, hasNegativeRate request table d.code = false)
    (hrate : rateFor? request.pivot table c.code = some rate)
    (hnegative : rate.isNegative = true) :
    ∃ log, update request w =
      ({ repository := w.repository.mapCurrencies
            (refreshedAmong request table (first.map (·.code)))
         locked := false
         events := w.events ++ told request (ratedCodes request table first)
         log },
        .error (.invalidRate c.code rate.text)) := by
  have hwritable : ∀ d ∈ first, Writable request table w.repository d := by
    intro d hd
    have hmem : d ∈ w.repository.all := by rw [hall]; exact List.mem_append_left _ hd
    exact
      { canonical := hcanonical d hmem
        stored := hkeyed.isSome_of_mem_all hmem
        rate := fun rate hrate => by simpa [hasNegativeRate, hrate] using hfirst d hd }
  have hwritten := finish_writing_append
    (w := { w with locked := true, log := w.log ++ request.replyLog }) hkeyed
    first (c :: rest) hwritable [] []
  rw [update_eq_finish_writing hfree hreply, hall, hwritten, List.nil_append]
  exact finish_writing_refused _ hrate hnegative rest _ _

/-! ## 3. The result -/

/-- What a refresh leaves behind that has stopped at a code. -/
structure StoppedAt (request : Request) (table : RateTable) (before after : World Store)
    (written : List String) (code : String) : Prop where
  /-- The pivot gets its rate of one if it comes before that code. -/
  pivot : ∀ c, request.pivot < code → before.repository.records[request.pivot]? = some c →
    after.repository.records[request.pivot]? =
      some { c with rate := some .one, updated := some request.time }
  /-- The others before that code get the rate that the table has for them. -/
  listed : ∀ (k : String) (c : Currency) (rate : Decimal), k < code → k ≠ request.pivot →
    before.repository.records[k]? = some c → table.get? k = some rate →
    after.repository.records[k]? =
      some { c with rate := some rate, updated := some request.time }
  /-- Those that the table does not know stay as they are. -/
  unlisted : ∀ (k : String) (c : Currency), k < code → k ≠ request.pivot →
    before.repository.records[k]? = some c → table.get? k = none →
    after.repository.records[k]? = some c
  /-- That code and those after it are not touched. -/
  later : ∀ k, code ≤ k → after.repository.records[k]? = before.repository.records[k]?
  /-- No currency is added or removed. -/
  keys : after.repository.records.keys = before.repository.records.keys
  mem_written : ∀ k, k ∈ written ↔ k < code ∧ before.repository.records[k]?.isSome ∧
    (k = request.pivot ∨ (table.get? k).isSome)
  written_ascending : written.Pairwise (· < ·)
  /-- Observers are told of what was written, if anything was. -/
  events : after.events = before.events ++
    if written = [] then [] else [.ratesUpdated request.pivot written]
  unlocked : after.locked = false

/-- A refresh of what is listed before a currency reaches the codes below its own. -/
theorem getElem?_refreshedAmong {s : Store} (hkeyed : s.Keyed) {first rest : List Currency}
    {c : Currency} (hall : s.all = first ++ c :: rest) {k : String} {d : Currency}
    (hd : s.records[k]? = some d) :
    (s.mapCurrencies (refreshedAmong request table (first.map (·.code)))).records[k]? =
      some (if k < c.code then refreshed request table d else d) := by
  have hmem := (hkeyed.mem_codes_around hall (by rw [hd, Option.isSome_some])).1
  rw [Store.getElem?_mapCurrencies, hd, Option.map_some, refreshedAmong, hkeyed k d hd]
  simp only [hmem]

/-- The refresh of what is listed before a code leaves behind what it should. -/
theorem stoppedAt_of_split {before after : World Store} (hkeyed : before.repository.Keyed)
    {first rest : List Currency} {c : Currency}
    (hall : before.repository.all = first ++ c :: rest)
    (hrepository : after.repository = before.repository.mapCurrencies
      (refreshedAmong request table (first.map (·.code))))
    (hevents : after.events =
      before.events ++ told request (ratedCodes request table first))
    (hunlocked : after.locked = false) :
    StoppedAt request table before after (ratedCodes request table first) c.code := by
  have hrecord : ∀ k d, before.repository.records[k]? = some d →
      after.repository.records[k]? =
        some (if k < c.code then refreshed request table d else d) := by
    intro k d hd
    rw [hrepository, getElem?_refreshedAmong hkeyed hall hd]
  constructor
  case pivot =>
    intro d hlt hd
    have hcode := hkeyed _ d hd
    rw [hrecord _ d hd, if_pos hlt, refreshed_of_some (by rw [hcode, rateFor?_pivot])]
    rfl
  case listed =>
    intro k d rate hlt hne hd hrate
    have hcode := hkeyed k d hd
    rw [hrecord k d hd, if_pos hlt,
      refreshed_of_some (by rw [hcode, rateFor?_of_ne hne, hrate])]
    rfl
  case unlisted =>
    intro k d hlt hne hd hrate
    have hcode := hkeyed k d hd
    rw [hrecord k d hd, if_pos hlt,
      refreshed_of_none (by rw [hcode, rateFor?_of_ne hne, hrate])]
  case later =>
    intro k hle
    cases hd : before.repository.records[k]? with
    | none => rw [hrepository, Store.getElem?_mapCurrencies, hd, Option.map_none]
    | some d => rw [hrecord k d hd, if_neg (String.not_lt.mpr hle)]
  case keys => rw [hrepository, Store.keys_mapCurrencies]
  case mem_written =>
    intro k
    rw [ratedCodes, List.mem_filter, hasRate_iff]
    constructor
    · rintro ⟨hmem, hrated⟩
      obtain ⟨d, hd, rfl⟩ := List.mem_map.mp hmem
      have hstored := hkeyed.isSome_of_mem_all (hall ▸ List.mem_append_left _ hd)
      exact ⟨(hkeyed.mem_codes_around hall hstored).1.mp hmem, hstored, hrated⟩
    · rintro ⟨hlt, hstored, hrated⟩
      exact ⟨(hkeyed.mem_codes_around hall hstored).1.mpr hlt, hrated⟩
  case written_ascending =>
    have hascending := hkeyed.ascending_codes
    rw [hall, List.map_append] at hascending
    exact (List.pairwise_append.mp hascending).1.filter _
  case events => exact hevents
  case unlocked => exact hunlocked

theorem refused_iff {s : Store} (hkeyed : s.Keyed) {code : String} :
    Refused request table s code ↔
      ∃ d ∈ s.all, d.code = code ∧ hasNegativeRate request table code = true := by
  constructor
  · rintro ⟨hne, hstored, hrate⟩
    obtain ⟨d, hd⟩ := Option.isSome_iff_exists.mp hstored
    exact ⟨d, hkeyed.mem_all_of_getElem? hd, hkeyed code d hd,
      hasNegativeRate_iff.mpr ⟨hne, hrate⟩⟩
  · rintro ⟨d, hd, rfl, hnegative⟩
    obtain ⟨hne, hrate⟩ := hasNegativeRate_iff.mp hnegative
    exact ⟨hne, hkeyed.isSome_of_mem_all hd, hrate⟩

/-- Among the stored codes that are refused one is least, and what is listed before it
is not refused. -/
theorem exists_split_of_refused {s : Store} (hkeyed : s.Keyed)
    (hrefused : ∃ code, Refused request table s code) :
    ∃ first c rest rate, s.all = first ++ c :: rest ∧
      (∀ d ∈ first, hasNegativeRate request table d.code = false) ∧
      rateFor? request.pivot table c.code = some rate ∧ rate.isNegative = true ∧
      IsLeast {code | Refused request table s code} c.code := by
  obtain ⟨code, hcode⟩ := hrefused
  obtain ⟨d, hd, rfl, hnegative⟩ := (refused_iff hkeyed).mp hcode
  obtain ⟨c, hfind⟩ : ∃ c, s.all.find? (fun d => hasNegativeRate request table d.code) = some c :=
    Option.isSome_iff_exists.mp (List.find?_isSome.mpr ⟨d, hd, hnegative⟩)
  obtain ⟨hc, first, rest, hall, hfirst⟩ := List.find?_eq_some_iff_append.mp hfind
  obtain ⟨rate, hrate, hnegative⟩ := (Option.any_eq_true _ _).mp hc
  refine ⟨first, c, rest, rate, hall, fun d hd => by simpa using hfirst d hd, hrate, hnegative,
    (refused_iff hkeyed).mpr ⟨c, by simp [hall], rfl, hc⟩, ?_⟩
  -- nothing refused is listed before the first refused currency
  intro code hcode
  obtain ⟨d, hd, rfl, hnegative⟩ := (refused_iff hkeyed).mp hcode
  refine String.not_lt.mp fun hlt => ?_
  have hbefore : d.code ∈ first.map (·.code) :=
    (hkeyed.mem_codes_around hall (hkeyed.isSome_of_mem_all hd)).1.mpr hlt
  obtain ⟨d', hd', hsame⟩ := List.mem_map.mp hbefore
  have := hfirst d' hd'
  simp [hsame, hnegative] at this

/-- **A refresh that fails.** When a stored currency other than the pivot has a rate
below zero in the table, the refresh stops at the least such code with the error for it,
and leaves behind what it should. When the request fails, its error is returned, and
only the log is longer than before. -/
theorem update_eq_error {w : World Store} (hfree : w.locked = false)
    (hstore : w.repository.Reachable) (hcanonical : w.repository.Canonical) :
    (∀ table, request.reply = .ok table →
      (∃ code, Refused request table w.repository code) →
      ∃ code rate after written,
        IsLeast {code | Refused request table w.repository code} code ∧
        table.get? code = some rate ∧
        update request w = (after, .error (.invalidRate code rate.text)) ∧
        StoppedAt request table w after written code) ∧
    ∀ e, request.reply = .error e →
      ∃ log, update request w = ({ w with log }, .error (.fetch e)) := by
  constructor
  · intro table hreply hrefused
    have hkeyed := hstore.keyed
    obtain ⟨first, c, rest, rate, hall, hfirst, hrate, hnegative, hleast⟩ :=
      exists_split_of_refused hkeyed hrefused
    obtain ⟨log, hupdate⟩ :=
      update_eq_stopped hfree hkeyed hcanonical hreply hall hfirst hrate hnegative
    have hget : table.get? c.code = some rate := by
      rwa [rateFor?, if_neg hleast.1.ne_pivot] at hrate
    exact ⟨c.code, rate, _, _, hleast, hget, hupdate,
      stoppedAt_of_split hkeyed hall rfl rfl rfl⟩
  · intro e hreply
    exact update_of_fetchError hfree hreply

/-- Rates below zero for the pivot, which does not need its rate, a euro and a yen. -/
def negativeRates : List RateEntry :=
  [("AUD", .neg .one), ("CHF", .one), ("EUR", .neg .one), ("JPY", .neg .hundred)]

/-- A table that was read as it is, and took them. -/
def negativeTable : RateTable := ⟨.ofList negativeRates⟩

def negativeRequest (reply : Except FetchError RateTable) : Request where
  pivot := "AUD"
  sourceId := "rates"
  reply := reply
  time := euroRequest.time

def negativeCurrencies : List Currency :=
  [{ code := "JPY" }, { code := "EUR" }, { code := "CHF" }, { code := "AUD" }]

/-- A refresh that stops, and one whose request is refused. -/
theorem update_eq_error_negativeRequest :
    ∃ s, Store.ofCurrencies negativeCurrencies = .ok s ∧
      (∃ code rate after written,
        IsLeast {code | Refused (negativeRequest (.ok negativeTable)) negativeTable s code} code ∧
        negativeTable.get? code = some rate ∧
        update (negativeRequest (.ok negativeTable)) { repository := s } =
          (after, .error (.invalidRate code rate.text)) ∧
        StoppedAt (negativeRequest (.ok negativeTable)) negativeTable { repository := s } after
          written code) ∧
      ∃ log, update (negativeRequest (.error (.badRequest 503))) { repository := s } =
        ({ repository := s, log }, .error (.fetch (.badRequest 503))) := by
  have hbuilt : Store.ofCurrencies negativeCurrencies = .ok _ := rfl
  have hstore := Store.reachable_ofCurrencies hbuilt
  have herror := fun reply => @update_eq_error (negativeRequest reply) { repository := _ } rfl
    hstore (by decide +kernel)
  refine ⟨_, hbuilt, (herror (.ok negativeTable)).1 _ rfl ⟨"EUR", ?_⟩,
    (herror (.error (.badRequest 503))).2 _ rfl⟩
  exact ⟨by decide, by decide +kernel, .neg .one, by decide +kernel, by decide⟩

end Refresh
end CurrencyPad
