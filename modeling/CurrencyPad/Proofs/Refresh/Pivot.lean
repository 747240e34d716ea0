/-
CurrencyPad.Proofs.Refresh.Pivot — the rate of the pivot after a refresh.

A refresh gives the pivot a rate of exactly one. It can lose it again
before the refresh is over: the store keeps a currency under its code as
it is written there, but writes a rate under the canonical spelling of the
code. A currency whose code is another spelling of the pivot's
(`Respells`) is no pivot to the refresh, so it gets the rate that the
table has for the pivot, and the write goes to the pivot's own record.

`pivot_eq_one_iff` says that this is the exact condition: after a refresh
that was applied the rate of the pivot is one unless such a currency is
listed after the pivot and the table has another rate for the pivot.

## How the proof goes

Nothing is asked of the codes in the store here, so a write can change
another record than that of the currency it was meant for. Still the
record under a code has at the end what was last written there
(`lastRate?`); `getElem?_of_finish_writing` is the induction over the
list, from the inversion of one step (`of_finish_writing_cons`). All
spellings of the pivot have the same entry in the table, so the last write
is either the pivot's own or that entry.
-/
import CurrencyPad.Proofs.Currency.Code
import CurrencyPad.Proofs.Refresh.Writing

namespace CurrencyPad.Refresh

open Store (changeAt)

/-! ## 1. One write after the other -/

/-- The currency with the rate that was written last, if any was. -/
def rewritten (time : Timestamp) (rate : Option Decimal) (c : Currency) : Currency :=
  match rate with
  | some rate => c.withRate rate time
  | none => c

/-- What one currency of the listing makes the refresh write under a code. -/
def rateUnder? (request : Request) (table : RateTable) (code : String) (c : Currency) :
    Option Decimal :=
  if canonicalCode? c.code = some code then rateFor? request.pivot table c.code else none

/-- What is written last under a code when the currencies of a list are gone through. -/
def lastRate? (request : Request) (table : RateTable) (code : String) :
    List Currency → Option Decimal
  | [] => none
  | c :: rest => (lastRate? request table code rest).or (rateUnder? request table code c)

variable {request : Request} {table : RateTable}

theorem lastRate?_append (code : String) (first rest : List Currency) :
    lastRate? request table code (first ++ rest) =
      (lastRate? request table code rest).or (lastRate? request table code first) := by
  induction first with
  | nil => simp [lastRate?]
  | cons c first ih => rw [List.cons_append, lastRate?, ih, lastRate?, Option.or_assoc]

theorem rewritten_rewritten (time : Timestamp) (first last : Option Decimal) (c : Currency) :
    rewritten time last (rewritten time first c) = rewritten time (last.or first) c := by
  cases last with
  | none => rfl
  | some rate => cases first <;> rfl

/-- **One currency** of a listing that is gone through without failure has no rate, or
its rate is written under the canonical spelling of its code. -/
theorem of_finish_writing_cons {w after : World Store} (hkeyed : w.repository.Keyed)
    {c : Currency} {todo : List Currency} {updated stale : List String}
    {outcome : RefreshOutcome}
    (h : finish request w (.writing table (c :: todo) updated stale) = (after, .ok outcome)) :
    (rateFor? request.pivot table c.code = none ∧
        finish request w (.writing table todo updated (stale ++ [c.code])) =
          (after, .ok outcome)) ∨
      ∃ rate canonical, rateFor? request.pivot table c.code = some rate ∧
        canonicalCode? c.code = some canonical ∧
        finish request
          { w with repository :=
              w.repository.mapCurrencies (changeAt canonical (·.withRate rate request.time)) }
          (.writing table todo (updated ++ [c.code]) stale) = (after, .ok outcome) := by
  rw [finish_step request w rfl] at h
  cases hrate : rateFor? request.pivot table c.code with
  | none =>
    simp only [advance, writeNext, hrate] at h
    exact .inl ⟨rfl, h⟩
  | some rate =>
    cases hsave : (Repository.saveRate c.code rate request.time).run w.repository with
    | ok _ repository =>
      simp only [advance, writeNext, hrate, hsave] at h
      obtain ⟨-, canonical, hcanonical, -, rfl⟩ :=
        (Store.Writing.saveRate_eq_ok_iff hkeyed).mp hsave
      exact .inr ⟨rate, canonical, rfl, hcanonical, h⟩
    | error e _ =>
      -- a write that fails is what the refresh ends with
      simp only [advance, writeNext, hrate, hsave] at h
      split at h
      · simp at h
      · simp at h

/-- **The whole listing**: the record under a code has what was last written there. -/
theorem getElem?_of_finish_writing {w after : World Store} (hkeyed : w.repository.Keyed)
    {todo : List Currency} {updated stale : List String} {outcome : RefreshOutcome}
    (h : finish request w (.writing table todo updated stale) = (after, .ok outcome))
    (code : String) :
    after.repository.records[code]? =
      w.repository.records[code]?.map
        (rewritten request.time (lastRate? request table code todo)) := by
  induction todo generalizing w updated stale with
  | nil =>
    obtain ⟨log, hlog⟩ := finish_writing_nil request w table updated stale
    rw [hlog] at h
    obtain ⟨rfl, -⟩ := Prod.mk.inj h
    exact (Option.map_id' (x := w.repository.records[code]?)).symm
  | cons c todo ih =>
    rcases of_finish_writing_cons hkeyed h with
      ⟨hnone, h⟩ | ⟨rate, canonical, hrate, hcanonical, h⟩
    · have hunder : rateUnder? request table code c = none := by simp [rateUnder?, hnone]
      rw [ih hkeyed h, lastRate?, hunder, Option.or_none]
    · rw [ih (hkeyed.mapCurrencies (Store.code_changeAt (Store.code_withRate _ _))) h,
        Store.getElem?_mapCurrencies, Option.map_map, lastRate?]
      cases hget : w.repository.records[code]? with
      | none => rfl
      | some d =>
        have hwrite : changeAt canonical (·.withRate rate request.time) d =
            rewritten request.time (rateUnder? request table code c) d := by
          rw [changeAt, hkeyed code d hget, rateUnder?, hcanonical, hrate]
          by_cases hsame : code = canonical
          · simp [hsame, rewritten]
          · simp [hsame, Ne.symm hsame, rewritten]
        simp only [Option.map_some, Function.comp_apply, hwrite, rewritten_rewritten]

/-! ## 2. The spellings of the pivot -/

/-- A stored code after the pivot's that is another spelling of it. -/
structure Respells (s : Store) (pivot code : String) : Prop where
  after : pivot < code
  stored : s.records[code]?.isSome = true
  spelling : canonicalCode? code = some pivot

/-- The table has one entry for all spellings of the pivot. -/
theorem rateUnder?_pivot {c : Currency} (hpivot : Text.normalize request.pivot = request.pivot)
    (hne : c.code ≠ request.pivot) :
    rateUnder? request table request.pivot c =
      if canonicalCode? c.code = some request.pivot then table.get? request.pivot else none := by
  rw [rateUnder?]
  split
  · rename_i hspelling
    have hcode := (canonicalCode?_eq_some_iff.mp hspelling).2
    rw [rateFor?_of_ne hne, RateTable.get?, RateTable.get?, hcode, hpivot]
  · rfl

/-- After the pivot nothing or the table's rate for the pivot is written under it. -/
theorem lastRate?_pivot (hpivot : Text.normalize request.pivot = request.pivot)
    {rest : List Currency} (hrest : ∀ c ∈ rest, c.code ≠ request.pivot) :
    lastRate? request table request.pivot rest =
      if ∃ c ∈ rest, canonicalCode? c.code = some request.pivot then table.get? request.pivot
      else none := by
  induction rest with
  | nil => simp [lastRate?]
  | cons c rest ih =>
    obtain ⟨hc, hrest⟩ := List.forall_mem_cons.mp hrest
    rw [lastRate?, ih hrest, rateUnder?_pivot hpivot hc]
    by_cases hspelling : canonicalCode? c.code = some request.pivot
    · by_cases hlater : ∃ c ∈ rest, canonicalCode? c.code = some request.pivot
      · simp [hspelling, hlater]
      · simp [hspelling, hlater]
    · simp [hspelling]

/-- The pivot has another spelling after it when one is listed there. -/
theorem exists_respells_iff {s : Store} (hkeyed : s.Keyed) {first rest : List Currency}
    {c : Currency} (hall : s.all = first ++ c :: rest) :
    (∃ code, Respells s c.code code) ↔
      ∃ d ∈ rest, canonicalCode? d.code = some c.code := by
  constructor
  · rintro ⟨code, hafter, hstored, hspelling⟩
    obtain ⟨d, hd, rfl⟩ :=
      List.mem_map.mp ((hkeyed.mem_codes_around hall hstored).2.mpr hafter)
    exact ⟨d, hd, hspelling⟩
  · rintro ⟨d, hd, hspelling⟩
    have hstored := hkeyed.isSome_of_mem_all (c := d) (by simp [hall, hd])
    exact ⟨d.code, (hkeyed.mem_codes_around hall hstored).2.mp (List.mem_map_of_mem hd),
      hstored, hspelling⟩

/-! ## 3. Refreshes that were applied -/

/-- A refresh that was applied took the lock, and went through the whole listing. -/
theorem finish_writing_of_applied {w after : World Store} (hreply : request.reply = .ok table)
    {updated stale : List String} {time : Timestamp}
    (h : update request w = (after, .ok (.applied updated stale time))) :
    ∃ begun : World Store, begun.repository = w.repository ∧
      finish request begun (.writing table w.repository.all [] []) =
        (after, .ok (.applied updated stale time)) := by
  cases hlocked : w.locked with
  | false =>
    rw [update_eq_finish_writing hlocked hreply] at h
    exact ⟨{ w with locked := true, log := w.log ++ request.replyLog }, rfl, h⟩
  | true =>
    rw [update, finish_step request w rfl] at h
    simp [advance, hlocked] at h

/-- A code that got a rate is a valid one. -/
theorem isSome_canonicalCode?_of_finish_writing {w after : World Store}
    (hkeyed : w.repository.Keyed) {todo : List Currency} {updated stale : List String}
    {outcome : RefreshOutcome}
    (h : finish request w (.writing table todo updated stale) = (after, .ok outcome)) :
    ∀ c ∈ todo, (rateFor? request.pivot table c.code).isSome →
      (canonicalCode? c.code).isSome := by
  induction todo generalizing w updated stale with
  | nil => simp
  | cons c todo ih =>
    rw [List.forall_mem_cons]
    rcases of_finish_writing_cons hkeyed h with
      ⟨hnone, h⟩ | ⟨rate, canonical, hrate, hcanonical, h⟩
    · exact ⟨by simp [hnone], ih hkeyed h⟩
    · exact ⟨fun _ => by simp [hcanonical],
        ih (hkeyed.mapCurrencies (Store.code_changeAt (Store.code_withRate _ _))) h⟩

/-- **The pivot** has the rate that the table has for it, if another spelling of it is
listed after it, and one otherwise. -/
theorem exists_pivot_of_applied {w after : World Store} (hkeyed : w.repository.Keyed)
    (hpivot : Text.normalize request.pivot = request.pivot) (hreply : request.reply = .ok table)
    {updated stale : List String} {time : Timestamp}
    (happlied : update request w = (after, .ok (.applied updated stale time)))
    {c : Currency} (hc : w.repository.records[request.pivot]? = some c) :
    ∃ last : Option Decimal,
      (∀ rate, last = some rate ↔
        (∃ code, Respells w.repository request.pivot code) ∧
          table.get? request.pivot = some rate) ∧
      after.repository.records[request.pivot]? =
        some (c.withRate (last.getD .one) request.time) := by
  have hcode := hkeyed _ c hc
  have hmem := hkeyed.mem_all_of_getElem? hc
  obtain ⟨begun, hbegun, hwritten⟩ := finish_writing_of_applied hreply happlied
  have hkeyed' : begun.repository.Keyed := hbegun ▸ hkeyed
  have hown : rateUnder? request table request.pivot c = some .one := by
    obtain ⟨canonical, hcanonical⟩ := Option.isSome_iff_exists.mp
      (isSome_canonicalCode?_of_finish_writing hkeyed' hwritten c hmem (by simp [hcode]))
    have hspelling := (canonicalCode?_eq_some_iff.mp hcanonical).2
    rw [hcode, hpivot] at hspelling
    subst hspelling
    rw [rateUnder?, if_pos hcanonical, hcode, rateFor?_pivot]
  obtain ⟨first, rest, hall⟩ := List.append_of_mem hmem
  have hrest : ∀ d ∈ rest, d.code ≠ request.pivot := by
    intro d hd heq
    have hlisted : request.pivot ∈ rest.map (·.code) := List.mem_map.mpr ⟨d, hd, heq⟩
    have hlt := (hkeyed.mem_codes_around hall (by rw [hc, Option.isSome_some])).2.mp hlisted
    rw [hcode] at hlt
    exact String.lt_irrefl _ hlt
  refine ⟨lastRate? request table request.pivot rest, fun rate => ?_, ?_⟩
  · rw [lastRate?_pivot hpivot hrest, Option.ite_none_right_eq_some, ← hcode,
      exists_respells_iff hkeyed hall]
  · rw [getElem?_of_finish_writing hkeyed' hwritten, hbegun, hc, hall, lastRate?_append, lastRate?,
      hown, Option.or_some, Option.some_or]
    rfl

/-- **The pivot's rate is exactly one** after a refresh that was applied, unless another
spelling of it is listed after it and the table has another rate for it. -/
theorem pivot_eq_one_iff {w after : World Store} {code : String}
    (hpivot : request.pivot = pivotOf code) (hstore : w.repository.Reachable)
    (hreply : request.reply = .ok table) {updated stale : List String} {time : Timestamp}
    (happlied : update request w = (after, .ok (.applied updated stale time)))
    (hstored : w.repository.records[request.pivot]?.isSome) :
    (∃ c rate, after.repository.records[request.pivot]? = some c ∧ c.rate = some rate ∧
        rate.sameValue .one = true) ↔
      ∀ other rate, Respells w.repository request.pivot other →
        table.get? request.pivot = some rate → rate.sameValue .one = true := by
  have hnormal : Text.normalize request.pivot = request.pivot := by
    rw [hpivot, pivotOf, Text.normalize_normalize]
  obtain ⟨c, hc⟩ := Option.isSome_iff_exists.mp hstored
  obtain ⟨last, hlast, hafter⟩ :=
    exists_pivot_of_applied hstore.keyed hnormal hreply happlied hc
  have hrate : (∃ c rate, after.repository.records[request.pivot]? = some c ∧
      c.rate = some rate ∧ rate.sameValue .one = true) ↔
        (last.getD .one).sameValue .one = true := by
    simp [hafter, Currency.withRate]
  rw [hrate]
  constructor
  · intro hone other rate hother hget
    rwa [(hlast rate).mpr ⟨⟨other, hother⟩, hget⟩, Option.getD_some] at hone
  · intro hall
    cases hsome : last with
    | none => decide +kernel
    | some rate =>
      obtain ⟨⟨other, hother⟩, hget⟩ := (hlast rate).mp hsome
      exact hall other rate hother hget

/-! ## 4. A pivot that loses its rate -/

/-- A dollar, and a currency whose code is another spelling of it. -/
def respelledCurrencies : List Currency := [{ code := "USD" }, { code := "usd" }]

def respelledStore : Store := (Store.ofCurrencies respelledCurrencies).toOption.getD .empty

/-- The table has a rate of a hundred for the pivot itself. -/
def respelledRequest : Request where
  pivot := "USD"
  sourceId := "rates"
  reply := .ok (.ofEntries [("USD", .hundred)])
  time := { year := 2024, month := 2, day := 29, hour := 12, minute := 0, second := 0,
            nanosecond := 0 }

theorem reachable_respelledStore : respelledStore.Reachable := by
  have hbuilt : Store.ofCurrencies respelledCurrencies = .ok respelledStore := rfl
  exact Store.reachable_ofCurrencies hbuilt

theorem pivot_respelledRequest : respelledRequest.pivot = pivotOf "usd" := by decide +kernel

theorem update_respelledRequest :
    update respelledRequest { repository := respelledStore } =
      ((update respelledRequest { repository := respelledStore }).1,
        .ok (.applied ["USD", "usd"] [] respelledRequest.time)) := by
  refine Prod.ext rfl ?_
  cbv

theorem getElem?_update_respelledRequest :
    (update respelledRequest { repository := respelledStore }).1.repository.records["USD"]? =
      some { code := "USD", rate := some .hundred, updated := some respelledRequest.time } := by
  cbv

theorem not_pivot_eq_one :
    ¬∀ (request : Request) (w after : World Store) (code : String)
      (updated stale : List String) (time : Timestamp) (c : Currency),
      request.pivot = pivotOf code → w.repository.Reachable →
      update request w = (after, .ok (.applied updated stale time)) →
      after.repository.records[request.pivot]? = some c →
      ∃ rate, c.rate = some rate ∧ rate.sameValue .one = true := by
  intro hall
  obtain ⟨rate, hrate, hone⟩ := hall respelledRequest { repository := respelledStore } _ "usd"
    _ _ _ _ pivot_respelledRequest reachable_respelledStore update_respelledRequest
    getElem?_update_respelledRequest
  obtain rfl := Option.some.inj hrate
  revert hone
  decide +kernel

/-- The condition for `respelledStore`, which does not meet it. -/
theorem pivot_eq_one_iff_respelledRequest :
    ∃ after table, respelledRequest.reply = .ok table ∧
      update respelledRequest { repository := respelledStore } =
        (after, .ok (.applied ["USD", "usd"] [] respelledRequest.time)) ∧
      ((∃ c rate, after.repository.records["USD"]? = some c ∧ c.rate = some rate ∧
          rate.sameValue .one = true) ↔
        ∀ other rate, Respells respelledStore "USD" other →
          table.get? "USD" = some rate → rate.sameValue .one = true) :=
  ⟨_, _, rfl, update_respelledRequest,
    pivot_eq_one_iff pivot_respelledRequest reachable_respelledStore rfl
      update_respelledRequest (by decide +kernel)⟩

end CurrencyPad.Refresh
