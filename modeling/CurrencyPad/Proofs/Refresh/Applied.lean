/-
CurrencyPad.Proofs.Refresh.Applied — what a refresh leaves behind when it
succeeds.

Over a store whose codes are all valid and in upper case, and a table
without rates below zero, a refresh whose request is answered cannot
fail. `Applied` says what it leaves behind: which currencies get which
rate, that nothing else about them changes and no other currency changes
at all, how the codes are divided into updated and stale ones, and what
observers are told. `exists_applied` is the result.

The induction over the store is `finish_writing_append`, here with the
whole listing. That gives the outcome in closed form
(`update_eq_applied`): the store is the one before with `refreshed` mapped
over it, and the codes are those of its listing, divided in two.
-/
import CurrencyPad.Proofs.Refresh.Writing

namespace CurrencyPad.Refresh

variable {request : Request} {table : RateTable}

/-! ## 1. The outcome in closed form -/

theorem isNegative_of_rateFor? (hrates : ∀ e ∈ table.entries, e.2.isNegative = false)
    {pivot code : String} {rate : Decimal} (h : rateFor? pivot table code = some rate) :
    rate.isNegative = false := by
  rw [rateFor?] at h
  split at h
  · obtain rfl := Option.some.inj h
    rfl
  · exact hrates _ (Std.ExtTreeMap.mem_toList_iff_getElem?_eq_some.mpr h)

/-- Among the currencies of the listing are all that are stored. -/
theorem refreshedAmong_all {s : Store} (hkeyed : s.Keyed) :
    s.mapCurrencies (refreshedAmong request table (s.all.map (·.code))) =
      s.mapCurrencies (refreshed request table) := by
  refine Store.mapCurrencies_congr fun code c hget => ?_
  rw [refreshedAmong, if_pos (List.mem_map_of_mem (hkeyed.mem_all_of_getElem? hget))]

/-- **A refresh that cannot fail**: every stored currency is refreshed, and the codes
of the listing are divided into those with a rate and those without. -/
theorem update_eq_applied {w : World Store} (hfree : w.locked = false)
    (hkeyed : w.repository.Keyed) (hcanonical : w.repository.Canonical)
    (hreply : request.reply = .ok table)
    (hrates : ∀ e ∈ table.entries, e.2.isNegative = false) :
    ∃ log, update request w =
      ({ repository := w.repository.mapCurrencies (refreshed request table)
         locked := false
         events := w.events ++
           [.ratesUpdated request.pivot (ratedCodes request table w.repository.all)]
         log },
        .ok (.applied (ratedCodes request table w.repository.all)
          (unratedCodes request table w.repository.all) request.time)) := by
  have hwritable : ∀ c ∈ w.repository.all, Writable request table w.repository c := by
    intro c hc
    exact
      { canonical := hcanonical c hc
        stored := hkeyed.isSome_of_mem_all hc
        rate := fun rate hrate => isNegative_of_rateFor? hrates hrate }
  have hwritten := finish_writing_append
    (w := { w with locked := true, log := w.log ++ request.replyLog }) hkeyed
    w.repository.all [] hwritable [] []
  simp only [List.append_nil, List.nil_append, refreshedAmong_all hkeyed] at hwritten
  rw [update_eq_finish_writing hfree hreply, hwritten]
  exact finish_writing_nil request _ table _ _

/-! ## 2. The result -/

/-- What a refresh that was applied leaves behind. -/
structure Applied (request : Request) (table : RateTable) (before after : World Store)
    (updated stale : List String) : Prop where
  /-- The rate of the pivot is one, whatever the table says of it. -/
  pivot : ∀ c, before.repository.records[request.pivot]? = some c →
    after.repository.records[request.pivot]? =
      some { c with rate := some .one, updated := some request.time }
  /-- The others get the rate that the table has for them. -/
  listed : ∀ (code : String) (c : Currency) (rate : Decimal), code ≠ request.pivot →
    before.repository.records[code]? = some c → table.get? code = some rate →
    after.repository.records[code]? =
      some { c with rate := some rate, updated := some request.time }
  /-- Those that the table does not know stay as they are. -/
  unlisted : ∀ (code : String) (c : Currency), code ≠ request.pivot →
    before.repository.records[code]? = some c → table.get? code = none →
    after.repository.records[code]? = some c
  /-- No currency is added or removed. -/
  keys : after.repository.records.keys = before.repository.records.keys
  mem_updated : ∀ code, code ∈ updated ↔ before.repository.records[code]?.isSome ∧
    (code = request.pivot ∨ (table.get? code).isSome)
  /-- Every stored code is updated or stale, once. -/
  perm : (updated ++ stale).Perm before.repository.records.keys
  disjoint : ∀ code ∈ updated, code ∉ stale
  updated_ascending : updated.Pairwise (· < ·)
  stale_ascending : stale.Pairwise (· < ·)
  events : after.events = before.events ++ [.ratesUpdated request.pivot updated]
  unlocked : after.locked = false

theorem getElem?_refreshed_of_some {s : Store} (hkeyed : s.Keyed) {code : String}
    {c : Currency} {rate : Decimal} (hc : s.records[code]? = some c)
    (hrate : rateFor? request.pivot table code = some rate) :
    (s.mapCurrencies (refreshed request table)).records[code]? =
      some (c.withRate rate request.time) := by
  simp [hc, refreshed, hkeyed code c hc, hrate]

theorem getElem?_refreshed_of_none {s : Store} (hkeyed : s.Keyed) {code : String}
    {c : Currency} (hc : s.records[code]? = some c)
    (hrate : rateFor? request.pivot table code = none) :
    (s.mapCurrencies (refreshed request table)).records[code]? = some c := by
  simp [hc, refreshed, hkeyed code c hc, hrate]

theorem mem_ratedCodes_all {s : Store} (hkeyed : s.Keyed) (code : String) :
    code ∈ ratedCodes request table s.all ↔
      s.records[code]?.isSome ∧ (code = request.pivot ∨ (table.get? code).isSome) := by
  rw [ratedCodes, List.mem_filter, hasRate_iff, hkeyed.codes_all, Std.ExtTreeMap.mem_keys,
    Std.ExtTreeMap.mem_iff_isSome_getElem?]

/-- **A refresh whose request is answered is applied**, and leaves behind what it
should. -/
theorem exists_applied {w : World Store} (hfree : w.locked = false)
    (hstore : w.repository.Reachable) (hcanonical : w.repository.Canonical)
    (hreply : request.reply = .ok table)
    (hrates : ∀ e ∈ table.entries, e.2.isNegative = false) :
    ∃ after updated stale,
      update request w = (after, .ok (.applied updated stale request.time)) ∧
        Applied request table w after updated stale := by
  have hkeyed := hstore.keyed
  obtain ⟨log, hupdate⟩ := update_eq_applied hfree hkeyed hcanonical hreply hrates
  refine ⟨_, _, _, hupdate, ?_⟩
  have hcodes := hkeyed.ascending_codes
  constructor
  case pivot =>
    intro c hc
    exact getElem?_refreshed_of_some hkeyed hc (by simp [rateFor?])
  case listed =>
    intro code c rate hne hc hrate
    exact getElem?_refreshed_of_some hkeyed hc (by simp [rateFor?, hne, hrate])
  case unlisted =>
    intro code c hne hc hrate
    exact getElem?_refreshed_of_none hkeyed hc (by simp [rateFor?, hne, hrate])
  case keys => exact Store.keys_mapCurrencies _ _
  case mem_updated => exact mem_ratedCodes_all hkeyed
  case perm =>
    rw [← hkeyed.codes_all]
    exact List.filter_append_perm _ _
  case disjoint =>
    intro code hrated hunrated
    have := (List.mem_filter.mp hrated).2
    have := (List.mem_filter.mp hunrated).2
    simp_all
  case updated_ascending => exact hcodes.filter _
  case stale_ascending => exact hcodes.filter _
  case events => rfl
  case unlocked => rfl

/-- A pivot that the table leaves out, a yen that it does not know, and a euro. -/
def storedCurrencies : List Currency :=
  [{ code := "USD" }, { code := "JPY", rate := some .hundred },
    { code := "EUR", favorite := true }]

/-- The table knows the euro, and a pound that is not stored. -/
def euroTable : RateTable :=
  .ofEntries [("eur", { coeff := 92, scale := 2 }), ("GBP", { coeff := 79, scale := 2 })]

def euroRequest : Request where
  pivot := "USD"
  sourceId := "rates"
  reply := .ok euroTable
  time := { year := 2024, month := 2, day := 29, hour := 12, minute := 0, second := 0,
            nanosecond := 0 }

theorem exists_applied_euroRequest :
    ∃ s, Store.ofCurrencies storedCurrencies = .ok s ∧
      ∃ after updated stale,
        update euroRequest { repository := s } =
            (after, .ok (.applied updated stale euroRequest.time)) ∧
          Applied euroRequest euroTable { repository := s } after updated stale := by
  have hbuilt : Store.ofCurrencies storedCurrencies = .ok _ := rfl
  exact ⟨_, hbuilt, exists_applied rfl (Store.reachable_ofCurrencies hbuilt)
    (by decide +kernel) rfl (by decide +kernel)⟩

end CurrencyPad.Refresh
