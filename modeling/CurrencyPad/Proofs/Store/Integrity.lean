/-
CurrencyPad.Proofs.Store.Integrity — what a store keeps through any
sequence of operations, failed ones among them.

`intact_of_reachable` collects it in one statement (`Intact`): every
record is held under the code of its currency, the listing goes through
the records once each in the order of their codes, an operation is
refused for a stated reason and then has no effect, an operation that
succeeds changes what it is to change and nothing else, no record is ever
lost, and rates below zero do not get in by being saved.

## How the proof goes

* `attempt_eq_error_iff` says which operations are refused, and with which
  error: the checks of an operation, in the order in which they are made,
  all of them before it writes.
* `Keyed.written` says what any other operation does to the records.
* What a sequence of operations keeps is read off `Change`, the inversion
  of one operation, by induction on the sequence.
-/
import CurrencyPad.Proofs.Store.Addressing

namespace CurrencyPad

/-- The rate of a currency, if it has one, is not below zero. -/
def Currency.RateNotNegative (c : Currency) : Prop :=
  ∀ rate, c.rate = some rate → rate.isNegative = false

namespace Store

/-! ## 1. Writes -/

/-- What an operation that succeeds does to the records. -/
inductive Written (s s' : Store) : Operation → Prop
  /-- The currency is held under its code, where there was nothing. -/
  | inserted {c : Currency} (free : s.records[c.code]? = none)
      (added : s'.records[c.code]? = some c)
      (others : ∀ code, code ≠ c.code → s'.records[code]? = s.records[code]?) :
      Written s s' (.insert c)
  /-- One currency has its mark set. -/
  | marked {code : String} {favorite : Bool} {c : Currency}
      (hcode : canonicalCode? code = some c.code) (hc : s.records[c.code]? = some c)
      (replaces : Replaces s s' c { c with favorite }) :
      Written s s' (.setFavorite code favorite)
  /-- One currency has a rate that is not below zero, and the time of it. -/
  | rated {code : String} {rate : Decimal} {time : Timestamp} {c : Currency}
      (hrate : rate.isNegative = false) (hcode : canonicalCode? code = some c.code)
      (hc : s.records[c.code]? = some c)
      (replaces : Replaces s s' c { c with rate := some rate, updated := some time }) :
      Written s s' (.saveRate code rate time)

/-- The currency under a stored code, which is its own. -/
theorem Keyed.exists_of_isSome {s : Store} (h : s.Keyed) {code : String}
    (hstored : s.records[code]?.isSome = true) :
    ∃ c : Currency, c.code = code ∧ s.records[c.code]? = some c := by
  obtain ⟨c, hc⟩ := Option.isSome_iff_exists.mp hstored
  obtain rfl := h code c hc
  exact ⟨c, rfl, hc⟩

theorem Keyed.written {s s' : Store} (h : s.Keyed) {op : Operation}
    (hop : s.attempt op = .ok () s') : Written s s' op := by
  cases op with
  | insert c =>
    obtain ⟨hfree, rfl⟩ := Writing.insert_eq_ok_iff.mp hop
    exact .inserted hfree (getElem?_insert_self s c) fun code => getElem?_insert_of_ne s
  | setFavorite code favorite =>
    obtain ⟨canonical, hcode, hstored, rfl⟩ := (Writing.setFavorite_eq_ok_iff h).mp hop
    obtain ⟨c, rfl, hc⟩ := h.exists_of_isSome hstored
    exact .marked hcode hc (h.replaces_changeAt hc _)
  | saveRate code rate time =>
    obtain ⟨hrate, canonical, hcode, hstored, rfl⟩ := (Writing.saveRate_eq_ok_iff h).mp hop
    obtain ⟨c, rfl, hc⟩ := h.exists_of_isSome hstored
    exact .rated hrate hcode hc (h.replaces_changeAt hc _)

/-! ## 2. Rates below zero -/

/-- No stored rate is below zero. -/
def RatesNotNegative (s : Store) : Prop :=
  ∀ (code : String) (c : Currency), s.records[code]? = some c → c.RateNotNegative

theorem RatesNotNegative.mapCurrencies {s : Store} (h : s.RatesNotNegative)
    {f : Currency → Currency} (hf : ∀ c, c.RateNotNegative → (f c).RateNotNegative) :
    (s.mapCurrencies f).RatesNotNegative := by
  intro code d hd
  rw [getElem?_mapCurrencies, Option.map_eq_some_iff] at hd
  obtain ⟨c, hc, rfl⟩ := hd
  exact hf c (h code c hc)

/-- **One operation**: a rate below zero can only come with a currency that is inserted. -/
theorem Change.ratesNotNegative {s s' : Store} {op : Operation} (h : Change s op s')
    (hs : s.RatesNotNegative) (hop : ∀ c, op = .insert c → c.RateNotNegative) :
    s'.RatesNotNegative := by
  cases h with
  | failed _ => exact hs
  | @inserted c hfree =>
    intro code d hd
    by_cases hcode : code = c.code
    · subst hcode
      rw [getElem?_insert_self] at hd
      cases hd
      exact hop c rfl
    · rw [getElem?_insert_of_ne s hcode] at hd
      exact hs code d hd
  | marked favorite =>
    refine hs.mapCurrencies fun c hc => ?_
    unfold changeAt
    split
    · exact hc
    · exact hc
  | rated time hrate =>
    refine hs.mapCurrencies fun c hc => ?_
    unfold changeAt
    split
    · intro r hr
      cases hr
      exact hrate
    · exact hc

/-- **A sequence of operations**: the same. -/
theorem Reachable.ratesNotNegative_run {s : Store} (h : s.Reachable) (ops : List Operation)
    (hs : s.RatesNotNegative) (hops : ∀ c, .insert c ∈ ops → c.RateNotNegative) :
    (s.run ops).RatesNotNegative := by
  induction ops generalizing s with
  | nil => exact hs
  | cons op rest ih =>
    refine ih (h.perform op) ?_ fun c hc => hops c (List.mem_cons_of_mem op hc)
    refine (h.keyed.change_perform op).ratesNotNegative hs fun c hop => hops c ?_
    simp [hop]

/-! ## 3. Sequences of operations -/

/-- What a sequence of operations leaves of a store, and what can be done to it next. -/
structure Intact (s : Store) (ops : List Operation) : Prop where
  /-- Every record is held under the code of its currency. -/
  keyed : ∀ (code : String) (c : Currency),
    (s.run ops).records[code]? = some c → c.code = code
  /-- The listing is in the order of the codes, each of which it has once. -/
  ascending : ((s.run ops).all.map (·.code)).Pairwise (· < ·)
  /-- The listing has all that is held, and nothing else. -/
  listed : ∀ c, c ∈ (s.run ops).all ↔ ∃ code : String, (s.run ops).records[code]? = some c
  /-- An operation that fails has been refused, and the store that it leaves is the one that
  it found. -/
  refused : ∀ op e s', (s.run ops).attempt op = .error e s' →
    Refused (s.run ops) op e ∧ s' = s.run ops ∧ s.run (ops ++ [op]) = s.run ops
  /-- An operation that succeeds changes one record. -/
  written : ∀ op s', (s.run ops).attempt op = .ok () s' →
    s.run (ops ++ [op]) = s' ∧ Written (s.run ops) s' op
  /-- No record is lost: it keeps all but its mark, its rate and the time of that. -/
  kept : ∀ (rest : List Operation) (code : String) (c : Currency),
    (s.run ops).records[code]? = some c →
    ∃ d, (s.run (ops ++ rest)).records[code]? = some d ∧ Continues c d
  /-- Rates below zero come from currencies that were inserted with them. -/
  notNegative : s.RatesNotNegative → (∀ c, .insert c ∈ ops → c.RateNotNegative) →
    (s.run ops).RatesNotNegative

/-- **Every sequence of operations**, with whatever arguments, keeps a store intact. -/
theorem intact_of_reachable {s : Store} (h : s.Reachable) (ops : List Operation) :
    Intact s ops := by
  have hrun := h.run ops
  have hkeyed := hrun.keyed
  constructor
  case keyed => exact hkeyed
  case ascending => exact hkeyed.ascending_codes
  case listed =>
    intro c
    constructor
    · intro hc
      exact ⟨c.code, (hkeyed.mem_all_iff c).mp hc⟩
    · rintro ⟨code, hc⟩
      exact hkeyed.mem_all_of_getElem? hc
  case refused =>
    intro op e s' hop
    obtain ⟨hrefused, hsame⟩ := attempt_eq_error_iff.mp hop
    refine ⟨hrefused, hsame, ?_⟩
    rw [run_concat, perform_of_error hop, hsame]
  case written =>
    intro op s' hop
    refine ⟨?_, hkeyed.written hop⟩
    rw [run_concat, perform_of_ok hop]
  case kept =>
    intro rest code c hc
    rw [run_append]
    exact hrun.exists_continues_run rest hc
  case notNegative => exact h.ratesNotNegative_run ops

def noon : Timestamp := ⟨2026, 3, 1, 12, 0, 0, 0⟩

/-- A currency is inserted, inserted again, marked under another spelling, and given a rate;
then a rate below zero, a code that is not stored and a text that is no code are refused. -/
def refusedOps : List Operation :=
  [.insert { code := "EUR", name := "Euro" }, .insert { code := "EUR" },
    .setFavorite " eur" true, .saveRate "Eur" .hundred noon,
    .saveRate "EUR" (-.one) noon, .setFavorite "GBP" true, .saveRate "E" .one noon]

theorem intact_refusedOps :
    (empty.run refusedOps).all = [{
        code := "EUR", name := "Euro", favorite := true
        rate := some .hundred, updated := some noon }] ∧
      Intact empty refusedOps :=
  ⟨by decide +kernel, intact_of_reachable .empty refusedOps⟩

end Store
end CurrencyPad
