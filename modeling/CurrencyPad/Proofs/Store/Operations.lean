/-
CurrencyPad.Proofs.Store.Operations — sequences of writing operations.

A store is written to by three operations, each of which can fail. There
is a store afterwards in either case, so a sequence of operations always
leads to a store (`run`).

`attempt_eq_error_iff` says which operations are refused, with which error,
and that nothing has been written then: the checks of an operation come
before its one write, in the order that `Refused` has.

`Change` says once what an operation can do: nothing, add a currency under
a code that is free, or change the currency under one canonical code in
place. `Keyed.change_perform` is that inversion; what a sequence of
operations keeps is read off its cases. The codes that are stored at the
end are those of the currencies that were to be inserted
(`isSome_getElem?_run_iff`).
-/
import CurrencyPad.Proofs.Store.Records

namespace CurrencyPad.Store

/-! ## 1. Operations -/

/-- An operation that writes to a store. -/
inductive Operation
  | insert (c : Currency)
  | setFavorite (code : String) (favorite : Bool)
  | saveRate (code : String) (rate : Decimal) (time : Timestamp)

/-- An operation, done to a store in place. -/
def attempt (s : Store) : Operation → EStateM.Result Error Store Unit
  | .insert c => (Writing.insert c).run s
  | .setFavorite code favorite => (Writing.setFavorite code favorite).run s
  | .saveRate code rate time => (Writing.saveRate code rate time).run s

/-- The store that is there after an operation, whether it has succeeded or failed. -/
def perform (s : Store) (op : Operation) : Store :=
  match s.attempt op with
  | .ok _ s' => s'
  | .error _ s' => s'

/-- The store after a sequence of operations. -/
def run (s : Store) (ops : List Operation) : Store := ops.foldl perform s

@[simp] theorem run_nil (s : Store) : s.run [] = s := rfl

theorem run_append (s : Store) (first rest : List Operation) :
    s.run (first ++ rest) = (s.run first).run rest := List.foldl_append

theorem run_concat (s : Store) (ops : List Operation) (op : Operation) :
    s.run (ops ++ [op]) = (s.run ops).perform op := s.run_append ops [op]

theorem perform_of_ok {s s' : Store} {op : Operation} (h : s.attempt op = .ok () s') :
    s.perform op = s' := by
  rw [perform, h]

theorem perform_of_error {s s' : Store} {op : Operation} {e : Error}
    (h : s.attempt op = .error e s') : s.perform op = s' := by
  rw [perform, h]

/-! ## 2. Operations that fail -/

/-- The operation is refused, with this error. -/
inductive Refused (s : Store) : Operation → Error → Prop
  /-- The code of the currency is taken. -/
  | taken {c : Currency} (hstored : s.records[c.code]?.isSome = true) :
      Refused s (.insert c) (.duplicateCurrency c.code)
  /-- The text that is to be marked is no code. -/
  | noMarkedCode {code : String} {favorite : Bool} (hcode : canonicalCode? code = none) :
      Refused s (.setFavorite code favorite) (.invalidCurrencyCode code)
  /-- No currency is stored under the code that is to be marked. -/
  | nothingMarked {code canonical : String} {favorite : Bool}
      (hcode : canonicalCode? code = some canonical) (hfree : s.records[canonical]? = none) :
      Refused s (.setFavorite code favorite) (.currencyNotFound canonical)
  /-- The rate is below zero, whatever the code is. -/
  | negative {code : String} {rate : Decimal} {time : Timestamp}
      (hrate : rate.isNegative = true) :
      Refused s (.saveRate code rate time) (.invalidRate code rate.text)
  /-- The text that is to be given a rate is no code. -/
  | noRatedCode {code : String} {rate : Decimal} {time : Timestamp}
      (hrate : rate.isNegative = false) (hcode : canonicalCode? code = none) :
      Refused s (.saveRate code rate time) (.invalidCurrencyCode code)
  /-- No currency is stored under the code that is to be given a rate. -/
  | nothingRated {code canonical : String} {rate : Decimal} {time : Timestamp}
      (hrate : rate.isNegative = false) (hcode : canonicalCode? code = some canonical)
      (hfree : s.records[canonical]? = none) :
      Refused s (.saveRate code rate time) (.save ("unknown currency " ++ canonical))

/-- **An operation fails** exactly when it is refused, and with that error. Nothing has been
written then. -/
theorem attempt_eq_error_iff {s s' : Store} {op : Operation} {e : Error} :
    s.attempt op = .error e s' ↔ Refused s op e ∧ s' = s := by
  constructor
  · intro h
    cases op with
    | insert c =>
      obtain ⟨hstored, rfl, rfl⟩ := Writing.insert_eq_error_iff.mp h
      exact ⟨.taken hstored, rfl⟩
    | setFavorite code favorite =>
      simp only [attempt] at h
      cases hcode : canonicalCode? code with
      | none =>
        rw [Writing.setFavorite_of_noCode s favorite hcode] at h
        cases h
        exact ⟨.noMarkedCode hcode, rfl⟩
      | some canonical =>
        rw [Writing.setFavorite_of_canonical s favorite hcode, Writing.change_eq_error_iff] at h
        obtain ⟨hfree, rfl, rfl⟩ := h
        exact ⟨.nothingMarked hcode hfree, rfl⟩
    | saveRate code rate time =>
      simp only [attempt] at h
      cases hrate : rate.isNegative with
      | true =>
        rw [Writing.saveRate_of_isNegative s code time hrate] at h
        cases h
        exact ⟨.negative hrate, rfl⟩
      | false =>
        cases hcode : canonicalCode? code with
        | none =>
          rw [Writing.saveRate_of_noCode s time hrate hcode] at h
          cases h
          exact ⟨.noRatedCode hrate hcode, rfl⟩
        | some canonical =>
          rw [Writing.saveRate_of_canonical s time hrate hcode, Writing.change_eq_error_iff] at h
          obtain ⟨hfree, rfl, rfl⟩ := h
          exact ⟨.nothingRated hrate hcode hfree, rfl⟩
  · rintro ⟨h, rfl⟩
    cases h with
    | taken hstored => exact Writing.insert_eq_error_iff.mpr ⟨hstored, rfl, rfl⟩
    | noMarkedCode hcode => exact Writing.setFavorite_of_noCode s' _ hcode
    | nothingMarked hcode hfree =>
      exact (Writing.setFavorite_of_canonical s' _ hcode).trans
        (Writing.change_eq_error_iff.mpr ⟨hfree, rfl, rfl⟩)
    | negative hrate => exact Writing.saveRate_of_isNegative s' _ _ hrate
    | noRatedCode hrate hcode => exact Writing.saveRate_of_noCode s' _ hrate hcode
    | nothingRated hrate hcode hfree =>
      exact (Writing.saveRate_of_canonical s' _ hrate hcode).trans
        (Writing.change_eq_error_iff.mpr ⟨hfree, rfl, rfl⟩)

theorem Reachable.perform {s : Store} (h : s.Reachable) (op : Operation) :
    (s.perform op).Reachable := by
  cases hop : s.attempt op with
  | error e s' =>
    obtain ⟨-, rfl⟩ := attempt_eq_error_iff.mp hop
    rwa [perform_of_error hop]
  | ok _ s' =>
    rw [perform_of_ok hop]
    cases op with
    | insert c => exact h.insert c (Writing.outcome_eq_ok_iff.mpr hop)
    | setFavorite code favorite =>
      exact h.setFavorite code favorite (Writing.outcome_eq_ok_iff.mpr hop)
    | saveRate code rate time =>
      exact h.saveRate code rate time (Writing.outcome_eq_ok_iff.mpr hop)

theorem Reachable.run {s : Store} (h : s.Reachable) (ops : List Operation) :
    (s.run ops).Reachable := by
  induction ops generalizing s with
  | nil => exact h
  | cons op rest ih => exact ih (h.perform op)

/-! ## 3. What an operation does -/

/-- What an operation can do to a store. -/
inductive Change (s : Store) : Operation → Store → Prop
  /-- It is refused. -/
  | failed {op : Operation} {e : Error} (hop : Refused s op e) : Change s op s
  /-- A currency is added under its code, which is free. -/
  | inserted {c : Currency} (hfree : s.records[c.code]? = none) :
      Change s (.insert c) ⟨s.records.insert c.code c⟩
  /-- The mark of one currency is set. -/
  | marked {code canonical : String} (favorite : Bool)
      (hcode : canonicalCode? code = some canonical)
      (hstored : s.records[canonical]?.isSome = true) :
      Change s (.setFavorite code favorite)
        (s.mapCurrencies (changeAt canonical ({ · with favorite })))
  /-- The rate of one currency is written, and the time of it. -/
  | rated {code canonical : String} {rate : Decimal} (time : Timestamp)
      (hrate : rate.isNegative = false) (hcode : canonicalCode? code = some canonical)
      (hstored : s.records[canonical]?.isSome = true) :
      Change s (.saveRate code rate time)
        (s.mapCurrencies (changeAt canonical (·.withRate rate time)))

/-- **Every operation** does one of these things. -/
theorem Keyed.change_perform {s : Store} (h : s.Keyed) (op : Operation) :
    Change s op (s.perform op) := by
  cases hop : s.attempt op with
  | error e s' =>
    obtain ⟨hrefused, rfl⟩ := attempt_eq_error_iff.mp hop
    rw [perform_of_error hop]
    exact .failed hrefused
  | ok _ s' =>
    rw [perform_of_ok hop]
    cases op with
    | insert c =>
      obtain ⟨hfree, rfl⟩ := Writing.insert_eq_ok_iff.mp hop
      exact .inserted hfree
    | setFavorite code favorite =>
      obtain ⟨canonical, hcode, hstored, rfl⟩ := (Writing.setFavorite_eq_ok_iff h).mp hop
      exact .marked favorite hcode hstored
    | saveRate code rate time =>
      obtain ⟨hrate, canonical, hcode, hstored, rfl⟩ := (Writing.saveRate_eq_ok_iff h).mp hop
      exact .rated time hrate hcode hstored

/-- **Every operation** leaves each currency under its own code. -/
theorem Change.keyed {s s' : Store} {op : Operation} (h : Change s op s') (hkeyed : s.Keyed) :
    s'.Keyed := by
  cases h with
  | failed hop => exact hkeyed
  | inserted hfree => exact hkeyed.insert _
  | marked favorite => exact hkeyed.mapCurrencies (code_changeAt fun _ => rfl)
  | rated time => exact hkeyed.mapCurrencies (code_changeAt (code_withRate _ time))

/-- Codes stay valid and in upper case while such codes are inserted. -/
theorem Change.canonical {s s' : Store} {op : Operation} (h : Change s op s')
    (hkeyed : s.Keyed) (hcanonical : s.Canonical)
    (hop : ∀ c, op = .insert c → canonicalCode? c.code = some c.code) : s'.Canonical := by
  cases h with
  | failed _ => exact hcanonical
  | @inserted c hfree => exact hcanonical.insert hkeyed (hop c rfl)
  | marked favorite => exact hcanonical.mapCurrencies (code_changeAt fun _ => rfl)
  | rated time => exact hcanonical.mapCurrencies (code_changeAt (code_withRate _ time))

/-! ## 4. The stored codes -/

/-- **One operation**: a code is stored afterwards when it was before, or is that of a
currency that was to be inserted. -/
theorem Change.isSome_getElem?_iff {s s' : Store} {op : Operation} (h : Change s op s')
    (code : String) :
    s'.records[code]?.isSome = true ↔
      s.records[code]?.isSome = true ∨ ∃ c, op = .insert c ∧ c.code = code := by
  cases h with
  | failed hop =>
    refine ⟨.inl, ?_⟩
    rintro (hstored | ⟨c, rfl, rfl⟩)
    · exact hstored
    · cases hop with
      | taken hstored => exact hstored
  | @inserted c hfree =>
    by_cases hcode : code = c.code
    · subst hcode
      simp
    · simp [getElem?_insert_of_ne s hcode, Ne.symm hcode]
  | marked => simp
  | rated => simp

/-- **A sequence of operations**: the codes that are stored afterwards. -/
theorem Reachable.isSome_getElem?_run_iff {s : Store} (h : s.Reachable)
    (ops : List Operation) (code : String) :
    (s.run ops).records[code]?.isSome = true ↔
      s.records[code]?.isSome = true ∨ ∃ c, .insert c ∈ ops ∧ c.code = code := by
  induction ops generalizing s with
  | nil => simp
  | cons op rest ih =>
    have hrun : s.run (op :: rest) = (s.perform op).run rest := rfl
    rw [hrun, ih (h.perform op), (h.keyed.change_perform op).isSome_getElem?_iff, or_assoc]
    refine or_congr_right ?_
    simp only [List.mem_cons, or_and_right, exists_or, eq_comm]

/-! ## 5. What a currency keeps -/

/-- `d` is what has become of `c`: its mark, its rate and the time of that may have
changed, and nothing else. -/
def Continues (c d : Currency) : Prop :=
  d = { c with favorite := d.favorite, rate := d.rate, updated := d.updated }

theorem Continues.refl (c : Currency) : Continues c c := rfl

theorem Continues.trans {c d e : Currency} (h : Continues c d) (h' : Continues d e) :
    Continues c e := by
  rw [Continues] at h h' ⊢
  rw [h', h]

theorem continues_marked (favorite : Bool) (c : Currency) :
    Continues c { c with favorite } := rfl

theorem continues_withRate (rate : Decimal) (time : Timestamp) (c : Currency) :
    Continues c (c.withRate rate time) := rfl

theorem Continues.code_eq {c d : Currency} (h : Continues c d) : d.code = c.code := by
  rw [h]

theorem continues_changeAt {code : String} {change : Currency → Currency}
    (h : ∀ c, Continues c (change c)) (c : Currency) : Continues c (changeAt code change c) := by
  rw [changeAt]
  split
  · exact h c
  · exact .refl c

/-- **One operation** lets no currency disappear. -/
theorem Change.exists_continues {s s' : Store} {op : Operation} (h : Change s op s')
    {code : String} {c : Currency} (hc : s.records[code]? = some c) :
    ∃ d, s'.records[code]? = some d ∧ Continues c d := by
  cases h with
  | failed hop => exact ⟨c, hc, .refl c⟩
  | @inserted c' hfree =>
    have hne : code ≠ c'.code := by
      rintro rfl
      simp [hfree] at hc
    exact ⟨c, by rw [getElem?_insert_of_ne s hne, hc], .refl c⟩
  | marked favorite =>
    exact ⟨_, getElem?_mapCurrencies_of_some hc _, continues_changeAt (continues_marked favorite) c⟩
  | rated time =>
    exact ⟨_, getElem?_mapCurrencies_of_some hc _, continues_changeAt (continues_withRate _ time) c⟩

/-- **A sequence of operations** lets no currency disappear. -/
theorem Reachable.exists_continues_run {s : Store} (h : s.Reachable) (ops : List Operation)
    {code : String} {c : Currency} (hc : s.records[code]? = some c) :
    ∃ d, (s.run ops).records[code]? = some d ∧ Continues c d := by
  induction ops generalizing s c with
  | nil => exact ⟨c, hc, .refl c⟩
  | cons op rest ih =>
    obtain ⟨d, hd, hcd⟩ := (h.keyed.change_perform op).exists_continues hc
    obtain ⟨e, he, hde⟩ := ih (h.perform op) hd
    exact ⟨e, he, hcd.trans hde⟩

end CurrencyPad.Store
