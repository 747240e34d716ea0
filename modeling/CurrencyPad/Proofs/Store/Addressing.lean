/-
CurrencyPad.Proofs.Store.Addressing — which currencies can be reached by
their codes.

A store is meant to hold one currency for each code, and to find it by
that code. It keeps a currency under its code as it is written there, and
looks codes up in the canonical spelling. A currency that was inserted
under any other text is stored, but to ask for that text is to ask for
another record, or for none; and another currency can then be stored
beside it whose code is only spelled differently.

`onePerCode_iff` says that this is the exact condition, for whole
sequences of operations: the currencies that were inserted can be reached,
and no two of them have spellings of one code, exactly when all of them
were to be inserted under canonical codes.
-/
import CurrencyPad.Proofs.Currency.Code
import CurrencyPad.Proofs.Store.Operations

namespace CurrencyPad.Store

/-! ## 1. Currencies that can be reached -/

/-- The record of `c` has become that of `d`, and no other record has changed. -/
structure Replaces (s s' : Store) (c d : Currency) : Prop where
  record : s'.records[c.code]? = some d
  others : ∀ code, code ≠ c.code → s'.records[code]? = s.records[code]?

/-- The currency is found by its code, and what is changed by its code is its record. -/
structure Addressed (s : Store) (c : Currency) : Prop where
  get : s.get c.code = .ok (some c)
  setFavorite : ∀ favorite, ∃ s', s.setFavorite c.code favorite = .ok s' ∧
    Replaces s s' c { c with favorite }
  saveRate : ∀ (rate : Decimal) (time : Timestamp), rate.isNegative = false →
    ∃ s', s.saveRate c.code rate time = .ok s' ∧
      Replaces s s' c { c with rate := some rate, updated := some time }

theorem get_of_canonical (s : Store) {code canonical : String}
    (h : canonicalCode? code = some canonical) : s.get code = .ok s.records[canonical]? := by
  rw [get, canonicalCode, h]
  rfl

theorem canonical_of_get_eq_some {s : Store} {code : String} {c : Currency}
    (h : s.get code = .ok (some c)) :
    ∃ canonical, canonicalCode? code = some canonical ∧ s.records[canonical]? = some c := by
  cases hcode : canonicalCode? code with
  | none => simp [get, canonicalCode, hcode, bind, Except.bind] at h
  | some canonical =>
    rw [get_of_canonical s hcode] at h
    exact ⟨canonical, rfl, Except.ok.inj h⟩

/-- To change the currencies under the code of one is to replace its record. -/
theorem Keyed.replaces_changeAt {s : Store} (h : s.Keyed) {c : Currency}
    (hc : s.records[c.code]? = some c) (change : Currency → Currency) :
    Replaces s (s.mapCurrencies (changeAt c.code change)) c (change c) where
  record := by rw [getElem?_mapCurrencies_of_some hc, changeAt, if_pos rfl]
  others := by
    intro code hne
    rw [getElem?_mapCurrencies]
    cases hget : s.records[code]? with
    | none => rfl
    | some d =>
      have hcode : d.code ≠ c.code := by rwa [h code d hget]
      rw [Option.map_some, changeAt, if_neg hcode]

/-- **A stored currency** can be reached exactly when its code is canonical. -/
theorem Keyed.addressed_iff {s : Store} (h : s.Keyed) {c : Currency}
    (hc : s.records[c.code]? = some c) :
    Addressed s c ↔ canonicalCode? c.code = some c.code := by
  constructor
  · intro haddressed
    obtain ⟨canonical, hcode, hget⟩ := canonical_of_get_eq_some haddressed.get
    -- what is found is held under the code that was looked up
    rw [hcode, h canonical c hget]
  · intro hcode
    have hstored : s.records[c.code]?.isSome = true := by rw [hc, Option.isSome_some]
    exact
      { get := by rw [get_of_canonical s hcode, hc]
        setFavorite := fun favorite =>
          ⟨_, h.setFavorite_eq_ok_iff.mpr ⟨c.code, hcode, hstored, rfl⟩,
            h.replaces_changeAt hc _⟩
        saveRate := fun rate time hrate =>
          ⟨_, h.saveRate_eq_ok_iff.mpr ⟨hrate, c.code, hcode, hstored, rfl⟩,
            h.replaces_changeAt hc _⟩ }

/-! ## 2. Sequences of operations -/

/-- One currency for each code, and it can be reached: what has become of each currency
that was inserted along the way, and the codes that are stored at the end. -/
structure OnePerCode (ops : List Operation) : Prop where
  reached : ∀ first c rest s', ops = first ++ .insert c :: rest →
    (empty.run first).insert c = .ok s' →
    ∃ d, (empty.run ops).records[c.code]? = some d ∧ Continues c d ∧
      Addressed (empty.run ops) d
  /-- No two stored codes are the same without case and the blanks around them. -/
  distinct : ∀ code code', (empty.run ops).records[code]?.isSome = true →
    (empty.run ops).records[code']?.isSome = true →
    Text.normalize code = Text.normalize code' → code = code'

theorem reachable_run (ops : List Operation) : (empty.run ops).Reachable :=
  Reachable.empty.run ops

theorem isSome_getElem?_run_iff (ops : List Operation) (code : String) :
    (empty.run ops).records[code]?.isSome = true ↔
      ∃ c, .insert c ∈ ops ∧ c.code = code := by
  rw [Reachable.empty.isSome_getElem?_run_iff]
  simp [empty]

/-- A code that is stored was inserted at some point. -/
theorem exists_insert_of_isSome {ops : List Operation} {code : String}
    (h : (empty.run ops).records[code]?.isSome = true) :
    ∃ first c rest s', ops = first ++ .insert c :: rest ∧
      (empty.run first).insert c = .ok s' ∧ c.code = code := by
  induction ops using List.reverseRecOn with
  | nil => simp [empty] at h
  | append_singleton ops op ih =>
    by_cases hbefore : (empty.run ops).records[code]?.isSome = true
    · obtain ⟨first, c, rest, s', rfl, hinsert, hcode⟩ := ih hbefore
      exact ⟨first, c, rest ++ [op], s', by simp, hinsert, hcode⟩
    · rw [run_concat] at h
      have hchange := (reachable_run ops).keyed.change_perform op
      rcases (hchange.isSome_getElem?_iff code).mp h with hstored | ⟨c, rfl, rfl⟩
      · exact absurd hstored hbefore
      · refine ⟨ops, c, [], _, rfl, insert_eq_ok_iff.mpr ⟨?_, rfl⟩, rfl⟩
        simpa using hbefore

/-- What was inserted is still there at the end, and has changed in its mark and its
rate only. -/
theorem exists_continues_of_insert {first : List Operation} {c : Currency} {s' : Store}
    (hinsert : (empty.run first).insert c = .ok s') (rest : List Operation) :
    ∃ d, (empty.run (first ++ .insert c :: rest)).records[c.code]? = some d ∧
      Continues c d := by
  have hrun : empty.run (first ++ .insert c :: rest) = s'.run rest := by
    rw [run_append]
    exact congrArg (run · rest) (perform_of_ok (Writing.outcome_eq_ok_iff.mp hinsert))
  obtain ⟨-, rfl⟩ := insert_eq_ok_iff.mp hinsert
  rw [hrun]
  exact ((reachable_run first).insert c hinsert).exists_continues_run rest
    (getElem?_insert_self _ c)

/-- **One currency for each code, and it can be reached**: this holds exactly when all
currencies were to be inserted under canonical codes. -/
theorem onePerCode_iff (ops : List Operation) :
    OnePerCode ops ↔ ∀ c, .insert c ∈ ops → canonicalCode? c.code = some c.code := by
  have hkeyed := (reachable_run ops).keyed
  constructor
  · intro h c hc
    obtain ⟨first, c', rest, s', hops, hinsert, hcode⟩ :=
      exists_insert_of_isSome ((isSome_getElem?_run_iff ops c.code).mpr ⟨c, hc, rfl⟩)
    obtain ⟨d, hd, hcontinues, haddressed⟩ := h.reached first c' rest s' hops hinsert
    rw [hcode, ← hkeyed _ d hd] at hd
    have := (hkeyed.addressed_iff hd).mp haddressed
    rwa [hcontinues.code_eq, hcode] at this
  · intro h
    have hcanonical : ∀ code, (empty.run ops).records[code]?.isSome = true →
        canonicalCode? code = some code := by
      intro code hcode
      obtain ⟨c, hc, rfl⟩ := (isSome_getElem?_run_iff ops code).mp hcode
      exact h c hc
    constructor
    · rintro first c rest s' rfl hinsert
      obtain ⟨d, hd, hcontinues⟩ := exists_continues_of_insert hinsert rest
      have hcode := hcanonical c.code (by rw [hd, Option.isSome_some])
      refine ⟨d, hd, hcontinues, (hkeyed.addressed_iff ?_).mpr ?_⟩
      · rwa [hcontinues.code_eq]
      · rwa [hcontinues.code_eq]
    · intro code code' hcode hcode' hsame
      rwa [(canonicalCode?_eq_some_iff.mp (hcanonical code hcode)).2,
        (canonicalCode?_eq_some_iff.mp (hcanonical code' hcode')).2] at hsame

/-- A currency under a code in lower case. -/
def lowerCaseOps : List Operation := [.insert { code := "usd" }]

theorem not_onePerCode : ¬∀ ops, OnePerCode ops := by
  intro hall
  obtain ⟨d, hd, hcontinues, haddressed⟩ :=
    (hall lowerCaseOps).reached [] { code := "usd" } [] _ rfl rfl
  rw [← hcontinues.code_eq] at hd
  have hcanonical := ((reachable_run lowerCaseOps).keyed.addressed_iff hd).mp haddressed
  rw [hcontinues.code_eq] at hcanonical
  revert hcanonical
  decide +kernel

end CurrencyPad.Store
