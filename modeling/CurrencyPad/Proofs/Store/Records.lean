/-
CurrencyPad.Proofs.Store.Records — the stores that can be met, and what
the operations make of them.

A store that can be met is `Keyed`: every currency is held under its own
code. To change the currency under a code is then to change every
currency whose code it is, and a sequence of changes is one function that
is mapped over all currencies (`mapCurrencies`). Nothing is added or
removed that way, so the listing and the codes of the result are read off
those of the store before.

Each operation has one lemma that says when it succeeds and what the
store is then: `Writing.insert_eq_ok_iff`, `Writing.setFavorite_eq_ok_iff`,
`Writing.saveRate_eq_ok_iff`. The lemmas after them say what its checks
come to, and that the store is not touched before the last of them.

A store is determined by the currencies that it holds (`Keyed.eq_of_mem_iff`),
so the order does not count in which currencies are inserted
(`exists_ofCurrencies`).
-/
import Mathlib.Data.List.Nodup
import Mathlib.Tactic.Tauto
import CurrencyPad.Store.Basic

namespace CurrencyPad.Store

/-! ## 1. Stores that can be met -/

/-- The stores that the operations make of the empty one. -/
inductive Reachable : Store → Prop
  | empty : Reachable empty
  | insert {s s' : Store} (c : Currency) :
      Reachable s → s.insert c = .ok s' → Reachable s'
  | setFavorite {s s' : Store} (code : String) (favorite : Bool) :
      Reachable s → s.setFavorite code favorite = .ok s' → Reachable s'
  | saveRate {s s' : Store} (code : String) (rate : Decimal) (time : Timestamp) :
      Reachable s → s.saveRate code rate time = .ok s' → Reachable s'

theorem Reachable.foldlM_insert {currencies : List Currency} {s s' : Store}
    (h : s.Reachable) (hfold : currencies.foldlM Store.insert s = .ok s') : s'.Reachable := by
  induction currencies generalizing s with
  | nil =>
    obtain rfl := Except.ok.inj hfold
    exact h
  | cons c rest ih =>
    rw [List.foldlM_cons] at hfold
    cases hinsert : s.insert c with
    | error e => simp [hinsert, bind, Except.bind] at hfold
    | ok t => exact ih (h.insert c hinsert) (by simpa [hinsert, bind, Except.bind] using hfold)

/-- A store that is built of some currencies can be met. -/
theorem reachable_ofCurrencies {currencies : List Currency} {s : Store}
    (h : ofCurrencies currencies = .ok s) : s.Reachable :=
  Reachable.empty.foldlM_insert h

/-- Every currency is held under its own code. -/
def Keyed (s : Store) : Prop :=
  ∀ (code : String) (c : Currency), s.records[code]? = some c → c.code = code

/-- Every stored code is valid and in upper case. -/
def Canonical (s : Store) : Prop := ∀ c ∈ s.all, canonicalCode? c.code = some c.code

instance (s : Store) : Decidable s.Canonical :=
  inferInstanceAs (Decidable (∀ c ∈ s.all, canonicalCode? c.code = some c.code))

theorem Keyed.mem_all_iff {s : Store} (h : s.Keyed) (c : Currency) :
    c ∈ s.all ↔ s.records[c.code]? = some c := by
  rw [all, List.mem_map]
  constructor
  · rintro ⟨⟨code, c'⟩, hmem, rfl⟩
    have hget := Std.ExtTreeMap.mem_toList_iff_getElem?_eq_some.mp hmem
    rwa [h code c' hget]
  · intro hget
    exact ⟨(c.code, c), Std.ExtTreeMap.mem_toList_iff_getElem?_eq_some.mpr hget, rfl⟩

/-- The codes of the listing are the keys, in their order. -/
theorem Keyed.codes_all {s : Store} (h : s.Keyed) :
    s.all.map (·.code) = s.records.keys := by
  rw [← Std.ExtTreeMap.map_fst_toList_eq_keys, all, List.map_map]
  refine List.map_congr_left fun ⟨code, c⟩ hmem => ?_
  exact h code c (Std.ExtTreeMap.mem_toList_iff_getElem?_eq_some.mp hmem)

/-- The keys are in ascending order. -/
theorem ascending_keys (s : Store) : s.records.keys.Pairwise (· < ·) :=
  s.records.ordered_keys.imp fun h => compareOfLessAndEq_eq_lt.mp h

/-- What is stored is listed. -/
theorem Keyed.mem_all_of_getElem? {s : Store} (h : s.Keyed) {code : String} {c : Currency}
    (hc : s.records[code]? = some c) : c ∈ s.all :=
  (h.mem_all_iff c).mpr (by rwa [h code c hc])

/-- What is listed is stored. -/
theorem Keyed.isSome_of_mem_all {s : Store} (h : s.Keyed) {c : Currency} (hc : c ∈ s.all) :
    s.records[c.code]?.isSome = true := by
  rw [(h.mem_all_iff c).mp hc, Option.isSome_some]

theorem Keyed.ascending_codes {s : Store} (h : s.Keyed) :
    (s.all.map (·.code)).Pairwise (· < ·) := by
  rw [h.codes_all]
  exact s.ascending_keys

theorem Keyed.nodup_codes {s : Store} (h : s.Keyed) : (s.all.map (·.code)).Nodup :=
  h.ascending_codes.imp fun hlt => String.ne_of_lt hlt

/-- The stored codes before and after one currency of the listing are those below and
above its own. -/
theorem Keyed.mem_codes_around {s : Store} (h : s.Keyed) {first rest : List Currency}
    {c : Currency} (hall : s.all = first ++ c :: rest) {code : String}
    (hcode : s.records[code]?.isSome) :
    (code ∈ first.map (·.code) ↔ code < c.code) ∧
      (code ∈ rest.map (·.code) ↔ c.code < code) := by
  have hascending := h.ascending_codes
  have hmem : code ∈ s.all.map (·.code) := by
    rwa [h.codes_all, Std.ExtTreeMap.mem_keys, Std.ExtTreeMap.mem_iff_isSome_getElem?]
  rw [hall, List.map_append, List.map_cons] at hascending hmem
  obtain ⟨-, hafter, hbefore⟩ := List.pairwise_append.mp hascending
  have hrest := (List.pairwise_cons.mp hafter).1
  have hfirst := fun k hk => hbefore k hk c.code (by simp)
  have hnot : code < c.code → ¬c.code < code := fun hlt hgt =>
    String.lt_irrefl code (String.lt_trans hlt hgt)
  refine ⟨⟨hfirst code, fun hlt => ?_⟩, hrest code, fun hgt => ?_⟩
  · rcases List.mem_append.mp hmem with hin | hin
    · exact hin
    · rcases List.mem_cons.mp hin with rfl | hin
      · exact absurd hlt (String.lt_irrefl _)
      · exact absurd (hrest code hin) (hnot hlt)
  · rcases List.mem_append.mp hmem with hin | hin
    · exact absurd hgt (hnot (hfirst code hin))
    · rcases List.mem_cons.mp hin with rfl | hin
      · exact absurd hgt (String.lt_irrefl _)
      · exact hin

/-! ## 2. Changing all currencies -/

/-- The store with each of its currencies changed. -/
def mapCurrencies (s : Store) (f : Currency → Currency) : Store :=
  ⟨s.records.map fun _ c => f c⟩

@[simp] theorem getElem?_mapCurrencies (s : Store) (f : Currency → Currency) (code : String) :
    (s.mapCurrencies f).records[code]? = s.records[code]?.map f :=
  Std.ExtTreeMap.getElem?_map

theorem getElem?_mapCurrencies_of_some {s : Store} {code : String} {c : Currency}
    (hc : s.records[code]? = some c) (f : Currency → Currency) :
    (s.mapCurrencies f).records[code]? = some (f c) := by
  rw [getElem?_mapCurrencies, hc, Option.map_some]

@[simp] theorem keys_mapCurrencies (s : Store) (f : Currency → Currency) :
    (s.mapCurrencies f).records.keys = s.records.keys :=
  Std.ExtTreeMap.keys_map

@[simp] theorem all_mapCurrencies (s : Store) (f : Currency → Currency) :
    (s.mapCurrencies f).all = s.all.map f := by
  simp [all, mapCurrencies, Std.ExtTreeMap.toList_map]

theorem mapCurrencies_mapCurrencies (s : Store) (f g : Currency → Currency) :
    (s.mapCurrencies f).mapCurrencies g = s.mapCurrencies (g ∘ f) := by
  simp only [mapCurrencies, Std.ExtTreeMap.map_map]
  rfl

theorem ext_getElem? {s t : Store}
    (h : ∀ code : String, s.records[code]? = t.records[code]?) : s = t := by
  obtain ⟨a⟩ := s
  obtain ⟨b⟩ := t
  exact congrArg Store.mk (Std.ExtTreeMap.ext_getElem? h)

/-- What stored currencies become is all that counts. -/
theorem mapCurrencies_congr {s : Store} {f g : Currency → Currency}
    (h : ∀ (code : String) (c : Currency), s.records[code]? = some c → f c = g c) :
    s.mapCurrencies f = s.mapCurrencies g := by
  refine ext_getElem? fun code => ?_
  rw [getElem?_mapCurrencies, getElem?_mapCurrencies]
  cases hget : s.records[code]? with
  | none => rfl
  | some c => exact congrArg some (h code c hget)

theorem mapCurrencies_id (s : Store) : s.mapCurrencies id = s :=
  ext_getElem? fun code => by simp

theorem Keyed.mapCurrencies {s : Store} (h : s.Keyed) {f : Currency → Currency}
    (hf : ∀ c, (f c).code = c.code) : (s.mapCurrencies f).Keyed := by
  intro code c hget
  rw [getElem?_mapCurrencies, Option.map_eq_some_iff] at hget
  obtain ⟨c', hget', rfl⟩ := hget
  rw [hf, h code c' hget']

theorem Canonical.mapCurrencies {s : Store} (h : s.Canonical) {f : Currency → Currency}
    (hf : ∀ c, (f c).code = c.code) : (s.mapCurrencies f).Canonical := by
  intro c hc
  rw [all_mapCurrencies, List.mem_map] at hc
  obtain ⟨c', hc', rfl⟩ := hc
  rw [hf, h c' hc']

theorem code_withRate (rate : Decimal) (time : Timestamp) (c : Currency) :
    (c.withRate rate time).code = c.code := rfl

/-! ## 3. The operations -/

/-- The function that changes the currency under one code and no other. -/
def changeAt (code : String) (change : Currency → Currency) (c : Currency) : Currency :=
  if c.code = code then change c else c

theorem code_changeAt {code : String} {change : Currency → Currency}
    (h : ∀ c, (change c).code = c.code) (c : Currency) :
    (changeAt code change c).code = c.code := by
  rw [changeAt]
  split
  · exact h c
  · rfl

/-- A currency is written after the check of its code. -/
theorem Writing.run_insert (s : Store) (c : Currency) :
    (Writing.insert c).run s =
      if s.records.contains c.code then .error (.duplicateCurrency c.code) s
      else .ok () ⟨s.records.insert c.code c⟩ := by
  simp only [Writing.insert, EStateM.run_bind, EStateM.run_get]
  split
  · rfl
  · rfl

theorem Writing.insert_eq_ok_iff {s s' : Store} {c : Currency} :
    (Writing.insert c).run s = .ok () s' ↔
      s.records[c.code]? = none ∧ s' = ⟨s.records.insert c.code c⟩ := by
  rw [Writing.run_insert]
  split <;> rename_i h
  · rw [Std.ExtTreeMap.contains_eq_isSome_getElem?] at h
    obtain ⟨d, hd⟩ := Option.isSome_iff_exists.mp h
    simp [hd]
  · rw [Std.ExtTreeMap.contains_eq_isSome_getElem?, Option.not_isSome_iff_eq_none] at h
    simp [h, eq_comm]

theorem getElem?_insert_self (s : Store) (c : Currency) :
    (Store.mk (s.records.insert c.code c)).records[c.code]? = some c :=
  Std.ExtTreeMap.getElem?_insert_self

theorem getElem?_insert_of_ne (s : Store) {c : Currency} {code : String} (h : code ≠ c.code) :
    (Store.mk (s.records.insert c.code c)).records[code]? = s.records[code]? := by
  rw [Std.ExtTreeMap.getElem?_insert, if_neg]
  exact fun hsame => h (Std.LawfulEqOrd.eq_of_compare hsame).symm

/-- A change is written after the look-up of the code. -/
theorem Writing.run_change (s : Store) (code : String) (missing : Error)
    (f : Currency → Currency) :
    (Writing.change code missing f).run s =
      match s.records[code]? with
      | some c => .ok () ⟨s.records.insert code (f c)⟩
      | none => .error missing s := by
  simp only [Writing.change, EStateM.run_bind, EStateM.run_get]
  cases s.records[code]? with
  | none => rfl
  | some c => rfl

/-- To change the currency under a code is to change all whose code it is. -/
theorem Writing.change_eq_ok_iff {s s' : Store} (h : s.Keyed) {code : String} {missing : Error}
    {f : Currency → Currency} :
    (Writing.change code missing f).run s = .ok () s' ↔
      s.records[code]?.isSome ∧ s' = s.mapCurrencies (changeAt code f) := by
  rw [Writing.run_change]
  split
  · rename_i c hget
    have hmap : Store.mk (s.records.insert code (f c)) = s.mapCurrencies (changeAt code f) := by
      refine ext_getElem? fun k => ?_
      rw [getElem?_mapCurrencies, Std.ExtTreeMap.getElem?_insert]
      split
      · rename_i hk
        obtain rfl := Std.LawfulEqOrd.eq_of_compare hk
        simp [hget, changeAt, h _ _ hget]
      · rename_i hk
        cases hget' : s.records[k]? with
        | none => rfl
        | some d =>
          -- another key holds another code
          have hne : d.code ≠ code := by
            rintro rfl
            exact hk (by rw [h k d hget']; exact Std.ReflOrd.compare_self)
          simp [changeAt, hne]
    simp [hget, hmap, eq_comm]
  · rename_i hget
    simp [hget]

/-! The checks of the code and of the rate do not touch the store. -/

theorem Writing.setFavorite_of_canonical (s : Store) {code canonical : String} (favorite : Bool)
    (hcode : canonicalCode? code = some canonical) :
    (Writing.setFavorite code favorite).run s =
      (Writing.change canonical (.currencyNotFound canonical) ({ · with favorite })).run s := by
  rw [Writing.setFavorite, canonicalCode, hcode]
  rfl

theorem Writing.setFavorite_of_noCode (s : Store) {code : String} (favorite : Bool)
    (hcode : canonicalCode? code = none) :
    (Writing.setFavorite code favorite).run s = .error (.invalidCurrencyCode code) s := by
  rw [Writing.setFavorite, canonicalCode, hcode]
  rfl

theorem Writing.saveRate_of_canonical (s : Store) {code canonical : String} {rate : Decimal}
    (time : Timestamp) (hrate : rate.isNegative = false)
    (hcode : canonicalCode? code = some canonical) :
    (Writing.saveRate code rate time).run s =
      (Writing.change canonical (.save ("unknown currency " ++ canonical))
        (·.withRate rate time)).run s := by
  rw [Writing.saveRate, canonicalCode, hcode, hrate]
  rfl

theorem Writing.saveRate_of_noCode (s : Store) {code : String} {rate : Decimal} (time : Timestamp)
    (hrate : rate.isNegative = false) (hcode : canonicalCode? code = none) :
    (Writing.saveRate code rate time).run s = .error (.invalidCurrencyCode code) s := by
  rw [Writing.saveRate, canonicalCode, hcode, hrate]
  rfl

/-- A rate below zero is refused, whatever the code. -/
theorem Writing.saveRate_of_isNegative (s : Store) (code : String) {rate : Decimal}
    (time : Timestamp) (h : rate.isNegative = true) :
    (Writing.saveRate code rate time).run s = .error (.invalidRate code rate.text) s := by
  rw [Writing.saveRate, h]
  rfl

theorem Writing.setFavorite_eq_ok_iff {s s' : Store} (h : s.Keyed) {code : String}
    {favorite : Bool} :
    (Writing.setFavorite code favorite).run s = .ok () s' ↔
      ∃ canonical, canonicalCode? code = some canonical ∧ s.records[canonical]?.isSome ∧
        s' = s.mapCurrencies (changeAt canonical ({ · with favorite })) := by
  cases hcode : canonicalCode? code with
  | none => simp [Writing.setFavorite_of_noCode s favorite hcode]
  | some canonical =>
    rw [Writing.setFavorite_of_canonical s favorite hcode, Writing.change_eq_ok_iff h]
    simp

theorem Writing.saveRate_eq_ok_iff {s s' : Store} (h : s.Keyed) {code : String}
    {rate : Decimal} {time : Timestamp} :
    (Writing.saveRate code rate time).run s = .ok () s' ↔ rate.isNegative = false ∧
      ∃ canonical, canonicalCode? code = some canonical ∧ s.records[canonical]?.isSome ∧
        s' = s.mapCurrencies (changeAt canonical (·.withRate rate time)) := by
  cases hrate : rate.isNegative with
  | true => simp [Writing.saveRate_of_isNegative s code time hrate]
  | false =>
    cases hcode : canonicalCode? code with
    | none => simp [Writing.saveRate_of_noCode s time hrate hcode]
    | some canonical =>
      rw [Writing.saveRate_of_canonical s time hrate hcode, Writing.change_eq_ok_iff h]
      simp

/-! What an operation makes of a store is what is there when it has succeeded. -/

theorem Writing.outcome_eq_ok_iff {w : Writing} {s s' : Store} :
    w.outcome s = .ok s' ↔ w.run s = .ok () s' := by
  rw [Writing.outcome]
  cases w.run s with
  | ok a t => simp
  | error e t => simp

theorem insert_eq_ok_iff {s s' : Store} {c : Currency} :
    s.insert c = .ok s' ↔
      s.records[c.code]? = none ∧ s' = ⟨s.records.insert c.code c⟩ :=
  Writing.outcome_eq_ok_iff.trans Writing.insert_eq_ok_iff

theorem Keyed.setFavorite_eq_ok_iff {s s' : Store} (h : s.Keyed) {code : String}
    {favorite : Bool} :
    s.setFavorite code favorite = .ok s' ↔ ∃ canonical, canonicalCode? code = some canonical ∧
      s.records[canonical]?.isSome ∧
      s' = s.mapCurrencies (changeAt canonical ({ · with favorite })) :=
  Writing.outcome_eq_ok_iff.trans (Writing.setFavorite_eq_ok_iff h)

theorem Keyed.saveRate_eq_ok_iff {s s' : Store} (h : s.Keyed) {code : String}
    {rate : Decimal} {time : Timestamp} :
    s.saveRate code rate time = .ok s' ↔ rate.isNegative = false ∧
      ∃ canonical, canonicalCode? code = some canonical ∧ s.records[canonical]?.isSome ∧
        s' = s.mapCurrencies (changeAt canonical (·.withRate rate time)) :=
  Writing.outcome_eq_ok_iff.trans (Writing.saveRate_eq_ok_iff h)

/-! ## 4. Operations that fail -/

theorem Writing.insert_eq_error_iff {s s' : Store} {c : Currency} {e : Error} :
    (Writing.insert c).run s = .error e s' ↔
      s.records[c.code]?.isSome = true ∧ e = .duplicateCurrency c.code ∧ s' = s := by
  rw [Writing.run_insert, Std.ExtTreeMap.contains_eq_isSome_getElem?]
  split
  · rename_i hstored
    simp [hstored, eq_comm]
  · rename_i hfree
    simp [hfree]

theorem Writing.change_eq_error_iff {s s' : Store} {code : String} {missing e : Error}
    {f : Currency → Currency} :
    (Writing.change code missing f).run s = .error e s' ↔
      s.records[code]? = none ∧ e = missing ∧ s' = s := by
  rw [Writing.run_change]
  split
  · rename_i c hget
    simp [hget]
  · rename_i hget
    simp [hget, eq_comm]

/-! ## 5. What every operation keeps -/

theorem Keyed.insert {s : Store} (h : s.Keyed) (c : Currency) :
    (Store.mk (s.records.insert c.code c)).Keyed := by
  intro code d hget
  by_cases hcode : code = c.code
  · subst hcode
    rw [getElem?_insert_self] at hget
    obtain rfl := Option.some.inj hget
    rfl
  · rw [getElem?_insert_of_ne s hcode] at hget
    exact h code d hget

theorem Canonical.insert {s : Store} (h : s.Canonical) (hkeyed : s.Keyed) {c : Currency}
    (hc : canonicalCode? c.code = some c.code) :
    (Store.mk (s.records.insert c.code c)).Canonical := by
  intro d hd
  rw [(hkeyed.insert c).mem_all_iff] at hd
  by_cases hcode : d.code = c.code
  · rw [hcode, hc]
  · rw [getElem?_insert_of_ne s hcode] at hd
    exact h d ((hkeyed.mem_all_iff d).mpr hd)

/-- **Every currency is held under its own code**, in every store that can be met. -/
theorem Reachable.keyed {s : Store} (h : s.Reachable) : s.Keyed := by
  induction h with
  | empty =>
    intro code c hget
    simp [Store.empty] at hget
  | insert c _ hins ih =>
    obtain ⟨-, rfl⟩ := insert_eq_ok_iff.mp hins
    exact ih.insert c
  | setFavorite code favorite _ hset ih =>
    obtain ⟨canonical, -, -, rfl⟩ := ih.setFavorite_eq_ok_iff.mp hset
    exact ih.mapCurrencies (code_changeAt fun _ => rfl)
  | saveRate code rate time _ hsave ih =>
    obtain ⟨-, canonical, -, -, rfl⟩ := ih.saveRate_eq_ok_iff.mp hsave
    exact ih.mapCurrencies (code_changeAt (code_withRate rate time))

/-! ## 6. Stores that are built by insertions -/

section

variable {s s' : Store} {c : Currency}

/-- **An insertion** adds one currency. -/
theorem Keyed.mem_all_insert_iff (h : s.Keyed) (hfree : s.records[c.code]? = none)
    {c' : Currency} :
    c' ∈ (Store.mk (s.records.insert c.code c)).all ↔ c' = c ∨ c' ∈ s.all := by
  rw [(h.insert c).mem_all_iff, h.mem_all_iff]
  by_cases hcode : c'.code = c.code
  · rw [hcode, getElem?_insert_self, hfree]
    simp [eq_comm]
  · have hne : c' ≠ c := fun heq => hcode (congrArg Currency.code heq)
    rw [getElem?_insert_of_ne s hcode, or_iff_right hne]

/-- Currencies under different codes that are free are all inserted. -/
theorem Keyed.exists_foldlM_insert {cs : List Currency} (h : s.Keyed)
    (hcodes : (cs.map (·.code)).Nodup) (hfree : ∀ c ∈ cs, s.records[c.code]? = none) :
    ∃ s', cs.foldlM Store.insert s = .ok s' ∧ s'.Keyed ∧ ∀ c, c ∈ s'.all ↔ c ∈ cs ∨ c ∈ s.all := by
  induction cs generalizing s with
  | nil => exact ⟨s, rfl, h, by simp⟩
  | cons c rest ih =>
    obtain ⟨hc, hrest⟩ := List.forall_mem_cons.mp hfree
    obtain ⟨hnew, hcodes⟩ := List.nodup_cons.mp (List.map_cons ▸ hcodes)
    have hinsert : s.insert c = .ok ⟨s.records.insert c.code c⟩ := insert_eq_ok_iff.mpr ⟨hc, rfl⟩
    have hstill : ∀ c' ∈ rest, (Store.mk (s.records.insert c.code c)).records[c'.code]? = none := by
      intro c' hc'
      have hne : c'.code ≠ c.code := fun heq => hnew (heq ▸ List.mem_map_of_mem hc')
      rw [getElem?_insert_of_ne s hne, hrest c' hc']
    obtain ⟨s', hfold, hkeyed, hmem⟩ := ih (h.insert c) hcodes hstill
    refine ⟨s', ?_, hkeyed, fun c' => ?_⟩
    · rw [List.foldlM_cons, hinsert]
      exact hfold
    · rw [hmem, h.mem_all_insert_iff hc, List.mem_cons]
      tauto

/-- Stores with the same currencies are one. -/
theorem Keyed.eq_of_mem_iff (h : s.Keyed) (h' : s'.Keyed)
    (hmem : ∀ c, c ∈ s.all ↔ c ∈ s'.all) : s = s' := by
  have hrecord {t : Store} (ht : t.Keyed) (code : String) (c : Currency) :
      t.records[code]? = some c ↔ c.code = code ∧ c ∈ t.all := by
    constructor
    · exact fun hc => ⟨ht code c hc, ht.mem_all_of_getElem? hc⟩
    · rintro ⟨rfl, hc⟩
      exact (ht.mem_all_iff c).mp hc
  refine ext_getElem? fun code => Option.ext fun c => ?_
  rw [hrecord h, hrecord h', hmem]

/-- **The order of insertions** does not count. -/
theorem exists_ofCurrencies {cs cs' : List Currency} (hperm : cs.Perm cs')
    (hcodes : (cs.map (·.code)).Nodup) :
    ∃ s, ofCurrencies cs = .ok s ∧ ofCurrencies cs' = .ok s ∧ s.all.Perm cs := by
  have hempty : empty.Keyed := Reachable.empty.keyed
  have hfree (c : Currency) : empty.records[c.code]? = none := by simp [empty]
  have hcodes' : (cs'.map (·.code)).Nodup := (hperm.map _).nodup_iff.mp hcodes
  obtain ⟨s, hs, hkeyed, hmem⟩ := hempty.exists_foldlM_insert hcodes fun c _ => hfree c
  obtain ⟨s', hs', hkeyed', hmem'⟩ := hempty.exists_foldlM_insert hcodes' fun c _ => hfree c
  have hsame : s = s' := hkeyed.eq_of_mem_iff hkeyed' fun c => by
    rw [hmem, hmem', hperm.mem_iff]
  refine ⟨s, hs, hsame ▸ hs', ?_⟩
  refine (List.perm_ext_iff_of_nodup (hkeyed.nodup_codes.of_map _) (hcodes.of_map _)).mpr
    fun c => ?_
  rw [hmem, or_iff_left]
  simp [all, empty]

end

end CurrencyPad.Store
