/-
CurrencyPad.Proofs.Rates.Decoding — the table of an answer has its rates
and no others.

An answer that does not report success, or is relative to another base, is
refused before its rates are looked at. The rates of one that is accepted
must all be decimals; if one is not, the error names such a rate. If all
are, and no two keys are spellings of one code, then the table has every
rate that is not below zero under the code that its key spells, and
nothing else (`decodes_toTableBy`).

The entries may be visited in any order. When their keys spell different
codes it decides neither which rates a table has
(`SpelledOnce.getElem?_ofEntries_iff`) nor how many
(`SpelledOnce.size_ofEntries`).
-/
import CurrencyPad.Proofs.Rates.VisitingOrder

namespace CurrencyPad.RateResponse

open RateTable (SpelledOnce)

/-! ## 1. The rates of an answer -/

/-- The entry has a rate that a table takes. -/
def isKept (e : WireEntry) : Bool := e.2.decimal?.any RateTable.accepts

/-- The table has the rates of the entries that are not below zero, and no others. -/
structure HasRates (t : RateTable) (entries : List WireEntry) : Prop where
  rates : ∀ code d, t.get? code = some d ↔
    ∃ e ∈ entries, Text.normalize e.1 = Text.normalize code ∧ e.2.decimal? = some d ∧
      d.isNegative = false
  size : t.size = entries.countP isKept

theorem countP_decimals (entries : List WireEntry) :
    (entries.filterMap decimalOf?).countP (RateTable.accepts ·.2) = entries.countP isKept := by
  rw [List.countP_filterMap]
  refine List.countP_congr fun e _ => ?_
  cases hd : e.2.decimal? <;> simp [decimalOf?, isKept, hd]

/-- **Entries under different codes** give a table their rates. -/
theorem hasRates_ofEntries {entries order : List WireEntry} (h : SpelledOnce entries)
    (horder : order.Perm entries) :
    HasRates (RateTable.ofEntries (order.filterMap decimalOf?)) entries := by
  have honce : SpelledOnce order := h.perm horder.symm
  constructor
  case rates =>
    intro code d
    rw [RateTable.get?]
    refine honce.getElem?_ofEntries_iff.trans ?_
    simp only [horder.mem_iff]
  case size =>
    have hsize := (honce.filterMap WireRate.decimal?).size_ofEntries
    rw [← horder.countP_eq, ← countP_decimals]
    exact hsize

/-- An entry that is no decimal is named, if there is one. -/
theorem exists_tableOf_eq_error {entries order : List WireEntry} (horder : order.Perm entries)
    (h : ∃ e ∈ entries, e.2.decimal? = none) :
    ∃ e ∈ entries, e.2.decimal? = none ∧ (tableOf order).1 = .error (notDecimal e.1 e.2) := by
  obtain ⟨e, he, hnone⟩ := h
  have hfound : (order.find? isUndecodable).isSome = true :=
    List.find?_isSome.mpr ⟨e, horder.mem_iff.mpr he, isUndecodable_iff.mpr hnone⟩
  obtain ⟨e', he'⟩ := Option.isSome_iff_exists.mp hfound
  exact ⟨e', horder.mem_iff.mp (List.mem_of_find?_eq_some he'),
    isUndecodable_iff.mp (List.find?_some he'), tableOf_of_find? he'⟩

/-! ## 2. Answers -/

/-- What an answer that is expected to be relative to `base` leads to. -/
structure Decodes (r : RateResponse) (base : String) (result : Except FetchError RateTable) :
    Prop where
  failed : r.result ≠ "success" →
    result = .error (.invalidResponse (r.errorType.getD ("result was '" ++ r.result ++ "'")))
  otherBase : r.result = "success" → Text.sameIgnoringCase r.base base = false →
    result = .error (.invalidResponse ("expected base " ++ base ++ " but received " ++ r.base))
  decodes : r.Accepted base → SpelledOnce r.rates.toList →
    (∀ e ∈ r.rates.toList, e.2.decimal? ≠ none) →
    ∃ t, result = .ok t ∧ HasRates t r.rates.toList
  undecodable : r.Accepted base → (∃ e ∈ r.rates.toList, e.2.decimal? = none) →
    ∃ e ∈ r.rates.toList, e.2.decimal? = none ∧ result = .error (notDecimal e.1 e.2)

/-- **Decoding an answer**, its entries visited in any order. -/
theorem decodes_toTableBy (r : RateResponse) (base : String) {order : List WireEntry}
    (horder : order.Perm r.rates.toList) : Decodes r base (r.toTableBy order base).1 where
  failed hresult := by
    rw [toTableBy, if_pos hresult]
  otherBase hresult hbase := by
    rw [toTableBy, if_neg (not_not.mpr hresult), if_pos (by rw [hbase, Bool.not_false])]
  decodes haccepted honce hdecimals := by
    rw [toTableBy_of_accepted haccepted]
    exact ⟨_, tableOf_of_decimals hdecimals horder, hasRates_ofEntries honce horder⟩
  undecodable haccepted hsome := by
    rw [toTableBy_of_accepted haccepted]
    exact exists_tableOf_eq_error horder hsome

/-- Codes with blanks and in lower case, and a rate below zero. -/
def mixedRates : RateResponse where
  result := "success"
  base := "usd"
  rates := Std.ExtTreeMap.ofList
    [(" eur", WireRate.finite (1 / 2)), ("GBP", WireRate.finite (-3 / 4)),
      ("jpy", WireRate.finite 150)]

/-- The rate below zero is left out, the others are found. -/
theorem decodes_mixedRates :
    ∃ t, (mixedRates.toTableBy mixedRates.rates.toList.reverse "USD").1 = .ok t ∧
      t.get? "Eur" = some { coeff := 5, scale := 1 } ∧ t.get? "gbp" = none ∧ t.size = 2 := by
  have hdecodes := decodes_toTableBy mixedRates "USD" (List.reverse_perm _)
  obtain ⟨t, ht, hrates⟩ := hdecodes.decodes ⟨rfl, by decide⟩
    (by unfold SpelledOnce; decide +kernel) (by decide +kernel)
  refine ⟨t, ht, ?_, ?_, ?_⟩
  · exact (hrates.rates _ _).mpr
      ⟨(" eur", .finite (1 / 2)), by decide +kernel, by decide, by decide +kernel, rfl⟩
  · -- the one entry under this code is below zero
    refine Option.eq_none_iff_forall_ne_some.mpr fun d hd => ?_
    obtain ⟨e, he, hcode, hdecimal, hsign⟩ := (hrates.rates _ _).mp hd
    have hbelow : ∀ e ∈ mixedRates.rates.toList, Text.normalize e.1 = Text.normalize "gbp" →
        e.2.decimal?.all Decimal.isNegative = true := by decide +kernel
    simpa [hdecimal, hsign] using hbelow e he hcode
  · rw [hrates.size]
    decide +kernel

end CurrencyPad.RateResponse
