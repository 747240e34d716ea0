/-
CurrencyPad.Proofs.Rates.VisitingOrder — whether the order counts in which
the entries of an answer are visited.

An answer holds its entries in no order, and a table is made of them one
by one. Of two entries that are spellings of one code the later one
counts, and of two that are no decimals the earlier one is named in the
error. So the order counts unless the entries leave no choice
(`Unambiguous`), or unless the answer is refused before they are looked at;
`orderFree_iff` says that this is the exact condition.

## How the proof goes

* `tableOf_of_decimals` and `tableOf_of_find?` say what a sequence of
  entries leads to: a table, if all of them are decimals, and otherwise the
  error of the first that is none.
* All orders have the same members. Where these leave no choice, each code
  has the same number in the two tables (`Unambiguous.sameResult`).
* Where they do, one order is made that visits the one entry first, or
  last, and one that does so with the other entry. The error of an entry
  names its code and no other (`notDecimal_inj`).
-/
import CurrencyPad.Proofs.Rates.Table
import CurrencyPad.Rates.Response

namespace CurrencyPad

/-! ## 1. Results -/

/-- The same table, rates compared as numbers, or the same error. -/
def SameResult : Except FetchError RateTable → Except FetchError RateTable → Prop
  | .ok t, .ok t' => t.same t' = true
  | .error e, .error e' => e = e'
  | .ok _, .error _ | .error _, .ok _ => False

instance : DecidableRel SameResult
  | .ok t, .ok t' => inferInstanceAs (Decidable (t.same t' = true))
  | .error e, .error e' => inferInstanceAs (Decidable (e = e'))
  | .ok _, .error _ | .error _, .ok _ => inferInstanceAs (Decidable False)

theorem SameResult.refl (result : Except FetchError RateTable) : SameResult result result := by
  cases result with
  | error e => exact rfl
  | ok t => exact RateTable.same_iff.mpr fun _ => rfl

namespace RateResponse

/-! ## 2. What entries lead to -/

/-- The entry with its decimal, if it has one. -/
def decimalOf? (e : WireEntry) : Option RateEntry := e.2.decimal?.map (e.1, ·)

/-- The entry is no decimal. -/
def isUndecodable (e : WireEntry) : Bool := e.2.decimal?.isNone

theorem isUndecodable_iff {e : WireEntry} : isUndecodable e = true ↔ e.2.decimal? = none := by
  simp [isUndecodable]

theorem failed_decimalEntries (entries : List WireEntry) :
    (decimalEntries entries).2 = entries.find? isUndecodable := by
  induction entries with
  | nil => rfl
  | cons e rest ih =>
    obtain ⟨code, x⟩ := e
    unfold decimalEntries
    cases hx : x.decimal? with
    | none => simp [isUndecodable, hx]
    | some d => simp [isUndecodable, hx, ih]

theorem decimals_decimalEntries {entries : List WireEntry}
    (h : ∀ e ∈ entries, e.2.decimal? ≠ none) :
    (decimalEntries entries).1 = entries.filterMap decimalOf? := by
  induction entries with
  | nil => rfl
  | cons e rest ih =>
    obtain ⟨code, x⟩ := e
    have hrest := ih fun e he => h e (List.mem_cons_of_mem _ he)
    unfold decimalEntries
    cases hx : x.decimal? with
    | none => exact absurd hx (h (code, x) List.mem_cons_self)
    | some d => simp [decimalOf?, hx, hrest]

/-- Entries that are all decimals make a table, in any order. -/
theorem tableOf_of_decimals {entries order : List WireEntry}
    (h : ∀ e ∈ entries, e.2.decimal? ≠ none) (horder : order.Perm entries) :
    (tableOf order).1 = .ok (RateTable.ofEntries (order.filterMap decimalOf?)) := by
  have hdecimals : ∀ e ∈ order, e.2.decimal? ≠ none := fun e he => h e (horder.mem_iff.mp he)
  have hfailed : (decimalEntries order).2 = none := by
    rw [failed_decimalEntries, List.find?_eq_none]
    intro e he hnone
    exact hdecimals e he (isUndecodable_iff.mp hnone)
  simp only [tableOf, hfailed, decimals_decimalEntries hdecimals]

/-- The first entry that is no decimal is named. -/
theorem tableOf_of_find? {entries : List WireEntry} {e : WireEntry}
    (h : entries.find? isUndecodable = some e) :
    (tableOf entries).1 = .error (notDecimal e.1 e.2) := by
  have hfailed : (decimalEntries entries).2 = some e := by
    rw [failed_decimalEntries, h]
  simp only [tableOf, hfailed]

/-! ## 3. Errors -/

/-- A spelling is written without spaces. -/
theorem space_notMem_positional (n : Binary.Spelling) : ' ' ∉ n.positional := by
  have hdigits (k : Nat) : ' ' ∉ Text.digits k := fun h => by
    cases Text.isDigit_of_mem_digits h
  have hpadded (w k : Nat) : ' ' ∉ Text.padded w k := fun h => by
    cases Text.isDigit_of_mem_padded h
  unfold Binary.Spelling.positional
  split
  · exact hdigits _
  · simp [hdigits, hpadded]

theorem space_notMem_plainChars (x : Rat) : ' ' ∉ Binary.plainChars x := by
  unfold Binary.plainChars
  split
  · decide
  · split
    · simp [space_notMem_positional]
    · exact space_notMem_positional _

theorem space_notMem_chars (x : WireRate) : ' ' ∉ x.chars := by
  cases x with
  | finite x => exact space_notMem_plainChars x
  | infinite negative => cases negative <;> decide
  | notANumber => decide

/-- What stands before the last space of a text. -/
theorem append_space_inj {xs xs' ys ys' : List Char} (hys : ' ' ∉ ys) (hys' : ' ' ∉ ys')
    (h : xs ++ ' ' :: ys = xs' ++ ' ' :: ys') : xs = xs' := by
  rcases List.append_eq_append_iff.mp h with ⟨cs, rfl, hcs⟩ | ⟨cs, rfl, hcs⟩
  · cases cs with
    | nil => simp
    | cons c cs =>
      obtain ⟨-, rfl⟩ := List.cons.inj hcs
      simp at hys
  · cases cs with
    | nil => simp
    | cons c cs =>
      obtain ⟨-, rfl⟩ := List.cons.inj hcs
      simp at hys'

/-- The error of an entry names its code. -/
theorem notDecimal_inj {code code' : String} {x x' : WireRate}
    (h : notDecimal code x = notDecimal code' x') : code = code' := by
  have htext := congrArg String.toList (FetchError.undecodable.inj h)
  simp only [String.toList_append, String.toList_ofList, List.append_assoc] at htext
  have hafter := List.append_cancel_left htext
  -- the last space of the text is the one before the number
  have hsplit (cs : String) (y : WireRate) :
      cs.toList ++ (" is not a decimal: ".toList ++ y.chars) =
        (cs.toList ++ " is not a decimal:".toList) ++ ' ' :: y.chars := by simp
  rw [hsplit, hsplit] at hafter
  have hcode := append_space_inj (space_notMem_chars x) (space_notMem_chars x') hafter
  exact String.toList_inj.mp (List.append_cancel_right hcode)

/-! ## 4. Entries that leave no choice -/

/-- Whatever entry is visited first or last, the result is the same. -/
structure Unambiguous (entries : List WireEntry) : Prop where
  /-- At most one entry is no decimal. -/
  undecodable : ∀ e ∈ entries, ∀ e' ∈ entries,
    e.2.decimal? = none → e'.2.decimal? = none → e = e'
  /-- If there is none, then entries that are spellings of one code give it one number,
  rates below zero left out. -/
  rates : (∀ e ∈ entries, e.2.decimal? ≠ none) →
    ∀ e ∈ entries, ∀ e' ∈ entries, ∀ d d', e.2.decimal? = some d → e'.2.decimal? = some d' →
      d.isNegative = false → d'.isNegative = false →
      Text.normalize e.1 = Text.normalize e'.1 → d.toRat = d'.toRat

theorem mem_decimals_iff {entries : List WireEntry} {code : String} {d : Decimal} :
    (code, d) ∈ entries.filterMap decimalOf? ↔
      ∃ x, (code, x) ∈ entries ∧ x.decimal? = some d := by
  simp [decimalOf?, List.mem_filterMap]

/-- The number of a code in the table of some entries is given by one of them. -/
theorem Unambiguous.toRat_lastGiven? {entries order order' : List WireEntry}
    (h : Unambiguous entries) (hdecimals : ∀ e ∈ entries, e.2.decimal? ≠ none)
    (horder : order.Perm entries) (horder' : order'.Perm entries) {code : String} {d : Decimal}
    (hd : RateTable.lastGiven? code (order.filterMap decimalOf?) = some d) :
    (RateTable.lastGiven? code (order'.filterMap decimalOf?)).map Decimal.toRat =
      some d.toRat := by
  obtain ⟨e, he, hgives, rfl⟩ := RateTable.exists_of_lastGiven?_eq_some hd
  cases hd' : RateTable.lastGiven? code (order'.filterMap decimalOf?) with
  | none =>
    -- the entry that gave the rate is among those of the other order
    have hmem : e ∈ order'.filterMap decimalOf? :=
      ((horder.trans horder'.symm).filterMap decimalOf?).mem_iff.mp he
    simp [RateTable.lastGiven?_eq_none_iff.mp hd' e hmem] at hgives
  | some d' =>
    obtain ⟨e', he', hgives', rfl⟩ := RateTable.exists_of_lastGiven?_eq_some hd'
    obtain ⟨x, hx, hxd⟩ := mem_decimals_iff.mp he
    obtain ⟨x', hx', hxd'⟩ := mem_decimals_iff.mp he'
    obtain ⟨hsign, hcode⟩ := RateTable.gives_iff.mp hgives
    obtain ⟨hsign', hcode'⟩ := RateTable.gives_iff.mp hgives'
    rw [Option.map_some, Option.some.injEq]
    exact h.rates hdecimals _ (horder'.mem_iff.mp hx') _ (horder.mem_iff.mp hx) _ _ hxd' hxd
      hsign' hsign (hcode'.trans hcode.symm)

/-- Entries that leave no choice lead to one result in all orders. -/
theorem Unambiguous.sameResult {entries order order' : List WireEntry} (h : Unambiguous entries)
    (horder : order.Perm entries) (horder' : order'.Perm entries) :
    SameResult (tableOf order).1 (tableOf order').1 := by
  by_cases hdecimals : ∀ e ∈ entries, e.2.decimal? ≠ none
  · rw [tableOf_of_decimals hdecimals horder, tableOf_of_decimals hdecimals horder']
    refine RateTable.same_iff.mpr fun code => ?_
    rw [RateTable.getElem?_ofEntries, RateTable.getElem?_ofEntries]
    cases hd : RateTable.lastGiven? code (order.filterMap decimalOf?) with
    | some d =>
      rw [h.toRat_lastGiven? hdecimals horder horder' hd, Option.map_some]
    | none =>
      cases hd' : RateTable.lastGiven? code (order'.filterMap decimalOf?) with
      | none => rfl
      | some d' =>
        have := h.toRat_lastGiven? hdecimals horder' horder hd'
        simp [hd] at this
  · push Not at hdecimals
    obtain ⟨e, he, hnone⟩ := hdecimals
    have hfirst (cs : List WireEntry) (hcs : cs.Perm entries) :
        cs.find? isUndecodable = some e := by
      cases hfind : cs.find? isUndecodable with
      | none =>
        have := List.find?_eq_none.mp hfind e (hcs.mem_iff.mpr he)
        exact absurd (isUndecodable_iff.mpr hnone) this
      | some e' =>
        have hmem := hcs.mem_iff.mp (List.mem_of_find?_eq_some hfind)
        rw [h.undecodable e he e' hmem hnone (isUndecodable_iff.mp (List.find?_some hfind))]
    rw [tableOf_of_find? (hfirst order horder), tableOf_of_find? (hfirst order' horder')]
    exact rfl

/-- An order that visits an entry last. -/
theorem perm_last {entries : List WireEntry} {e : WireEntry} (he : e ∈ entries) :
    (entries.erase e ++ [e]).Perm entries :=
  (List.perm_append_singleton e _).trans (List.perm_cons_erase he).symm

/-- An entry that is no decimal is named when it is visited first. -/
theorem tableOf_first {e : WireEntry} (h : e.2.decimal? = none) (rest : List WireEntry) :
    (tableOf (e :: rest)).1 = .error (notDecimal e.1 e.2) :=
  tableOf_of_find? (List.find?_cons_of_pos (isUndecodable_iff.mpr h))

/-- An entry that is visited last gives its code the rate. -/
theorem getElem?_last {rest : List WireEntry} {e : WireEntry} {d : Decimal}
    (hd : e.2.decimal? = some d) (hsign : d.isNegative = false) :
    (RateTable.ofEntries ((rest ++ [e]).filterMap decimalOf?)).rates[Text.normalize e.1]? =
      some d := by
  have hentry : decimalOf? e = some (e.1, d) := by simp [decimalOf?, hd]
  have hlast : (rest ++ [e]).filterMap decimalOf? =
      rest.filterMap decimalOf? ++ [(e.1, d)] := by
    rw [List.filterMap_append, List.filterMap_cons_some hentry, List.filterMap_nil]
  rw [RateTable.getElem?_ofEntries, hlast]
  exact RateTable.lastGiven?_concat _ (RateTable.gives_iff.mpr ⟨hsign, rfl⟩)

/-- Entries under different codes that lead to one result in all orders leave no choice. -/
theorem unambiguous_of_sameResult {entries : List WireEntry}
    (hcodes : ∀ e ∈ entries, ∀ e' ∈ entries, e.1 = e'.1 → e = e')
    (hall : ∀ order order' : List WireEntry, order.Perm entries → order'.Perm entries →
      SameResult (tableOf order).1 (tableOf order').1) : Unambiguous entries := by
  constructor
  case undecodable =>
    intro e he e' he' hnone hnone'
    have hsame := hall _ _ (List.perm_cons_erase he).symm (List.perm_cons_erase he').symm
    rw [tableOf_first hnone, tableOf_first hnone'] at hsame
    exact hcodes e he e' he' (notDecimal_inj hsame)
  case rates =>
    intro hdecimals e he e' he' d d' hd hd' hsign hsign' hcode
    have hsame := hall _ _ (perm_last he) (perm_last he')
    rw [tableOf_of_decimals hdecimals (perm_last he),
      tableOf_of_decimals hdecimals (perm_last he')] at hsame
    have hrates := RateTable.same_iff.mp hsame (Text.normalize e.1)
    rw [getElem?_last hd hsign, hcode, getElem?_last hd' hsign'] at hrates
    simpa using hrates

/-! ## 5. Answers -/

/-- The answer reports success and is relative to the expected base. -/
def Accepted (r : RateResponse) (base : String) : Prop :=
  r.result = "success" ∧ Text.sameIgnoringCase r.base base = true

/-- The result does not depend on the order in which the entries are visited. -/
def OrderFree (r : RateResponse) (base : String) : Prop :=
  ∀ order order' : List WireEntry, order.Perm r.rates.toList → order'.Perm r.rates.toList →
    SameResult (r.toTableBy order base).1 (r.toTableBy order' base).1

theorem toTableBy_of_accepted {r : RateResponse} {base : String} (h : r.Accepted base)
    (order : List WireEntry) : r.toTableBy order base = tableOf order := by
  obtain ⟨hresult, hbase⟩ := h
  simp [toTableBy, hresult, hbase]

/-- An answer that is not accepted is refused before its entries are looked at. -/
theorem toTableBy_of_not_accepted {r : RateResponse} {base : String} (h : ¬r.Accepted base)
    (order order' : List WireEntry) : r.toTableBy order base = r.toTableBy order' base := by
  unfold toTableBy
  split
  · rfl
  · rename_i hresult
    split
    · rfl
    · rename_i hbase
      exact absurd ⟨by simpa using hresult, by simpa using hbase⟩ h

/-- The entries of an answer have different codes. -/
theorem eq_of_mem_rates {r : RateResponse} {e e' : WireEntry} (he : e ∈ r.rates.toList)
    (he' : e' ∈ r.rates.toList) (hcode : e.1 = e'.1) : e = e' := by
  obtain ⟨code, x⟩ := e
  obtain ⟨code', x'⟩ := e'
  obtain rfl : code = code' := hcode
  rw [Std.ExtTreeMap.mem_toList_iff_getElem?_eq_some] at he he'
  rw [he, Option.some.injEq] at he'
  rw [he']

/-- **The order does not count** exactly when the answer is refused or its entries leave
no choice. -/
theorem orderFree_iff (r : RateResponse) (base : String) :
    OrderFree r base ↔ (r.Accepted base → Unambiguous r.rates.toList) := by
  constructor
  · intro h haccepted
    refine unambiguous_of_sameResult (fun e he e' he' => eq_of_mem_rates he he') ?_
    intro order order' horder horder'
    have hsame := h order order' horder horder'
    rwa [toTableBy_of_accepted haccepted, toTableBy_of_accepted haccepted] at hsame
  · intro h order order' horder horder'
    by_cases haccepted : r.Accepted base
    · rw [toTableBy_of_accepted haccepted, toTableBy_of_accepted haccepted]
      exact (h haccepted).sameResult horder horder'
    · rw [toTableBy_of_not_accepted haccepted order order']
      exact .refl _

/-- Two spellings of one code, with different rates. -/
def twoSpellings : RateResponse where
  result := "success"
  base := "USD"
  rates := Std.ExtTreeMap.ofList
    [("EUR", WireRate.finite (1 / 2)), ("eur", WireRate.finite (3 / 4))]

/-- Which rate the euro has depends on the spelling that is visited last. -/
theorem not_orderFree : ¬∀ r base, OrderFree r base := by
  intro hall
  have hsame := hall twoSpellings "USD" _ _ (.refl _) (List.reverse_perm _)
  revert hsame
  decide +kernel

end RateResponse
end CurrencyPad
