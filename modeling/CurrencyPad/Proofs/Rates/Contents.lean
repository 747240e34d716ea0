/-
CurrencyPad.Proofs.Rates.Contents — a table of rates is a finite map.

A table that entries are inserted into is a map from codes to rates
(`IsMapOf`). Spellings of one code are one key, a later rate takes the
place of an earlier one, and a rate below zero counts as if it had not
been given; so a look-up answers with the last entry that gives a rate
for the code, whatever stands between that entry and the end.

## How the proof goes

* A look-up normalizes the code it is given, as the insertion has
  normalized the code of the entry; to normalize twice is to normalize
  once (`gives_normalize_iff`).
* The last entry that gives a rate splits the entries in two, with none
  that gives one behind it (`lastGiven?_eq_some_iff`).
* The codes of the table are ascending, so all different, and they are the
  codes that an entry gives a rate for. There are as many of them as there
  are such codes (`IsMapOf.size`).
-/
import CurrencyPad.Proofs.Currency.Code
import CurrencyPad.Proofs.Decimal.Nearest
import CurrencyPad.Proofs.Rates.Table

namespace CurrencyPad.RateTable

variable {code : String} {e : RateEntry} {entries : List RateEntry}

/-! ## 1. Entries that give a rate -/

/-- The entry gives a rate for a code: the rate is not below zero, and the two codes are the same
but for blanks around them and the case of ASCII letters. -/
def GivesFor (code : String) (e : RateEntry) : Prop :=
  0 ≤ e.2.toRat ∧ Text.normalize e.1 = Text.normalize code

theorem accepts_iff {rate : Decimal} : accepts rate = true ↔ 0 ≤ rate.toRat := by
  rw [accepts, Bool.not_eq_true', ← Bool.not_eq_true, Decimal.isNegative_iff, not_lt]

theorem gives_iff_nonneg : gives code e = true ↔ 0 ≤ e.2.toRat ∧ Text.normalize e.1 = code := by
  rw [gives, Bool.and_eq_true, accepts_iff, beq_iff_eq]

theorem gives_normalize_iff : gives (Text.normalize code) e = true ↔ GivesFor code e :=
  gives_iff_nonneg

/-! ## 2. The map -/

/-- The normalized codes that some entries give a rate for. -/
def ratedCodes (entries : List RateEntry) : List String :=
  (entries.filter (0 ≤ ·.2.toRat)).map (Text.normalize ·.1)

theorem mem_ratedCodes_iff :
    code ∈ ratedCodes entries ↔ ∃ e ∈ entries, 0 ≤ e.2.toRat ∧ Text.normalize e.1 = code := by
  simp [ratedCodes, and_assoc]

/-- The table is the map that some entries make, each in its turn. -/
structure IsMapOf (entries : List RateEntry) (t : RateTable) : Prop where
  /-- A code has the rate of the last entry that gives one for it. -/
  get?_eq_some_iff : ∀ code rate, t.get? code = some rate ↔
    ∃ before e after, entries = before ++ e :: after ∧ GivesFor code e ∧ e.2 = rate ∧
      ∀ e' ∈ after, ¬GivesFor code e'
  get?_eq_none_iff : ∀ code, t.get? code = none ↔ ∀ e ∈ entries, ¬GivesFor code e
  contains : ∀ code, t.contains code = (t.get? code).isSome
  ascending : t.codes.Pairwise (· < ·)
  mem_codes_iff : ∀ code, code ∈ t.codes ↔
    ∃ e ∈ entries, 0 ≤ e.2.toRat ∧ Text.normalize e.1 = code
  /-- There is one rate for each of the different codes. -/
  size : t.size = (ratedCodes entries).toFinset.card

theorem contains_eq_isSome_get? (t : RateTable) (code : String) :
    t.contains code = (t.get? code).isSome :=
  Std.ExtTreeMap.contains_eq_isSome_getElem?

theorem ascending_codes (t : RateTable) : t.codes.Pairwise (· < ·) :=
  t.rates.ordered_keys.imp fun h => compareOfLessAndEq_eq_lt.mp h

theorem mem_codes_ofEntries_iff :
    code ∈ (ofEntries entries).codes ↔
      ∃ e ∈ entries, 0 ≤ e.2.toRat ∧ Text.normalize e.1 = code := by
  rw [codes, Std.ExtTreeMap.mem_keys, ← Std.ExtTreeMap.isSome_getElem?_iff_mem,
    getElem?_ofEntries, ← Option.ne_none_iff_isSome, ne_eq, lastGiven?_eq_none_iff]
  simp only [Bool.eq_false_iff, ne_eq, gives_iff_nonneg]
  push Not
  rfl

/-- Ascending codes are counted as the set of them. -/
theorem size_ofEntries (entries : List RateEntry) :
    (ofEntries entries).size = (ratedCodes entries).toFinset.card := by
  have hnodup : (ofEntries entries).codes.Nodup :=
    (ascending_codes _).imp fun hlt => String.ne_of_lt hlt
  have hcodes : (ofEntries entries).codes.toFinset = (ratedCodes entries).toFinset := by
    ext code
    rw [List.mem_toFinset, List.mem_toFinset, mem_codes_ofEntries_iff, mem_ratedCodes_iff]
  calc (ofEntries entries).size
      = (ofEntries entries).codes.length := Std.ExtTreeMap.length_keys.symm
    _ = (ofEntries entries).codes.toFinset.card := (List.toFinset_card_of_nodup hnodup).symm
    _ = (ratedCodes entries).toFinset.card := by rw [hcodes]

theorem isMapOf_ofEntries (entries : List RateEntry) : IsMapOf entries (ofEntries entries) where
  get?_eq_some_iff code rate := by
    rw [get?, getElem?_ofEntries, lastGiven?_eq_some_iff]
    simp only [gives_normalize_iff]
  get?_eq_none_iff code := by
    rw [get?, getElem?_ofEntries, lastGiven?_eq_none_iff]
    simp only [← Bool.not_eq_true, gives_normalize_iff]
  contains := contains_eq_isSome_get? _
  ascending := ascending_codes _
  mem_codes_iff _ := mem_codes_ofEntries_iff
  size := size_ofEntries entries

theorem ofEntries_concat (entries : List RateEntry) (e : RateEntry) :
    ofEntries (entries ++ [e]) = (ofEntries entries).insert e.1 e.2 := by
  simp [ofEntries, insertAll]

/-- **A table is a finite map**, whatever is inserted into it: the map of the entries whose rate
is not below zero, the last of them counting for each code. To build a table of entries is to
insert them one by one, and a rate that is not taken leaves the table as it was. -/
theorem table_isMapOf :
    (∀ entries, IsMapOf entries (ofEntries entries)) ∧
      ofEntries [] = empty ∧
      (∀ entries e, ofEntries (entries ++ [e]) = (ofEntries entries).insert e.1 e.2) ∧
      ∀ (t : RateTable) code rate, rate.toRat < 0 →
        accepts rate = false ∧ t.insert code rate = t := by
  refine ⟨isMapOf_ofEntries, rfl, ofEntries_concat, fun t code rate hneg => ?_⟩
  have hrejected : accepts rate = false := by
    rw [← Bool.not_eq_true, accepts_iff, not_le]
    exact hneg
  exact ⟨hrejected, by simp [insert, hrejected]⟩

/-- Three spellings of the euro, the last one with a rate below zero. -/
def respelled : List RateEntry :=
  [("eur", .hundred), ("GBP", .zero), (" Eur\t", .one), ("EUR", .neg .one), ("JPY", .neg .one)]

theorem table_isMapOf_respelled :
    (ofEntries respelled).get? "eUR " = some .one ∧
      (ofEntries respelled).size = 2 ∧
      (Decimal.neg .one).toRat < 0 ∧
      (ofEntries respelled).insert "EUR" (.neg .one) = ofEntries respelled := by
  have hmap := table_isMapOf.1 respelled
  have hneg : (Decimal.neg .one).toRat < 0 := by decide +kernel
  refine ⟨(hmap.get?_eq_some_iff _ _).mpr ?_, ?_, hneg, (table_isMapOf.2.2.2 _ _ _ hneg).2⟩
  · refine ⟨respelled.take 2, _, respelled.drop 3, rfl, ⟨by decide +kernel, by decide +kernel⟩,
      rfl, ?_⟩
    rintro e he ⟨hnonneg, -⟩
    revert hnonneg
    revert e
    decide +kernel
  · rw [hmap.size]
    decide +kernel

end CurrencyPad.RateTable
