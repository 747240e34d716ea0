/-
CurrencyPad.Proofs.Store.Catalog — the lists of a store.

Each query lists just the stored currencies that it asks for, every one
once and in strictly ascending order, since no two have the same code
(`Faithful`). Nothing else counts: stores that are built of the same
currencies, inserted in any order, are one store and answer alike
(`faithful_and_orderFree`).

## How the proof goes

* Sorting permutes the listing, and two currencies that an order does not
  tell apart have the same code (`pairwise_mergeSort_eq_lt`). The queries
  that select keep the order.
* A query text is looked for as a part of the lower-case name or code; one
  of blanks only finds every currency (`matching_eq`).
* An insertion adds one currency to those that are stored, and a store is
  determined by them (`Store.exists_ofCurrencies`).
-/
import CurrencyPad.Proofs.Store.Records
import CurrencyPad.Proofs.Text.Trim
import CurrencyPad.Store.Catalog

namespace CurrencyPad

/-! ## 1. Texts -/

namespace Text

/-- A text occurs in another just when it is a part of it. -/
theorem occursIn_iff {part cs : List Char} : occursIn part cs = true ↔ part <:+: cs := by
  induction cs with
  | nil => rw [occursIn, List.isEmpty_iff, List.infix_nil]
  | cons c r ih =>
    rw [occursIn, Bool.or_eq_true, List.isPrefixOf_iff_prefix, ih, List.infix_cons_iff]

theorem lowerChar_ne_nil (c : Char) : lowerChar c ≠ [] := by
  unfold lowerChar
  split
  · nofun
  · split <;> nofun

/-- Every character has a lower-case form. -/
theorem lowerChars_eq_nil_iff {cs : List Char} : lowerChars cs = [] ↔ cs = [] := by
  cases cs with
  | nil => simp [lowerChars, lowerFrom]
  | cons c r =>
    simp only [lowerChars, lowerFrom, List.append_eq_nil_iff, reduceCtorEq, iff_false, not_and]
    intro hnil
    split at hnil
    · split at hnil <;> simp at hnil
    · exact absurd hnil (lowerChar_ne_nil c)

end Text

namespace Catalog

/-! ## 2. Orders -/

/-- Ascending by a key, the code deciding between equals. -/
def Before {κ : Type} [LT κ] (key : Currency → κ) (a b : Currency) : Prop :=
  key a < key b ∨ key a = key b ∧ a.code < b.code

theorem compare_eq_lt_iff {x y : String} : compare x y = .lt ↔ x < y := compareOfLessAndEq_eq_lt

theorem nameOrder_eq_lt_iff {a b : Currency} :
    nameOrder a b = .lt ↔ Before Currency.name a b := by
  rw [nameOrder, Ordering.then_eq_lt, compare_eq_lt_iff, compare_eq_lt_iff,
    Std.LawfulEqOrd.compare_eq_iff_eq, Before]

theorem displayOrder_eq_lt_iff {a b : Currency} :
    a.displayOrder b = .lt ↔ Before Currency.order a b := by
  rw [Currency.displayOrder, Ordering.then_eq_lt, compare_eq_lt_iff, Int.compare_eq_lt,
    Std.LawfulEqOrd.compare_eq_iff_eq, Before]

instance : Std.TransCmp nameOrder :=
  inferInstanceAs (Std.TransCmp (compareLex (compareOn Currency.name) (compareOn Currency.code)))

instance : Std.TransCmp Currency.displayOrder :=
  inferInstanceAs (Std.TransCmp (compareLex (compareOn Currency.order) (compareOn Currency.code)))

/-- **Sorting** brings currencies with different codes in strictly ascending order, if the
order tells codes apart. -/
theorem pairwise_mergeSort_eq_lt {order : Currency → Currency → Ordering} [Std.TransCmp order]
    (hcode : ∀ a b, order a b = .eq → a.code = b.code) {cs : List Currency}
    (hcodes : (cs.map (·.code)).Nodup) :
    (cs.mergeSort fun a b => (order a b).isLE).Pairwise fun a b => order a b = .lt := by
  have hsorted : (cs.mergeSort fun a b => (order a b).isLE).Pairwise
      fun a b => (order a b).isLE = true := by
    refine List.pairwise_mergeSort (fun a b c => Std.TransCmp.isLE_trans) (fun a b => ?_) cs
    have hswap : order a b = (order b a).swap := Std.OrientedCmp.eq_swap
    rw [hswap]
    cases order b a <;> rfl
  have hdistinct : (cs.mergeSort fun a b => (order a b).isLE).Pairwise
      fun a b => a.code ≠ b.code :=
    List.pairwise_map.mp (((List.mergeSort_perm cs _).map _).nodup_iff.mpr hcodes)
  -- two that the order does not tell apart would have one code
  refine hsorted.imp₂ (fun a b hle hne => ?_) hdistinct
  exact (Ordering.isLE_iff_eq_lt_or_eq_eq.mp hle).resolve_right fun heq => hne (hcode a b heq)

/-! ## 3. The four lists -/

/-- The answer lists the stored currencies with a property, each once, in ascending order. -/
def Lists (answer : Except Error (List Currency)) (s : Store) (p : Currency → Bool)
    (before : Currency → Currency → Prop) : Prop :=
  ∃ cs, answer = .ok cs ∧ cs.Perm (s.all.filter p) ∧ cs.Pairwise before

/-- The query is blank, or its lower-case form without blanks around it is a part of the
lower-case name or code. -/
def Finds (query : String) (c : Currency) : Prop :=
  (∀ ch ∈ query.toList, Text.isBlank ch = true) ∨
    Text.lowerChars (Text.trimChars query.toList) <:+: Text.lowerChars c.name.toList ∨
    Text.lowerChars (Text.trimChars query.toList) <:+: Text.lowerChars c.code.toList

theorem searchKey_eq_nil_iff {query : String} :
    searchKey query = [] ↔ ∀ ch ∈ query.toList, Text.isBlank ch = true := by
  rw [searchKey, Text.lowerChars_eq_nil_iff, Text.trimChars_eq_strip, Text.strip_eq_nil_iff]

theorem finds_iff {query : String} {c : Currency} :
    (searchKey query = [] ∨ isMatch (searchKey query) c = true) ↔ Finds query c := by
  rw [searchKey_eq_nil_iff, isMatch, Bool.or_eq_true, Text.occursIn_iff, Text.occursIn_iff]
  rfl

instance (query : String) : DecidablePred (Finds query) := fun _ =>
  decidable_of_iff _ finds_iff

/-- A search selects what is found. -/
theorem matching_eq (query : String) (cs : List Currency) :
    matching query cs = (byName cs).filter fun c => Finds query c := by
  unfold matching
  dsimp only
  split
  · rename_i hblank
    refine (List.filter_eq_self.mpr fun c _ => ?_).symm
    exact decide_eq_true (finds_iff.mp (.inl hblank))
  · rename_i hkey
    refine List.filter_congr fun c _ => ?_
    rw [Bool.eq_iff_iff, decide_eq_true_iff, ← finds_iff, or_iff_right hkey]

/-- The queries list what they ask for. -/
structure Faithful (s : Store) : Prop where
  byName : Lists (allByName s) s (fun _ => true) (Before Currency.name)
  byOrder : Lists (allByOrder s) s (fun _ => true) (Before Currency.order)
  favorites : Lists (favorites s) s (·.favorite) (Before Currency.name)
  search : ∀ query, Lists (search s query) s (fun c => Finds query c) (Before Currency.name)

variable {s : Store}

theorem pairwise_byName (h : s.Keyed) : (byName s.all).Pairwise (Before Currency.name) := by
  refine (pairwise_mergeSort_eq_lt (fun a b heq => ?_) h.nodup_codes).imp
    nameOrder_eq_lt_iff.mp
  exact Std.LawfulEqOrd.eq_of_compare (Ordering.then_eq_eq.mp heq).2

theorem pairwise_byDisplayOrder (h : s.Keyed) :
    (byDisplayOrder s.all).Pairwise (Before Currency.order) := by
  refine (pairwise_mergeSort_eq_lt (fun a b heq => ?_) h.nodup_codes).imp
    displayOrder_eq_lt_iff.mp
  exact Std.LawfulEqOrd.eq_of_compare (Ordering.then_eq_eq.mp heq).2

theorem lists_all {cs : List Currency} {before : Currency → Currency → Prop}
    (hperm : cs.Perm s.all) (hbefore : cs.Pairwise before) :
    Lists (.ok cs) s (fun _ => true) before :=
  ⟨cs, rfl, by rwa [List.filter_true], hbefore⟩

/-- A selection of the list by name. -/
theorem lists_filter_byName (h : s.Keyed) (p : Currency → Bool) :
    Lists (.ok ((byName s.all).filter p)) s p (Before Currency.name) :=
  ⟨_, rfl, (List.mergeSort_perm _ _).filter p, (pairwise_byName h).filter p⟩

theorem faithful_of_keyed (h : s.Keyed) : Faithful s where
  byName := lists_all (List.mergeSort_perm _ _) (pairwise_byName h)
  byOrder := lists_all (List.mergeSort_perm _ _) (pairwise_byDisplayOrder h)
  favorites := lists_filter_byName h _
  search query := by
    have hsearch : search s query = .ok (matching query s.all) := rfl
    rw [hsearch, matching_eq]
    exact lists_filter_byName h _

/-! ## 4. All stores there are -/

/-- Two stores answer every query alike. -/
structure AnswerAlike (s s' : Store) : Prop where
  byName : allByName s = allByName s'
  byOrder : allByOrder s = allByOrder s'
  favorites : favorites s = favorites s'
  search : ∀ query, search s query = search s' query

/-- **The lists of a store** have just the stored currencies that are asked for, in strictly
ascending order, whatever the order in which the currencies were inserted. -/
theorem faithful_and_orderFree :
    (∀ s : Store, s.Reachable → Faithful s) ∧
      ∀ cs cs' : List Currency, cs.Perm cs' → (cs.map (·.code)).Nodup →
        ∃ s s', Store.ofCurrencies cs = .ok s ∧ Store.ofCurrencies cs' = .ok s' ∧
          s.all.Perm cs ∧ AnswerAlike s s' := by
  constructor
  · exact fun s h => faithful_of_keyed h.keyed
  · intro cs cs' hperm hcodes
    obtain ⟨s, hs, hs', hall⟩ := Store.exists_ofCurrencies hperm hcodes
    exact ⟨s, s, hs, hs', hall, rfl, rfl, rfl, fun _ => rfl⟩

/-- Two currencies of one name, and two at one place. -/
def twins : List Currency :=
  [{ code := "USD", name := "DOLLAR", order := 2 },
    { code := "EUR", name := "EURO", favorite := true, order := 1 },
    { code := "CAD", name := "DOLLAR", order := 1 }]

/-- Inserted from the last to the first they are listed the same, and both dollars are found. -/
theorem faithful_twins :
    ∃ s s', Store.ofCurrencies twins = .ok s ∧ Store.ofCurrencies twins.reverse = .ok s' ∧
      Faithful s ∧ AnswerAlike s s' ∧
      ∃ cs, search s' " DOLL" = .ok cs ∧ (cs.map (·.code)).Perm ["USD", "CAD"] ∧
        cs.Pairwise (Before Currency.name) := by
  obtain ⟨s, s', hs, hs', hall, halike⟩ :=
    faithful_and_orderFree.2 twins twins.reverse (List.reverse_perm _).symm (by decide)
  have hfaithful := faithful_and_orderFree.1 s (Store.reachable_ofCurrencies hs)
  obtain ⟨cs, hcs, hperm, hbefore⟩ := hfaithful.search " DOLL"
  have hfound : (twins.filter fun c => Finds " DOLL" c).map (·.code) = ["USD", "CAD"] := by
    decide +kernel
  refine ⟨s, s', hs, hs', hfaithful, halike, cs, halike.search _ ▸ hcs, ?_, hbefore⟩
  rw [← hfound]
  exact (hperm.trans (hall.filter _)).map _

end Catalog
end CurrencyPad
