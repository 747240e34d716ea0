/-
CurrencyPad.Proofs.Store.Search — finding what is written in a name or a
code.

A search puts the query into lower case, and the names and codes, and
looks for the one in the others. A query that is written in a name is
found there, unless a sigma of it turns: at the end of the query it may
have the form for the end of a word, and in the name, where the word goes
on, the other form (`Text.SigmaTurns`). So the currency `ΠΕΣΟ` is not
found by `ΠΕΣ`.

`finds_written` says that this is the only reason. A query is found
wherever it is written exactly when none of its sigmas stands where it
could turn (`Text.Exposed`).
-/
import CurrencyPad.Proofs.Store.Catalog
import CurrencyPad.Proofs.Text.LowerCase

namespace CurrencyPad.Catalog

open Text (SigmaTurns Exposed sigmas trimChars lowerChars)

variable {s : Store} {query : String} {c : Currency}

/-! ## 1. What is found -/

/-- The query finds the currency in the store. -/
def Found (s : Store) (query : String) (c : Currency) : Prop :=
  ∃ cs, search s query = .ok cs ∧ c ∈ cs

theorem found_iff (h : s.Keyed) (hc : c ∈ s.all) : Found s query c ↔ Finds query c := by
  obtain ⟨cs, hsearch, hperm, -⟩ := (faithful_of_keyed h).search query
  have hmem : c ∈ cs ↔ Finds query c := by
    rw [hperm.mem_iff, List.mem_filter, decide_eq_true_iff, and_iff_right hc]
  rw [← hmem]
  constructor
  · rintro ⟨cs', hsearch', hc'⟩
    obtain rfl : cs' = cs := Except.ok.inj (hsearch'.symm.trans hsearch)
    exact hc'
  · exact fun hc => ⟨cs, hsearch, hc⟩

theorem not_finds {a b : List Char} (h : SigmaTurns a (trimChars query.toList) b)
    (hname : ¬lowerChars (trimChars query.toList) <:+: lowerChars c.name.toList)
    (hcode : ¬lowerChars (trimChars query.toList) <:+: lowerChars c.code.toList) :
    ¬Finds query c := by
  rintro (hblank | hfound | hfound)
  · rw [← searchKey_eq_nil_iff, searchKey, Text.lowerChars_eq_nil_iff] at hblank
    rw [hblank] at h
    obtain ⟨x, y, hnil, -⟩ := h
    simp at hnil
  · exact hname hfound
  · exact hcode hfound

/-! ## 2. What is written -/

/-- The text that is looked for is written in the name or the code. -/
def IsWritten (query : String) (c : Currency) : Prop :=
  trimChars query.toList <:+: c.name.toList ∨ trimChars query.toList <:+: c.code.toList

/-- The text that is looked for is written between `a` and `b` in the name or the code of a
currency, whose other text is the last argument. -/
inductive WrittenBetween (query : String) (c : Currency) (a b : List Char) : String → Prop
  | name (htext : c.name.toList = a ++ trimChars query.toList ++ b) :
      WrittenBetween query c a b c.code
  | code (htext : c.code.toList = a ++ trimChars query.toList ++ b) :
      WrittenBetween query c a b c.name

theorem isWritten_iff : IsWritten query c ↔ ∃ a b other, WrittenBetween query c a b other := by
  constructor
  · rintro (⟨a, b, htext⟩ | ⟨a, b, htext⟩)
    · exact ⟨a, b, _, .name htext.symm⟩
    · exact ⟨a, b, _, .code htext.symm⟩
  · rintro ⟨a, b, _, ⟨htext⟩ | ⟨htext⟩⟩
    · exact .inl ⟨a, b, htext.symm⟩
    · exact .inr ⟨a, b, htext.symm⟩

/-- Where no sigma turns, the lower case of a part is a part of the lower case. -/
theorem infix_of_not_sigmaTurns {a key b : List Char} (h : ¬SigmaTurns a key b) :
    lowerChars key <:+: lowerChars (a ++ key ++ b) := by
  rw [Text.sigmaTurns_iff, not_not] at h
  rw [Text.lowerChars_eq_append, h]
  exact List.infix_append ..

theorem finds_of_not_sigmaTurns {a b : List Char} {other : String}
    (hwritten : WrittenBetween query c a b other)
    (h : ¬SigmaTurns a (trimChars query.toList) b) : Finds query c := by
  cases hwritten with
  | name htext =>
    refine .inr (.inl ?_)
    rw [htext]
    exact infix_of_not_sigmaTurns h
  | code htext =>
    refine .inr (.inr ?_)
    rw [htext]
    exact infix_of_not_sigmaTurns h

theorem not_finds_of_sigmaTurns {a b : List Char} {other : String}
    (hwritten : WrittenBetween query c a b other)
    (hothers : sigmas (a ++ b ++ other.toList) = [])
    (h : SigmaTurns a (trimChars query.toList) b) : ¬Finds query c := by
  simp only [Text.sigmas_append, List.append_eq_nil_iff] at hothers
  obtain ⟨⟨ha, hb⟩, hother⟩ := hothers
  have hpart : ¬lowerChars (trimChars query.toList) <:+:
      lowerChars (a ++ trimChars query.toList ++ b) := Text.not_infix_of_sigmaTurns ha hb h
  have hother : ¬lowerChars (trimChars query.toList) <:+: lowerChars other.toList :=
    Text.not_infix_of_sigmas_eq_nil h.sigmas_ne_nil hother
  cases hwritten with
  | name htext => exact not_finds h (htext ▸ hpart) hother
  | code htext => exact not_finds h hother (htext ▸ hpart)

/-! ## 3. When a search finds what is written -/

/-- A search of any store, for a query that is written somewhere in it. -/
structure FindsWritten (query : String) : Prop where
  /-- It finds the currency if no sigma of the query turns where it is written. -/
  kept : ∀ s : Store, s.Reachable → ∀ c ∈ s.all, ∀ a b other, WrittenBetween query c a b other →
    ¬SigmaTurns a (trimChars query.toList) b → Found s query c
  /-- It does not if one turns and the currency has no other sigmas. -/
  lost : ∀ s : Store, s.Reachable → ∀ c ∈ s.all, ∀ a b other, WrittenBetween query c a b other →
    sigmas (a ++ b ++ other.toList) = [] →
    SigmaTurns a (trimChars query.toList) b → ¬Found s query c
  /-- It finds all currencies that the query is written in, whatever the store, just when the
  query has no sigma that could turn. -/
  always : (∀ s : Store, s.Reachable → ∀ c ∈ s.all, IsWritten query c → Found s query c) ↔
    ¬Exposed (trimChars query.toList)

theorem exists_store (c : Currency) : ∃ s : Store, s.Reachable ∧ c ∈ s.all := by
  obtain ⟨s, hs, -, hall⟩ := Store.exists_ofCurrencies (List.Perm.refl [c]) (by simp)
  exact ⟨s, Store.reachable_ofCurrencies hs, hall.mem_iff.mpr (by simp)⟩

/-- A dollar under another name. -/
def dollarNamed (name : List Char) : Currency := { code := "USD", name := .ofList name }

/-- A store with a currency that an exposed query misses. -/
theorem exists_missed (h : Exposed (trimChars query.toList)) :
    ∃ s : Store, s.Reachable ∧ ∃ c ∈ s.all, IsWritten query c ∧ ¬Found s query c := by
  obtain ⟨a, b, hothers, hturns⟩ : ∃ a b, sigmas (a ++ b ++ "USD".toList) = [] ∧
      SigmaTurns a (trimChars query.toList) b := by
    rcases h.sigmaTurns with hturns | hturns
    · exact ⟨_, _, by decide, hturns⟩
    · exact ⟨_, _, by decide, hturns⟩
  have hwritten : WrittenBetween query (dollarNamed (a ++ trimChars query.toList ++ b)) a b "USD" :=
    .name String.toList_ofList
  obtain ⟨s, hs, hc⟩ := exists_store (dollarNamed (a ++ trimChars query.toList ++ b))
  refine ⟨s, hs, _, hc, isWritten_iff.mpr ⟨a, b, _, hwritten⟩, ?_⟩
  rw [found_iff hs.keyed hc]
  exact not_finds_of_sigmaTurns hwritten hothers hturns

/-- **A search finds what is written** in the name or the code of a currency, unless a sigma
of the query turns there. A query never misses a currency that it is written in just when none of
its sigmas could turn. -/
theorem finds_written (query : String) : FindsWritten query where
  kept s hs c hc a b other hwritten h :=
    (found_iff hs.keyed hc).mpr (finds_of_not_sigmaTurns hwritten h)
  lost s hs c hc a b other hwritten hothers h hfound :=
    not_finds_of_sigmaTurns hwritten hothers h ((found_iff hs.keyed hc).mp hfound)
  always := by
    constructor
    · intro hall hexposed
      obtain ⟨s, hs, c, hc, hwritten, hmissed⟩ := exists_missed hexposed
      exact hmissed (hall s hs c hc hwritten)
    · intro hexposed s hs c hc hwritten
      obtain ⟨a, b, other, hwritten⟩ := isWritten_iff.mp hwritten
      rw [found_iff hs.keyed hc]
      exact finds_of_not_sigmaTurns hwritten fun h => hexposed (Text.exposed_of_sigmaTurns h)

def peso : Currency := { code := "MXN", name := "ΠΕΣΟ" }

/-- The query ends a word and the name goes on after it. With the last letter it is found. -/
theorem finds_written_peso : ∃ s : Store, s.Reachable ∧ peso ∈ s.all ∧
    Found s " ΕΣΟ" peso ∧ ¬Found s "ΠΕΣ" peso := by
  obtain ⟨s, hs, hc⟩ := exists_store peso
  refine ⟨s, hs, hc, ?_, ?_⟩
  · exact (finds_written " ΕΣΟ").kept s hs peso hc ['Π'] [] _ (.name (by decide +kernel))
      (by decide +kernel)
  · exact (finds_written "ΠΕΣ").lost s hs peso hc [] ['Ο'] _ (.name (by decide +kernel))
      (by decide +kernel) (by decide +kernel)

/-- A name has a query in it that does not find it. -/
theorem not_finds_written : ¬∀ (query : String) (s : Store) (c : Currency), s.Reachable →
    c ∈ s.all → trimChars query.toList ≠ [] → IsWritten query c → Found s query c := by
  intro hall
  obtain ⟨s, hs, hc⟩ := exists_store peso
  have hfound := hall "ΠΕΣ" s peso hs hc (by decide +kernel)
    (.inl ⟨[], ['Ο'], by decide +kernel⟩)
  rw [found_iff hs.keyed hc] at hfound
  revert hfound
  decide +kernel

end CurrencyPad.Catalog
