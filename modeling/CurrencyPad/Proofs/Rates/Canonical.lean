/-
CurrencyPad.Proofs.Rates.Canonical — what every rate table should be, and
the tables that are not.

A table is meant to hold its codes normalized and no rate below zero, so
that what one sees in it is what one finds when one looks it up
(`WellFormed`). Tables made of entries, or of the answer of a server, are
well formed from the start. A table that is read from a text is taken as
it stands, and need not be: `wellFormed_iff_of_run` says exactly when it
is, whatever has been done to it since.

## How the proof goes

* Entries are found because a code stands for itself when it is normalized,
  so a table is well formed when all its entries are `Proper`.
* An insertion adds a proper entry or nothing (`Proper.of_mem_insert`).
  Hence what is built by insertions alone is well formed, and so is every
  table with a new base, for it is built anew.
* By insertions one can put another rate in the place of one below zero,
  but a code that is not normalized is never met again
  (`forall_mended_insert_iff`).
-/
import CurrencyPad.Proofs.Currency.Code
import CurrencyPad.Proofs.Rates.Table
import CurrencyPad.Rates.Json
import CurrencyPad.Rates.Response

namespace CurrencyPad.RateTable

/-! ## 1. Well-formed tables -/

/-- The codes are normalized, the rates are not below zero, and every entry is the one that
is found under its code. -/
structure WellFormed (t : RateTable) : Prop where
  canonical : ∀ e ∈ t.entries, Text.normalize e.1 = e.1
  nonneg : ∀ e ∈ t.entries, e.2.isNegative = false
  found : ∀ e ∈ t.entries, t.get? e.1 = some e.2

/-- An entry of a well-formed table. -/
structure Proper (e : RateEntry) : Prop where
  canonical : Text.normalize e.1 = e.1
  nonneg : e.2.isNegative = false

theorem wellFormed_iff_proper {t : RateTable} : t.WellFormed ↔ ∀ e ∈ t.entries, Proper e := by
  constructor
  · exact fun h e he => ⟨h.canonical e he, h.nonneg e he⟩
  · intro h
    refine ⟨fun e he => (h e he).canonical, fun e he => (h e he).nonneg, fun e he => ?_⟩
    rw [get?, (h e he).canonical]
    exact mem_entries_iff.mp he

/-! ## 2. Insertions -/

/-- The entries after an insertion that is not refused. -/
theorem mem_entries_insert_iff {t : RateTable} {code : String} {rate : Decimal}
    (haccepts : accepts rate = true) {e : RateEntry} :
    e ∈ (t.insert code rate).entries ↔
      e = (Text.normalize code, rate) ∨ (e.1 ≠ Text.normalize code ∧ e ∈ t.entries) := by
  obtain ⟨name, value⟩ := e
  rw [mem_entries_iff, mem_entries_iff, getElem?_insert t (code, rate)]
  by_cases hname : name = Text.normalize code
  · simp [gives, haccepts, hname, eq_comm]
  · simp [gives, haccepts, hname, Ne.symm hname]

theorem insert_of_not_accepts {t : RateTable} {code : String} {rate : Decimal}
    (hrefused : ¬accepts rate = true) : t.insert code rate = t := by
  rw [insert, if_neg hrefused]

theorem proper_inserted {code : String} {rate : Decimal} (haccepts : accepts rate = true) :
    Proper (Text.normalize code, rate) :=
  ⟨Text.normalize_normalize code, by simpa [accepts] using haccepts⟩

/-- An insertion adds no entry that is not proper. -/
theorem Proper.of_mem_insert {t : RateTable} {code : String} {rate : Decimal} {e : RateEntry}
    (h : e ∈ (t.insert code rate).entries) : Proper e ∨ e ∈ t.entries := by
  by_cases haccepts : accepts rate = true
  · rcases (mem_entries_insert_iff haccepts).mp h with rfl | ⟨-, h⟩
    · exact .inl (proper_inserted haccepts)
    · exact .inr h
  · rw [insert_of_not_accepts haccepts] at h
    exact .inr h

theorem WellFormed.insert {t : RateTable} (h : t.WellFormed) (code : String) (rate : Decimal) :
    (t.insert code rate).WellFormed := by
  refine wellFormed_iff_proper.mpr fun e he => ?_
  rcases Proper.of_mem_insert he with hproper | hmem
  · exact hproper
  · exact wellFormed_iff_proper.mp h e hmem

theorem WellFormed.insertAll {t : RateTable} (h : t.WellFormed) (entries : List RateEntry) :
    (t.insertAll entries).WellFormed := by
  induction entries generalizing t with
  | nil => exact h
  | cons e rest ih => exact ih (h.insert e.1 e.2)

theorem wellFormed_empty : empty.WellFormed :=
  wellFormed_iff_proper.mpr fun e he => by
    simp [mem_entries_iff, empty] at he

/-- **A table that is built by insertions** is well formed. -/
theorem wellFormed_ofEntries (entries : List RateEntry) : (ofEntries entries).WellFormed :=
  wellFormed_empty.insertAll entries

/-! ## 3. Origins -/

/-- Where a table comes from. -/
inductive Origin
  | empty
  | entries (es : List RateEntry)
  /-- An answer whose entries are visited in some order, expected to be relative to a base. -/
  | answer (r : RateResponse) (order : List WireEntry) (base : String)
  | text (s : String)

/-- The tables that an origin gives. -/
def Origin.Gives : Origin → RateTable → Prop
  | .empty, t => t = RateTable.empty
  | .entries es, t => t = ofEntries es
  | .answer r order base, t =>
      order.Perm r.rates.toList ∧ (r.toTableBy order base).1 = .ok t
  | .text s, t => ofText? s = some t

/-- An answer's table is built by insertions. -/
theorem exists_entries_of_toTableBy {r : RateResponse} {order : List WireEntry}
    {base : String} {t : RateTable} (h : (r.toTableBy order base).1 = .ok t) :
    ∃ entries, t = ofEntries entries := by
  rw [RateResponse.toTableBy] at h
  split at h
  · cases h
  · split at h
    · cases h
    · rw [RateResponse.tableOf] at h
      dsimp only at h
      split at h
      · cases h
      · exact ⟨_, (Except.ok.inj h).symm⟩

/-- Every table is well formed from the start, unless it is read from a text. -/
theorem wellFormed_of_gives {o : Origin} {t : RateTable} (h : o.Gives t)
    (htext : ∀ s, o ≠ .text s) : t.WellFormed := by
  cases o with
  | empty =>
    obtain rfl : t = RateTable.empty := h
    exact wellFormed_empty
  | entries es =>
    obtain rfl : t = ofEntries es := h
    exact wellFormed_ofEntries es
  | answer r order base =>
    obtain ⟨entries, rfl⟩ := exists_entries_of_toTableBy h.2
    exact wellFormed_ofEntries entries
  | text s => exact absurd rfl (htext s)

/-! ## 4. Changes -/

/-- What is done to a table. -/
inductive Change
  | insert (code : String) (rate : Decimal)
  | rebase (base : String)
deriving DecidableEq

/-- The table relative to another base, its entries visited in a given order. -/
def rebaseBy? (t : RateTable) (order : List RateEntry) (base : String) : Option RateTable :=
  ((t.baseRate? base).bind (rebaseEntries? · order)).map fun entries =>
    (ofEntries entries).insert base .one

/-- What a change makes of a table. A change of base may visit the entries in any order; one
that is refused makes no table. -/
inductive Step (t : RateTable) : Change → RateTable → Prop
  | insert (code : String) (rate : Decimal) : Step t (.insert code rate) (t.insert code rate)
  | rebase {base : String} {order : List RateEntry} {t' : RateTable}
      (horder : order.Perm t.entries) (h : t.rebaseBy? order base = some t') :
      Step t (.rebase base) t'

/-- The entries are visited in their own order. -/
theorem Step.of_rebase? {t t' : RateTable} {base : String} (h : t.rebase? base = some t') :
    Step t (.rebase base) t' :=
  .rebase (.refl _) h

/-- What a sequence of changes makes of a table. -/
inductive Run : RateTable → List Change → RateTable → Prop
  | nil (t : RateTable) : Run t [] t
  | cons {t t₁ t' : RateTable} {c : Change} {rest : List Change} (hstep : Step t c t₁)
      (hrest : Run t₁ rest t') : Run t (c :: rest) t'

/-- **A new base** makes any table well formed. -/
theorem wellFormed_of_rebaseBy? {t t' : RateTable} {order : List RateEntry} {base : String}
    (h : t.rebaseBy? order base = some t') : t'.WellFormed := by
  obtain ⟨entries, -, rfl⟩ := Option.map_eq_some_iff.mp h
  exact (wellFormed_ofEntries entries).insert base .one

/-- The base is changed at some time. -/
def Rebased (changes : List Change) : Prop := ∃ base, .rebase base ∈ changes

/-- The entry is proper, or another rate takes the place of one below zero. -/
structure Mended (changes : List Change) (e : RateEntry) : Prop where
  canonical : Text.normalize e.1 = e.1
  nonneg : e.2.isNegative = false ∨
    ∃ code rate, .insert code rate ∈ changes ∧ Text.normalize code = e.1 ∧
      rate.isNegative = false

theorem Proper.mended {e : RateEntry} (h : Proper e) (changes : List Change) :
    Mended changes e :=
  ⟨h.canonical, .inl h.nonneg⟩

theorem mended_nil_iff {e : RateEntry} : Mended [] e ↔ Proper e := by
  constructor
  · rintro ⟨hcanonical, hsign | ⟨code, rate, hmem, -⟩⟩
    · exact ⟨hcanonical, hsign⟩
    · simp at hmem
  · exact fun h => h.mended []

/-- An insertion mends the entry under its code, if it is not refused. -/
theorem mended_insert_cons_iff {code : String} {rate : Decimal} {changes : List Change}
    {e : RateEntry} :
    Mended (.insert code rate :: changes) e ↔
      Mended changes e ∨ (Text.normalize code = e.1 ∧ rate.isNegative = false) := by
  constructor
  · rintro ⟨hcanonical, hsign | ⟨code', rate', hmem, hcode, hrate⟩⟩
    · exact .inl ⟨hcanonical, .inl hsign⟩
    · rcases List.mem_cons.mp hmem with heq | hmem
      · obtain ⟨rfl, rfl⟩ := Change.insert.inj heq
        exact .inr ⟨hcode, hrate⟩
      · exact .inl ⟨hcanonical, .inr ⟨code', rate', hmem, hcode, hrate⟩⟩
  · rintro (⟨hcanonical, hsign | ⟨code', rate', hmem, hcode, hrate⟩⟩ | ⟨hcode, hrate⟩)
    · exact ⟨hcanonical, .inl hsign⟩
    · exact ⟨hcanonical, .inr ⟨code', rate', List.mem_cons_of_mem _ hmem, hcode, hrate⟩⟩
    · exact ⟨hcode ▸ Text.normalize_normalize code,
        .inr ⟨code, rate, List.mem_cons_self, hcode, hrate⟩⟩

/-- **One insertion**: what it leaves is mended later just when all was mended by it or later. -/
theorem forall_mended_insert_iff {t : RateTable} {code : String} {rate : Decimal}
    {changes : List Change} :
    (∀ e ∈ (t.insert code rate).entries, Mended changes e) ↔
      ∀ e ∈ t.entries, Mended (.insert code rate :: changes) e := by
  simp only [mended_insert_cons_iff]
  by_cases haccepts : accepts rate = true
  · have hsign : rate.isNegative = false := by simpa [accepts] using haccepts
    constructor
    · intro h e he
      by_cases hcode : e.1 = Text.normalize code
      · exact .inr ⟨hcode.symm, hsign⟩
      · exact .inl (h e ((mem_entries_insert_iff haccepts).mpr (.inr ⟨hcode, he⟩)))
    · intro h e he
      rcases (mem_entries_insert_iff haccepts).mp he with rfl | ⟨hcode, he⟩
      · exact (proper_inserted haccepts).mended changes
      · exact (h e he).resolve_right fun hreplaced => hcode hreplaced.1.symm
  · have hsign : rate.isNegative = true := by simpa [accepts] using haccepts
    simp [insert_of_not_accepts haccepts, hsign]

/-- **Any table, after any changes**, is well formed when it has got a new base, or when
every entry that it had at first was proper or has been mended. -/
theorem wellFormed_iff_mended {t t' : RateTable} {changes : List Change}
    (hrun : Run t changes t') :
    t'.WellFormed ↔ Rebased changes ∨ ∀ e ∈ t.entries, Mended changes e := by
  induction hrun with
  | nil t => simp [Rebased, wellFormed_iff_proper, mended_nil_iff]
  | cons hstep _ ih =>
    cases hstep with
    | insert code rate =>
      rw [ih, forall_mended_insert_iff]
      simp [Rebased]
    | rebase _ h =>
      have hproper := wellFormed_iff_proper.mp (wellFormed_of_rebaseBy? h)
      exact iff_of_true (ih.mpr (.inr fun e he => (hproper e he).mended _))
        (.inl ⟨_, List.mem_cons_self⟩)

/-! ## 5. All tables there are -/

/-- **When a table is well formed.** A table that is made of entries or of an answer is so
for ever. One that is read from a text is so when it has got a new base since, or when all
its codes were normalized and every rate below zero has been replaced by insertions. -/
theorem wellFormed_iff_of_run {o : Origin} {t t' : RateTable} {changes : List Change}
    (horigin : o.Gives t) (hrun : Run t changes t') :
    t'.WellFormed ↔
      ((∃ s, o = .text s) → Rebased changes ∨ ∀ e ∈ t.entries, Mended changes e) := by
  rw [wellFormed_iff_mended hrun]
  constructor
  · exact fun h _ => h
  · intro h
    by_cases htext : ∃ s, o = .text s
    · exact h htext
    · have hproper := wellFormed_iff_proper.mp
        (wellFormed_of_gives horigin fun s hs => htext ⟨s, hs⟩)
      exact .inr fun e he => (hproper e he).mended changes

/-- A text with a code in lower case and a rate below zero. -/
def rawText : String := "\x7b\"eur\":0.5,\"GBP\":-0.25\x7d"

/-- The table of that text. -/
def raw : RateTable := (ofText? rawText).getD empty

theorem gives_rawText : (Origin.text rawText).Gives raw := by
  have hread : (ofText? rawText).isSome = true := by decide +kernel
  obtain ⟨t, ht⟩ := Option.isSome_iff_exists.mp hread
  change ofText? rawText = some ((ofText? rawText).getD empty)
  rw [ht, Option.getD_some]

/-- A new base drops the rate below zero and normalizes the other code. -/
theorem wellFormed_rebased_raw :
    ∃ t', Run raw [.insert " gbp" .one, .rebase "GBP"] t' ∧ t'.WellFormed := by
  have hrebased : ((raw.insert " gbp" .one).rebase? "GBP").isSome = true := by decide +kernel
  obtain ⟨t', ht'⟩ := Option.isSome_iff_exists.mp hrebased
  have hrun : Run raw [.insert " gbp" .one, .rebase "GBP"] t' :=
    .cons (.insert _ _) (.cons (.of_rebase? ht') (.nil t'))
  exact ⟨t', hrun,
    (wellFormed_iff_of_run gives_rawText hrun).mpr fun _ => .inl ⟨"GBP", by simp⟩⟩

/-- Not every table is well formed: one that was read is taken as it stands. -/
theorem not_wellFormed_raw :
    ¬∀ (o : Origin) (t t' : RateTable) (changes : List Change),
      o.Gives t → Run t changes t' → t'.WellFormed := by
  intro hall
  have heuro : raw.entries.any (·.1 == "eur") = true := by decide +kernel
  obtain ⟨⟨code, rate⟩, hmem, hcode⟩ := List.any_eq_true.mp heuro
  obtain rfl : code = "eur" := by simpa using hcode
  have hnormal : Text.normalize "eur" = "eur" :=
    (hall _ _ _ [] gives_rawText (.nil raw)).canonical ("eur", rate) hmem
  exact absurd hnormal (by decide +kernel)

end CurrencyPad.RateTable
