/-
CurrencyPad.Proofs.Rates.Table — what a table holds.

Two tables are the same when every code has the same number in both
(`same_iff`): the scales of the rates do not count. After entries have
been inserted one by one, a code has the rate of the last of them that is
a spelling of it and whose rate the table takes (`getElem?_insertAll`). If
no two of the entries are spellings of one code, the table has all of them
but for the rates below zero (`SpelledOnce.entries_perm`).
-/
import Mathlib.Data.List.Induction
import Mathlib.Data.List.Nodup
import CurrencyPad.Rates.Table

namespace CurrencyPad.RateTable

open Decimal (toRat sameValue)

/-! ## 1. Comparing tables -/

/-- Two tables in which every code has the same rate are one. -/
theorem ext_getElem? {a b : RateTable} (h : ∀ code : String, a.rates[code]? = b.rates[code]?) :
    a = b := by
  obtain ⟨rates⟩ := a
  obtain ⟨rates'⟩ := b
  exact congrArg mk (Std.ExtTreeMap.ext_getElem? h)

theorem mem_entries_iff {t : RateTable} {e : RateEntry} :
    e ∈ t.entries ↔ t.rates[e.1]? = some e.2 :=
  Std.ExtTreeMap.mem_toList_iff_getElem?_eq_some

theorem codes_eq_of_isSome_eq {a b : RateTable}
    (h : ∀ code : String, a.rates[code]?.isSome = b.rates[code]?.isSome) : a.codes = b.codes := by
  have hunits : (a.rates.map fun _ _ => ()) = b.rates.map fun _ _ => () := by
    refine Std.ExtTreeMap.ext_getElem? fun code => ?_
    have hcode := h code
    rw [Std.ExtTreeMap.getElem?_map, Std.ExtTreeMap.getElem?_map]
    cases ha : a.rates[code]? <;> cases hb : b.rates[code]? <;> simp [ha, hb] at hcode ⊢
  have hkeys := congrArg Std.ExtTreeMap.keys hunits
  rwa [Std.ExtTreeMap.keys_map, Std.ExtTreeMap.keys_map] at hkeys

/-- The codes with the numbers that their rates are. -/
def values (t : RateTable) : Std.ExtTreeMap String Rat := t.rates.map fun _ rate => rate.toRat

theorem getElem?_values (t : RateTable) (code : String) :
    t.values[code]? = t.rates[code]?.map toRat :=
  Std.ExtTreeMap.getElem?_map

theorem toList_values (t : RateTable) :
    t.values.toList = t.entries.map fun e => (e.1, e.2.toRat) :=
  Std.ExtTreeMap.toList_map

/-- Entries one beside the other have the same codes and numbers. -/
theorem map_eq_map_iff {xs ys : List RateEntry} :
    xs.map (fun e => (e.1, e.2.toRat)) = ys.map (fun e => (e.1, e.2.toRat)) ↔
      xs.map (·.1) = ys.map (·.1) ∧ ∀ p ∈ xs.zip ys, p.1.2.toRat = p.2.2.toRat := by
  induction xs generalizing ys with
  | nil => cases ys <;> simp
  | cons x xs ih =>
    cases ys with
    | nil => simp
    | cons y ys =>
      simp only [List.map_cons, List.cons.injEq, Prod.mk.injEq, List.zip_cons_cons,
        List.forall_mem_cons, ih]
      tauto

/-- **Tables are the same** when every code has the same number in both. -/
theorem same_iff {a b : RateTable} :
    a.same b = true ↔ ∀ code : String, a.rates[code]?.map toRat = b.rates[code]?.map toRat := by
  have hlists : a.same b = true ↔ a.values.toList = b.values.toList := by
    rw [toList_values, toList_values, map_eq_map_iff]
    simp [same, codes, entries, sameValue, Std.ExtTreeMap.map_fst_toList_eq_keys]
  rw [hlists, Std.ExtTreeMap.toList_inj]
  constructor
  · intro h code
    rw [← getElem?_values, ← getElem?_values, h]
  · intro h
    refine Std.ExtTreeMap.ext_getElem? fun code => ?_
    rw [getElem?_values, getElem?_values, h]

/-! ## 2. Inserting -/

/-- The entry gives a rate for a normalized code, and a table takes it. -/
def gives (code : String) (e : RateEntry) : Bool :=
  accepts e.2 && Text.normalize e.1 == code

theorem gives_iff {code : String} {e : RateEntry} :
    gives code e = true ↔ e.2.isNegative = false ∧ Text.normalize e.1 = code := by
  simp [gives, accepts]

/-- The rate of the last entry that gives one for a normalized code. -/
def lastGiven? (code : String) (entries : List RateEntry) : Option Decimal :=
  (entries.filter (gives code)).getLast?.map (·.2)

theorem getElem?_insert (t : RateTable) (e : RateEntry) (code : String) :
    (t.insert e.1 e.2).rates[code]? = if gives code e then some e.2 else t.rates[code]? := by
  unfold insert gives
  cases accepts e.2 with
  | false => simp
  | true => simp [Std.ExtTreeMap.getElem?_insert]

/-- **After insertions** a code has the rate that was given for it last. -/
theorem getElem?_insertAll (t : RateTable) (entries : List RateEntry) (code : String) :
    (t.insertAll entries).rates[code]? = (lastGiven? code entries).or t.rates[code]? := by
  induction entries using List.reverseRecOn with
  | nil => rfl
  | append_singleton rest e ih =>
    have hinsert : t.insertAll (rest ++ [e]) = (t.insertAll rest).insert e.1 e.2 := by
      simp [insertAll]
    rw [hinsert, getElem?_insert, ih]
    cases hgives : gives code e <;> simp [lastGiven?, hgives]

theorem getElem?_ofEntries (entries : List RateEntry) (code : String) :
    (ofEntries entries).rates[code]? = lastGiven? code entries := by
  rw [ofEntries, getElem?_insertAll]
  simp [empty]

/-- The rate is that of an entry with none behind it that gives one. -/
theorem lastGiven?_eq_some_iff {code : String} {entries : List RateEntry} {rate : Decimal} :
    lastGiven? code entries = some rate ↔ ∃ before e after, entries = before ++ e :: after ∧
      gives code e = true ∧ e.2 = rate ∧ ∀ e' ∈ after, ¬gives code e' = true := by
  rw [lastGiven?, List.getLast?_filter, Option.map_eq_some_iff]
  constructor
  · rintro ⟨e, hfind, hrate⟩
    obtain ⟨hgives, after, before, hsplit, hafter⟩ := List.find?_eq_some_iff_append.mp hfind
    refine ⟨before.reverse, e, after.reverse, ?_, hgives, hrate, fun e' he' => ?_⟩
    · rw [← List.reverse_reverse entries, hsplit]
      simp
    · simpa using hafter e' (List.mem_reverse.mp he')
  · rintro ⟨before, e, after, rfl, hgives, hrate, hafter⟩
    refine ⟨e, List.find?_eq_some_iff_append.mpr ⟨hgives, after.reverse, before.reverse, ?_, ?_⟩,
      hrate⟩
    · simp
    · intro e' he'
      simpa using hafter e' (List.mem_reverse.mp he')

theorem exists_of_lastGiven?_eq_some {code : String} {entries : List RateEntry} {rate : Decimal}
    (h : lastGiven? code entries = some rate) :
    ∃ e ∈ entries, gives code e = true ∧ e.2 = rate := by
  obtain ⟨before, e, after, rfl, hgives, hrate, -⟩ := lastGiven?_eq_some_iff.mp h
  exact ⟨e, by simp, hgives, hrate⟩

theorem lastGiven?_eq_none_iff {code : String} {entries : List RateEntry} :
    lastGiven? code entries = none ↔ ∀ e ∈ entries, gives code e = false := by
  simp [lastGiven?]

theorem lastGiven?_concat (entries : List RateEntry) {e : RateEntry} {code : String}
    (h : gives code e = true) : lastGiven? code (entries ++ [e]) = some e.2 := by
  simp [lastGiven?, h]

/-! ## 3. Entries under different codes -/

/-- No two of the entries are spellings of one code. -/
def SpelledOnce {α : Type} (entries : List (String × α)) : Prop :=
  entries.Pairwise fun e e' => Text.normalize e.1 ≠ Text.normalize e'.1

section

variable {α β : Type} {es es' : List (String × α)}

theorem SpelledOnce.perm (h : SpelledOnce es) (hperm : es.Perm es') : SpelledOnce es' :=
  (hperm.pairwise_iff Ne.symm).mp h

/-- The entries with their values converted, without those that cannot be. -/
theorem SpelledOnce.filterMap (h : SpelledOnce es) (f : α → Option β) :
    SpelledOnce (es.filterMap fun e => (f e.2).map (e.1, ·)) := by
  refine List.Pairwise.filterMap _ (fun a a' hne b hb b' hb' => ?_) h
  obtain ⟨y, -, rfl⟩ := Option.map_eq_some_iff.mp hb
  obtain ⟨y', -, rfl⟩ := Option.map_eq_some_iff.mp hb'
  exact hne

theorem SpelledOnce.eq_of_mem (h : SpelledOnce es) {e e' : String × α} (he : e ∈ es)
    (he' : e' ∈ es) (hcode : Text.normalize e.1 = Text.normalize e'.1) : e = e' :=
  List.inj_on_of_nodup_map (List.pairwise_map.mpr h) he he' hcode

end

/-- **A code that is spelled once** has the rate that is given for it. -/
theorem SpelledOnce.lastGiven?_eq_some_iff {entries : List RateEntry} (h : SpelledOnce entries)
    {code : String} {rate : Decimal} :
    lastGiven? code entries = some rate ↔
      ∃ e ∈ entries, gives code e = true ∧ e.2 = rate := by
  refine ⟨exists_of_lastGiven?_eq_some, ?_⟩
  rintro ⟨e, he, hgives, rfl⟩
  cases hlast : lastGiven? code entries with
  | none => simp [lastGiven?_eq_none_iff.mp hlast e he] at hgives
  | some rate =>
    obtain ⟨e', he', hgives', rfl⟩ := exists_of_lastGiven?_eq_some hlast
    rw [h.eq_of_mem he he' ((gives_iff.mp hgives).2.trans (gives_iff.mp hgives').2.symm)]

/-- **Converted entries under different codes**: a code has the value of the entry that spells
it, if that is a rate that a table takes. -/
theorem SpelledOnce.getElem?_ofEntries_iff {α : Type} {es : List (String × α)}
    (h : SpelledOnce es) {f : α → Option Decimal} {code : String} {rate : Decimal} :
    (ofEntries (es.filterMap fun e => (f e.2).map (e.1, ·))).rates[code]? = some rate ↔
      ∃ e ∈ es, Text.normalize e.1 = code ∧ f e.2 = some rate ∧ rate.isNegative = false := by
  rw [getElem?_ofEntries, (h.filterMap f).lastGiven?_eq_some_iff]
  constructor
  · rintro ⟨e', he', hgives, rfl⟩
    obtain ⟨e, he, hconverted⟩ := List.mem_filterMap.mp he'
    obtain ⟨rate, hrate, rfl⟩ := Option.map_eq_some_iff.mp hconverted
    obtain ⟨hsign, hcode⟩ := gives_iff.mp hgives
    exact ⟨e, he, hcode, hrate, hsign⟩
  · rintro ⟨e, he, hcode, hrate, hsign⟩
    exact ⟨(e.1, rate), List.mem_filterMap.mpr ⟨e, he, by rw [hrate, Option.map_some]⟩,
      gives_iff.mpr ⟨hsign, hcode⟩, rfl⟩

/-- The entries of a table, its codes all different. -/
theorem nodup_entries (t : RateTable) : t.entries.Nodup := by
  refine Std.ExtTreeMap.distinct_keys_toList.imp fun hne heq => hne ?_
  rw [heq]
  exact Std.ReflCmp.compare_self

/-- **Entries under different codes** are all kept, but for the rates below zero. -/
theorem SpelledOnce.entries_perm {entries : List RateEntry} (h : SpelledOnce entries) :
    (ofEntries entries).entries.Perm
      ((entries.filter (accepts ·.2)).map fun e => (Text.normalize e.1, e.2)) := by
  have hnodup : ((entries.filter (accepts ·.2)).map fun e => (Text.normalize e.1, e.2)).Nodup :=
    List.pairwise_map.mpr
      ((h.sublist List.filter_sublist).imp fun hne heq => hne (congrArg Prod.fst heq))
  refine (List.perm_ext_iff_of_nodup (nodup_entries _) hnodup).mpr fun e => ?_
  obtain ⟨code, rate⟩ := e
  rw [mem_entries_iff, getElem?_ofEntries, h.lastGiven?_eq_some_iff]
  simp only [List.mem_map, List.mem_filter, Prod.mk.injEq, gives, Bool.and_eq_true, beq_iff_eq,
    and_assoc]

theorem SpelledOnce.size_ofEntries {es : List RateEntry} (h : SpelledOnce es) :
    (ofEntries es).size = es.countP (accepts ·.2) := by
  have hlength := h.entries_perm.length_eq
  rwa [entries, Std.ExtTreeMap.length_toList, List.length_map, ← List.countP_eq_length_filter]
    at hlength

end CurrencyPad.RateTable
