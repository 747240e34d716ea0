/-
CurrencyPad.Proofs.Settings.RoundTrip — settings that are checked, written
and read back.

`validate` accepts the settings whose three codes are spellings of valid
codes and whose digit counts a decimal can carry (`Valid`), and makes of
them the ones with canonical codes (`validate_eq_ok_iff`), which it
leaves as they are. Their text is read as the settings that were written;
it still is when its fields are put in any order and some that have their
default are left out (`validates_and_roundTrips`).

## How the proof goes

* The check of a code and the check of a count say when they succeed
  (`canonicalCode_eq_ok_iff`, `checkDigits_eq_ok_iff`), and a canonical
  code is a spelling of itself.
* A text is read field by field. A field stands in the text, or it was
  left out, which is only done when it is the default's field
  (`Abbreviates`); in either case it is read as what it was
  (`Json.orElse_lookup`).
-/
import CurrencyPad.Proofs.Currency.Code
import CurrencyPad.Proofs.Json.Fields
import CurrencyPad.Proofs.Json.Numeral
import CurrencyPad.Proofs.Json.RoundTrip
import CurrencyPad.Settings.Json

namespace CurrencyPad

/-! ## 1. Checks -/

theorem Except.bind_eq_ok_iff {ε α β : Type} {x : Except ε α} {f : α → Except ε β} {b : β} :
    x >>= f = .ok b ↔ ∃ a, x = .ok a ∧ f a = .ok b := by
  cases x <;> simp [bind, Except.bind]

/-- Three to five ASCII letters and digits, with blanks around them or not. -/
def SpellsCode (code : String) : Prop :=
  let cs := Text.trimChars code.toList
  3 ≤ cs.length ∧ cs.length ≤ 5 ∧ ∀ c ∈ cs, c.isAlphanum = true

theorem isCode_iff {code : String} :
    isCode (Text.trimChars code.toList) = true ↔ SpellsCode code := by
  simp [isCode, SpellsCode, and_assoc]

theorem canonicalCode_eq_ok_iff {code canonical : String} :
    canonicalCode code = .ok canonical ↔ SpellsCode code ∧ Text.normalize code = canonical := by
  rw [← isCode_iff, ← canonicalCode?_eq_some_iff, canonicalCode]
  cases canonicalCode? code <;> simp

theorem SpellsCode.normalize {code : String} (h : SpellsCode code) :
    SpellsCode (Text.normalize code) := by
  rw [← isCode_iff] at h ⊢
  rw [Text.normalize, String.toList_ofList, Text.normalizeChars, Text.trimChars_map_toUpper,
    isCode_map_toUpper]
  exact h

namespace Settings

theorem checkDigits_eq_ok_iff {name : String} {digits : Nat} :
    checkDigits name digits = .ok () ↔ digits ≤ maxScale := by
  unfold checkDigits
  split <;> simp_all

/-! ## 2. Valid settings -/

/-- The codes are spellings of valid codes, and a decimal can carry the digit counts. -/
structure Valid (s : Settings) : Prop where
  pivot : SpellsCode s.pivot
  source : SpellsCode s.source
  target : SpellsCode s.target
  amountDigits : s.amountDigits ≤ 28
  rateDigits : s.rateDigits ≤ 28

/-- The same settings, the codes without the blanks around them and in upper case. -/
def canonical (s : Settings) : Settings :=
  { s with
    pivot := Text.normalize s.pivot
    source := Text.normalize s.source
    target := Text.normalize s.target }

@[simp] theorem amountDigits_canonical (s : Settings) :
    s.canonical.amountDigits = s.amountDigits := by
  rw [canonical]

@[simp] theorem rateDigits_canonical (s : Settings) : s.canonical.rateDigits = s.rateDigits := by
  rw [canonical]

/-- **Settings pass the check** when they are valid, and with canonical codes. -/
theorem validate_eq_ok_iff {s t : Settings} :
    s.validate = .ok t ↔ Valid s ∧ t = s.canonical := by
  simp only [validate, Except.bind_eq_ok_iff, canonicalCode_eq_ok_iff]
  constructor
  · rintro ⟨_, ⟨hpivot, rfl⟩, _, ⟨hsource, rfl⟩, _, ⟨htarget, rfl⟩, _, hamount, _, hrate, heq⟩
    exact ⟨⟨hpivot, hsource, htarget, checkDigits_eq_ok_iff.mp hamount,
      checkDigits_eq_ok_iff.mp hrate⟩, (Except.ok.inj heq).symm⟩
  · rintro ⟨h, rfl⟩
    exact ⟨_, ⟨h.pivot, rfl⟩, _, ⟨h.source, rfl⟩, _, ⟨h.target, rfl⟩,
      (), checkDigits_eq_ok_iff.mpr h.amountDigits, (), checkDigits_eq_ok_iff.mpr h.rateDigits, rfl⟩

theorem Valid.canonical {s : Settings} (h : Valid s) : Valid s.canonical where
  pivot := h.pivot.normalize
  source := h.source.normalize
  target := h.target.normalize
  amountDigits := by simpa using h.amountDigits
  rateDigits := by simpa using h.rateDigits

@[simp] theorem canonical_canonical (s : Settings) : s.canonical.canonical = s.canonical := by
  simp [canonical]

theorem Valid.validate_canonical {s : Settings} (h : Valid s) :
    s.canonical.validate = .ok s.canonical :=
  validate_eq_ok_iff.mpr ⟨h.canonical, s.canonical_canonical.symm⟩

/-! ## 3. Texts -/

/-- The fields of a record of settings. -/
def record (s : Settings) : List (String × Json) :=
  [("pivotCurrency", .string s.pivot), ("defaultSourceCurrency", .string s.source),
    ("defaultTargetCurrency", .string s.target),
    ("amountFractionDigits", .number (.ofInt s.amountDigits)),
    ("rateFractionDigits", .number (.ofInt s.rateDigits))]

theorem toJson_eq (s : Settings) : s.toJson = .ofFields s.record := rfl

theorem nodup_record (s : Settings) : (s.record.map Prod.fst).Nodup := by
  simp [record]

/-- The fields of settings in any order, some left out that are as in the default settings. -/
def Abbreviates (fields : List (String × Json)) (s : Settings) : Prop :=
  ∃ dropped, (fields ++ dropped).Perm s.record ∧ ∀ f ∈ dropped, f ∈ ({} : Settings).record

theorem abbreviates_record (s : Settings) : Abbreviates s.record s :=
  ⟨[], by simp, by simp⟩

variable {s : Settings} {fields : List (String × Json)}

theorem Abbreviates.nodup (h : Abbreviates fields s) : (fields.map Prod.fst).Nodup := by
  obtain ⟨dropped, hperm, -⟩ := h
  have hnodup := (hperm.map Prod.fst).nodup_iff.mpr s.nodup_record
  rw [List.map_append, List.nodup_append] at hnodup
  exact hnodup.1

/-- A field that stands in the record is read as it was written, and one that was left out was
the default's. -/
theorem orElse_of_abbreviates {α : Type} {read : Json → Option α} {default x : α} {name : String}
    (h : Abbreviates fields s) (hfield : (s.record.lookup name).bind read = some x)
    (hdefault : (({} : Settings).record.lookup name).bind read = some default) :
    Json.orElse default read (fields.lookup name) = some x := by
  obtain ⟨dropped, hperm, hdropped⟩ := h
  have hnames := (hperm.map Prod.fst).nodup_iff.mpr s.nodup_record
  obtain ⟨v, hlookup, hread⟩ := Option.bind_eq_some_iff.mp hfield
  have hmem := hperm.mem_iff.mpr (Json.mem_of_lookup hlookup)
  refine Json.orElse_lookup hnames hmem hread fun hleft => ?_
  rw [Json.lookup_of_mem (nodup_record _) (hdropped _ hleft)] at hdefault
  exact Option.some.inj (hread.symm.trans hdefault)

/-- **A record of settings** is read as the settings, before they are checked. -/
theorem ofJson?_ofFields (h : Abbreviates fields s) (hamount : s.amountDigits ≤ 4294967295)
    (hrate : s.rateDigits ≤ 4294967295) : ofJson? (.ofFields fields) = some s := by
  have hfields : (Json.ofFields fields).fields? fieldNames =
      some [fields.lookup "pivotCurrency", fields.lookup "defaultSourceCurrency",
        fields.lookup "defaultTargetCurrency", fields.lookup "amountFractionDigits",
        fields.lookup "rateFractionDigits"] := Json.fields?_ofFields h.nodup fieldNames
  have hpivot : Json.orElse "USD" Json.text? (fields.lookup "pivotCurrency") = some s.pivot :=
    orElse_of_abbreviates h rfl rfl
  have hsource : Json.orElse "JPY" Json.text? (fields.lookup "defaultSourceCurrency") =
      some s.source := orElse_of_abbreviates h rfl rfl
  have htarget : Json.orElse "USD" Json.text? (fields.lookup "defaultTargetCurrency") =
      some s.target := orElse_of_abbreviates h rfl rfl
  have hamount : Json.orElse 2 Json.count? (fields.lookup "amountFractionDigits") =
      some s.amountDigits := orElse_of_abbreviates h (Json.count?_ofInt hamount) rfl
  have hrate : Json.orElse 5 Json.count? (fields.lookup "rateFractionDigits") =
      some s.rateDigits := orElse_of_abbreviates h (Json.count?_ofInt hrate) rfl
  simp only [ofJson?, hfields, hpivot, hsource, htarget, hamount, hrate, Option.bind_eq_bind,
    Option.bind_some]
  rfl

theorem legible_of_mem_record {f : String × Json} (h : f ∈ s.record) : f.2.Legible := by
  have hcount (n : Nat) : (Json.number (.ofInt n)).Legible :=
    (Json.Numeral.wellFormed_ofInt n).legible
  revert f
  simp [record, hcount]

theorem legible_of_abbreviates (h : Abbreviates fields s) : (Json.ofFields fields).Legible := by
  obtain ⟨dropped, hperm, -⟩ := h
  refine Json.legible_ofFields fun f hf => legible_of_mem_record (s := s) ?_
  exact hperm.mem_iff.mp (List.mem_append_left _ hf)

/-- **A text of valid settings** is read as the settings with canonical codes. -/
theorem Valid.ofText_render (hs : Valid s) (h : Abbreviates fields s) :
    ofText (Json.ofFields fields).render = .ok s.canonical := by
  have hamount := hs.amountDigits
  have hrate := hs.rateDigits
  rw [ofText, Json.parse?_render (legible_of_abbreviates h), Option.bind_some,
    ofJson?_ofFields h (by omega) (by omega)]
  exact validate_eq_ok_iff.mpr ⟨hs, rfl⟩

/-- What the check leaves of settings. -/
structure Checked (s t : Settings) : Prop where
  pivot : t.pivot = Text.normalize s.pivot
  source : t.source = Text.normalize s.source
  target : t.target = Text.normalize s.target
  amountDigits : t.amountDigits = s.amountDigits
  rateDigits : t.rateDigits = s.rateDigits
  /-- To check them again changes nothing. -/
  again : t.validate = .ok t
  /-- Their text is read as them. -/
  written : ofText t.text = .ok t
  /-- So is any other text of theirs, whatever the order of its fields, whichever of those that
  have their default are left out. -/
  abbreviated : ∀ fields, Abbreviates fields t → ofText (Json.ofFields fields).render = .ok t

/-- **Settings that were checked** are canonical and survive their text. The check succeeds just
on valid settings. -/
theorem validates_and_roundTrips (s : Settings) :
    ((∃ t, s.validate = .ok t) ↔ Valid s) ∧ ∀ t, s.validate = .ok t → Checked s t := by
  refine ⟨⟨?_, fun h => ⟨_, validate_eq_ok_iff.mpr ⟨h, rfl⟩⟩⟩, fun t ht => ?_⟩
  · rintro ⟨t, ht⟩
    exact (validate_eq_ok_iff.mp ht).1
  · obtain ⟨hvalid, rfl⟩ := validate_eq_ok_iff.mp ht
    have htext (fields : List (String × Json)) (h : Abbreviates fields s.canonical) :
        ofText (Json.ofFields fields).render = .ok s.canonical := by
      rw [hvalid.canonical.ofText_render h, canonical_canonical]
    have hwritten : ofText s.canonical.text = .ok s.canonical := by
      rw [text, toJson_eq]
      exact htext _ (abbreviates_record _)
    exact ⟨rfl, rfl, rfl, amountDigits_canonical s, rateDigits_canonical s,
      hvalid.validate_canonical, hwritten, htext⟩

/-- A pivot with blanks around it and in lower case, and another number of digits. -/
def eurozone : Settings := { pivot := " eur\t", rateDigits := 4 }

/-- The two fields that are not the default's, the last one first. -/
theorem validates_and_roundTrips_eurozone :
    eurozone.validate = .ok { pivot := "EUR", rateDigits := 4 } ∧
      Abbreviates [("rateFractionDigits", .number (.ofInt 4)), ("pivotCurrency", .string "EUR")]
        { pivot := "EUR", rateDigits := 4 } ∧
      ofText "\x7b\"rateFractionDigits\":4,\"pivotCurrency\":\"EUR\"\x7d" =
        .ok { pivot := "EUR", rateDigits := 4 } := by
  have hvalidate : eurozone.validate = .ok { pivot := "EUR", rateDigits := 4 } := by
    decide +kernel
  have hfields : Abbreviates
      [("rateFractionDigits", .number (.ofInt 4)), ("pivotCurrency", .string "EUR")]
      { pivot := "EUR", rateDigits := 4 } := by
    refine ⟨[("defaultSourceCurrency", .string "JPY"), ("defaultTargetCurrency", .string "USD"),
      ("amountFractionDigits", .number (.ofInt 2))], ?_, by simp [record]⟩
    exact (List.perm_append_singleton _ [_, _, _, _]).symm
  have htext : (Json.ofFields [("rateFractionDigits", .number (.ofInt 4)),
      ("pivotCurrency", .string "EUR")]).render =
        "\x7b\"rateFractionDigits\":4,\"pivotCurrency\":\"EUR\"\x7d" := by
    decide +kernel
  refine ⟨hvalidate, hfields, ?_⟩
  rw [← htext]
  exact ((validates_and_roundTrips eurozone).2 _ hvalidate).abbreviated _ hfields

end Settings
end CurrencyPad
