/-
CurrencyPad.Proofs.Refresh.Reporting — what a refresh reports is read back
from its text.

A refresh reports its outcome to the one who asked for it, and the codes
it has written to the observers. Both reports are tagged JSON records
without numbers, and are read as they were written, whatever the texts and
the time in them (`reports_roundTrip`). The fields of such a record may
stand in any order; in particular the tag may stand anywhere.

The time of an outcome must be one there is (`IsDated`), which a time that
was taken from a clock always is.
-/
import CurrencyPad.Event.Json
import CurrencyPad.Proofs.Json.Decimal
import CurrencyPad.Proofs.Json.Fields
import CurrencyPad.Proofs.Timestamp.RoundTrip
import CurrencyPad.Refresh.Outcome

namespace CurrencyPad

open Json

/-! ## 1. Times in JSON -/

theorem Json.required_ofTimestamp {t : Timestamp} (h : t.isValid = true) :
    Json.required timestamp? (some (ofTimestamp t)) = some t := by
  have htext : (ofTimestamp t).text? = some t.text := rfl
  rw [Json.required, Option.bind_some, timestamp?, htext, Option.bind_some,
    Timestamp.ofText?_text h]

/-! ## 2. Outcomes -/

namespace RefreshOutcome

/-- The time of writing, if there is one, is a point in time. -/
def IsDated : RefreshOutcome → Prop
  | applied _ _ time => time.isValid = true
  | alreadyInFlight => True

instance (o : RefreshOutcome) : Decidable o.IsDated := by
  cases o <;> unfold IsDated <;> infer_instance

/-- The fields of an outcome, the tag first. -/
def record : RefreshOutcome → List (String × Json)
  | applied updated stale time =>
    [("status", .string "applied"), ("updated", .ofTexts updated), ("stale", .ofTexts stale),
      ("refreshedAt", .ofTimestamp time)]
  | alreadyInFlight => [("status", .string "alreadyInFlight")]

theorem toJson_eq (o : RefreshOutcome) : o.toJson = .ofFields o.record := by
  cases o <;> rfl

theorem nodup_record (o : RefreshOutcome) : (o.record.map Prod.fst).Nodup := by
  cases o <;> simp [record]

theorem isPlain_of_mem_record {o : RefreshOutcome} {f : String × Json} (h : f ∈ o.record) :
    f.2.isPlain 126 = true := by
  revert f
  cases o <;> simp [record, ofTimestamp, isPlain_ofTexts]

theorem legible_of_mem_record {o : RefreshOutcome} {f : String × Json} (h : f ∈ o.record) :
    f.2.Legible := by
  revert f
  cases o <;> simp [record, ofTimestamp, legible_ofTexts]

variable {o : RefreshOutcome} {fields : List (String × Json)}

/-- **An outcome is read from its record**, whatever the order of the fields. -/
theorem ofJson?_ofFields (ho : o.IsDated) (h : fields.Perm o.record) :
    ofJson? (ofFields fields) = some o := by
  cases o with
  | applied updated stale time =>
    obtain ⟨rest, htagged, -, hfields⟩ :=
      exists_tagged?_of_perm "status" "applied" appliedFields h
        (nodup_record _) (fun f => isPlain_of_mem_record) rfl (by simp [appliedFields])
    have hlookup : appliedFields.map ((record (applied updated stale time)).lookup ·) =
        [some (.ofTexts updated), some (.ofTexts stale), some (.ofTimestamp time)] := rfl
    simp only [ofJson?, htagged, hfields, hlookup, required_ofTexts, required_ofTimestamp ho,
      Option.bind_eq_bind, Option.bind_some]
    rfl
  | alreadyInFlight =>
    obtain ⟨rest, htagged, hunit, -⟩ :=
      exists_tagged?_of_perm "status" "alreadyInFlight" [] h
        (nodup_record _) (fun f => isPlain_of_mem_record) rfl (by simp)
    simp only [ofJson?, htagged, hunit, Option.bind_eq_bind, Option.bind_some, if_true]

/-- **An outcome is read from its text**, whatever the order of the fields. -/
theorem ofText?_render (ho : o.IsDated) (h : fields.Perm o.record) :
    ofText? (ofFields fields).render = some o := by
  have hlegible : (ofFields fields).Legible :=
    legible_ofFields fun f hf => legible_of_mem_record (h.mem_iff.mp hf)
  rw [ofText?, parse?_render hlegible, Option.bind_some, ofJson?_ofFields ho h]

end RefreshOutcome

/-! ## 3. Announced codes -/

namespace Event

/-- The fields of announced codes, the tag first. -/
def ratesRecord (pivot : String) (codes : List String) : List (String × Json) :=
  [("type", .string "rates_updated"), ("pivot_currency", .string pivot),
    ("currency_codes", .ofTexts codes)]

variable {pivot : String} {codes : List String} {fields : List (String × Json)}

/-- **Announced codes are read from their text**, whatever the order of the fields. -/
theorem ofText?_ratesUpdated (h : fields.Perm (ratesRecord pivot codes)) :
    ofText? (ofFields fields).render = some (ratesUpdated pivot codes) := by
  have hrecord : ∀ f ∈ ratesRecord pivot codes, f.2.Legible := by
    simp [ratesRecord, legible_ofTexts]
  have hlegible : (ofFields fields).Legible :=
    legible_ofFields fun f hf => hrecord f (h.mem_iff.mp hf)
  have hplain : ∀ f ∈ ratesRecord pivot codes, f.2.isPlain 126 = true := by
    simp [ratesRecord, isPlain_ofTexts]
  obtain ⟨rest, htagged, -, hfields⟩ :=
    exists_tagged?_of_perm "type" "rates_updated" ratesFields h
      (by simp [ratesRecord]) hplain rfl (by simp [ratesFields])
  have hlookup : ratesFields.map ((ratesRecord pivot codes).lookup ·) =
      [some (.string pivot), some (.ofTexts codes)] := rfl
  have hpivot : Json.required text? (some (.string pivot)) = some pivot := rfl
  rw [ofText?, parse?_render hlegible, Option.bind_some]
  simp only [ofJson?, htagged, hfields, hlookup, hpivot, required_ofTexts,
    Option.bind_eq_bind, Option.bind_some]
  rfl

end Event

/-! ## 4. Both reports -/

/-- **The reports of a refresh survive their texts.** An outcome whose time there is, and the
announcement of any codes, are read as they were written; so they are from any text that has
the same fields in another order, such as with the tag at another place. -/
theorem reports_roundTrip :
    (∀ o : RefreshOutcome, o.IsDated → RefreshOutcome.ofText? o.text = some o ∧
      ∀ fields, fields.Perm o.record →
        RefreshOutcome.ofText? (ofFields fields).render = some o) ∧
    ∀ pivot codes,
      Event.ofText? (Event.ratesUpdated pivot codes).text = some (.ratesUpdated pivot codes) ∧
      ∀ fields, fields.Perm (Event.ratesRecord pivot codes) →
        Event.ofText? (ofFields fields).render = some (.ratesUpdated pivot codes) := by
  constructor
  · intro o ho
    refine ⟨?_, fun fields h => RefreshOutcome.ofText?_render ho h⟩
    rw [RefreshOutcome.text, o.toJson_eq]
    exact RefreshOutcome.ofText?_render ho (List.Perm.refl _)
  · intro pivot codes
    exact ⟨Event.ofText?_ratesUpdated (List.Perm.refl _),
      fun fields h => Event.ofText?_ratesUpdated h⟩

/-- Codes that need escapes, and a time just before midnight. -/
def oddOutcome : RefreshOutcome :=
  .applied ["€\n"] [] ⟨2023, 12, 31, 23, 59, 59, 120000000⟩

/-- The tag stands last. -/
theorem reports_roundTrip_oddOutcome :
    oddOutcome.IsDated ∧
      oddOutcome.text = "\x7b\"status\":\"applied\",\"updated\":[\"€\\n\"],\"stale\":[]," ++
        "\"refreshedAt\":\"2023-12-31T23:59:59.120Z\"\x7d" ∧
      RefreshOutcome.ofText? oddOutcome.text = some oddOutcome ∧
      RefreshOutcome.ofText? ("\x7b\"updated\":[\"€\\n\"],\"stale\":[]," ++
        "\"refreshedAt\":\"2023-12-31T23:59:59.120Z\",\"status\":\"applied\"\x7d") =
          some oddOutcome := by
  obtain ⟨hread, hmoved⟩ := reports_roundTrip.1 oddOutcome (by decide)
  refine ⟨by decide, by decide +kernel, hread, ?_⟩
  exact hmoved (oddOutcome.record.tail ++ oddOutcome.record.take 1) List.perm_append_comm

end CurrencyPad
