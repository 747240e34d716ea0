/-
CurrencyPad.Proofs.Event.RoundTrip — announcements that are written and
read back.

The text of an announced session is a JSON record, and each of its fields
is read as it was written, except the two decimals: these are written as
doubles, and read with two roundings more (`ofText?_conversionUpdated`).
So an announcement comes back if and only if its decimals survive that
(`roundTrips_conversionUpdated_iff`). Those of up to fifteen digits do; a
third does not.
-/
import CurrencyPad.Event.Json
import CurrencyPad.Proofs.Json.Decimal
import CurrencyPad.Proofs.Json.Fields
import CurrencyPad.Proofs.Keypad.Announcing

namespace CurrencyPad

open Json

namespace Event

/-! ## 1. One announcement -/

theorem legible_toJson (e : Event) : e.toJson.Legible := by
  cases e with
  | conversionUpdated buffer value converted source target =>
    refine legible_ofFields ?_
    simp [legible_ofOption legible_ofDecimal, legible_ofOption legible_string, legible_ofDecimal]
  | ratesUpdated pivot codes =>
    refine legible_ofFields ?_
    simp [legible_ofTexts]

/-- The fields of an announced session, without the tag. -/
def conversionRecord (buffer : String) (value : Option Decimal) (converted : Decimal)
    (source target : Option String) : List (String × Json) :=
  [("buffer", .string buffer), ("calculated_value", .ofOption .ofDecimal value),
    ("converted_amount", .ofDecimal converted), ("source_code", .ofOption .string source),
    ("target_code", .ofOption .string target)]

/-- **An announced session is read field by field.** All fields are read as they were written,
but for the decimals. -/
theorem ofJson?_conversionUpdated (buffer : String) (value : Option Decimal) (converted : Decimal)
    (source target : Option String) :
    ofJson? (conversionUpdated buffer value converted source target).toJson =
      (value.elim (some none) fun v => ((ofDecimal v).decimal?).map some).bind fun value' =>
        (ofDecimal converted).decimal?.map fun converted' =>
          conversionUpdated buffer value' converted' source target := by
  have hdecimal (d : Option Decimal) : (ofOption ofDecimal d).isPlain 126 = true :=
    isPlain_ofOption (fun d => isPlain_ofDecimal d 126) d
  have htext (s : Option String) : (ofOption .string s).isPlain 126 = true :=
    isPlain_ofOption (fun s => isPlain_string s 126) s
  have htagged : (conversionUpdated buffer value converted source target).toJson.tagged? "type" =
      some ("conversion_updated",
        ofFields (conversionRecord buffer value converted source target)) := by
    refine tagged?_ofFields ?_ ?_ ?_
    · simp
    · simp [hdecimal, htext, isPlain_ofDecimal]
    · rfl
  have hfields : (ofFields (conversionRecord buffer value converted source target)).completeFields?
      conversionFields =
        some [some (.string buffer), some (.ofOption .ofDecimal value),
          some (.ofDecimal converted), some (.ofOption .string source),
          some (.ofOption .string target)] :=
    completeFields?_ofFields (by simp [conversionRecord]) conversionFields
  have hvalue : Json.optional Json.decimal? (some (ofOption ofDecimal value)) =
      value.elim (some none) fun v => (ofDecimal v).decimal?.map some :=
    optional_ofOption (fun d h => by cases h) value
  have hbuffer : Json.required text? (some (.string buffer)) = some buffer := rfl
  have hconverted : Json.required Json.decimal? (some (.ofDecimal converted)) =
      (ofDecimal converted).decimal? := rfl
  simp only [ofJson?, htagged, hfields, hbuffer, hvalue, hconverted, optional_text,
    Option.bind_eq_bind, Option.bind_some]
  refine Option.bind_congr fun value' _ => ?_
  cases (ofDecimal converted).decimal? <;> rfl

/-- **An announced session is read from its text** as it was written, but for the decimals. -/
theorem ofText?_conversionUpdated (buffer : String) (value : Option Decimal)
    (converted : Decimal) (source target : Option String) :
    ofText? (conversionUpdated buffer value converted source target).text =
      (value.elim (some none) fun v => ((ofDecimal v).decimal?).map some).bind fun value' =>
        (ofDecimal converted).decimal?.map fun converted' =>
          conversionUpdated buffer value' converted' source target := by
  rw [ofText?, text, parse?_render (legible_toJson _), Option.bind_some,
    ofJson?_conversionUpdated]

/-- What is read back from the text of the announcement is the same announcement, numbers
compared by value. -/
def RoundTrips (e : Event) : Prop := (ofText? e.text).any e.same = true

instance (e : Event) : Decidable e.RoundTrips := inferInstanceAs (Decidable (_ = _))

/-- **An announced session comes back** when its decimals survive as doubles, and only then. -/
theorem roundTrips_conversionUpdated_iff (buffer : String) (value : Option Decimal)
    (converted : Decimal) (source target : Option String) :
    (conversionUpdated buffer value converted source target).RoundTrips ↔
      (∀ v, value = some v → v.SurvivesDouble) ∧ converted.SurvivesDouble := by
  rw [RoundTrips, ofText?_conversionUpdated, Decimal.survivesDouble_iff]
  cases value with
  | none => cases (ofDecimal converted).decimal? <;> simp [same]
  | some v =>
    simp only [Option.some.injEq, forall_eq', Decimal.survivesDouble_iff, Option.elim_some]
    cases (ofDecimal v).decimal? with
    | none => simp
    | some v' => cases (ofDecimal converted).decimal? <;> simp [same, and_comm]

end Event

/-! ## 2. What a session announces -/

namespace Session

/-- **Announcements that survive their text.** What an operation announces is read back as the
same announcement if and only if the value and the converted amount that it leads to survive
as doubles. Decimals of up to fifteen digits, with up to twenty-two places, do. -/
theorem announced_roundTrips_iff {s : Session} {a : Action} {e : Event}
    (he : e ∈ (s.act a).events) :
    (e.RoundTrips ↔ (∀ v, (s.act a).state.value = some v → v.SurvivesDouble) ∧
      (s.act a).state.converted.SurvivesDouble) ∧
    ((∀ v, (s.act a).state.value = some v → v.Short) → (s.act a).state.converted.Short →
      e.RoundTrips) := by
  obtain rfl : e = (s.act a).state.announcement := by
    rcases s.act_cases a with ⟨-, hevents, -⟩ | ⟨-, hevents⟩ <;> rw [hevents] at he
    · cases he
    · exact List.mem_singleton.mp he
  have hiff := Event.roundTrips_conversionUpdated_iff (s.act a).state.text (s.act a).state.value
    (s.act a).state.converted ((s.act a).state.source.map (·.code))
    ((s.act a).state.target.map (·.code))
  refine ⟨hiff, fun hvalue hconverted => hiff.mpr ⟨fun v hv => ?_, ?_⟩⟩
  · exact Decimal.survivesDouble_of_short (hvalue v hv)
  · exact Decimal.survivesDouble_of_short hconverted

/-- Twelve and a half dollars at nine tenths of a euro. -/
theorem announced_roundTrips_amount :
    ∃ e ∈ ((quotedSession { coeff := 9, scale := 1 }).act (.setBuffer "12.5")).events,
      e = .conversionUpdated "12.5" (some { coeff := 125, scale := 1 })
        { coeff := 1125, scale := 2 } (some "USD") (some "EUR") ∧ e.RoundTrips := by
  refine ⟨_, List.mem_singleton_self _, by decide +kernel, ?_⟩
  refine (announced_roundTrips_iff (s := quotedSession { coeff := 9, scale := 1 })
    (a := .setBuffer "12.5") (List.mem_singleton_self _)).2 (fun v hv => ?_) (by decide +kernel)
  have hvalue : ((quotedSession { coeff := 9, scale := 1 }).act (.setBuffer "12.5")).state.value =
      some { coeff := 125, scale := 1 } := by decide +kernel
  obtain rfl := Option.some.inj (hvalue.symm.trans hv)
  decide

/-- A third has more digits than a double. -/
theorem not_announced_roundTrips_third :
    ¬∀ s : Session, s.Reachable → ∀ a, ∀ e ∈ (s.act a).events, e.RoundTrips := by
  intro h
  have hthird := h _ (Reachable.new.run [.press (.digit '1'), .press (.operator .divide)])
    (.press (.digit '3')) _ (List.mem_singleton_self _)
  revert hthird
  decide +kernel

end Session
end CurrencyPad
