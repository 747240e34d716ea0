/-
CurrencyPad.Refresh.Outcome — how a refresh of the rates ended.

An applied refresh has written the rates of some currencies and left the
others with the rates they had; a refresh that finds another one running
does nothing. As JSON an outcome is a tagged record.
-/
import CurrencyPad.Json.Decimal

namespace CurrencyPad

/-- How a refresh ended that did not fail. -/
inductive RefreshOutcome
  /-- The codes written, the codes left as they were, and the time of writing. -/
  | applied (updated stale : List String) (time : Timestamp)
  /-- Another refresh was running. -/
  | alreadyInFlight
deriving DecidableEq

namespace RefreshOutcome

def isApplied : RefreshOutcome → Bool
  | applied _ _ _ => true
  | alreadyInFlight => false

def appliedFields : List String := ["updated", "stale", "refreshedAt"]

def toJson : RefreshOutcome → Json
  | applied updated stale time =>
    .ofFields [("status", .string "applied"), ("updated", .ofTexts updated),
      ("stale", .ofTexts stale), ("refreshedAt", .ofTimestamp time)]
  | alreadyInFlight => .ofFields [("status", .string "alreadyInFlight")]

def ofJson? (v : Json) : Option RefreshOutcome := do
  let (tag, record) ← v.tagged? "status"
  match tag with
  | "applied" =>
    match ← record.completeFields? appliedFields with
    | [updated, stale, time] =>
      return applied (← Json.required (Json.list? Json.text?) updated)
        (← Json.required (Json.list? Json.text?) stale)
        (← Json.required Json.timestamp? time)
    | _ => none
  | "alreadyInFlight" => if record.isUnit then some alreadyInFlight else none
  | _ => none

/-- The text of an outcome. -/
def text (o : RefreshOutcome) : String := o.toJson.render

/-- The outcome that a text spells. -/
def ofText? (text : String) : Option RefreshOutcome := (Json.parse? text).bind ofJson?

end RefreshOutcome
end CurrencyPad
