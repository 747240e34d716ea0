/-
CurrencyPad.Event.Basic — what observers are told.

Two things are announced: the state of a session after it was recomputed,
and the codes whose rates a refresh has written.
-/
import CurrencyPad.Decimal.Basic

namespace CurrencyPad

/-- An announcement. -/
inductive Event
  /-- A session was recomputed. There is no value while the buffer does not
  evaluate. -/
  | conversionUpdated (buffer : String) (value : Option Decimal) (converted : Decimal)
      (source target : Option String)
  /-- A refresh has written rates relative to the pivot. -/
  | ratesUpdated (pivot : String) (codes : List String)
deriving DecidableEq

/-- The same announcement, numbers compared by value. -/
def Event.same : Event → Event → Bool
  | conversionUpdated b v c s t, conversionUpdated b' v' c' s' t' =>
    b == b' && c.sameValue c' && s == s' && t == t' &&
      (match v, v' with
      | some x, some x' => x.sameValue x'
      | none, none => true
      | _, _ => false)
  | ratesUpdated p cs, ratesUpdated p' cs' => p == p' && cs == cs'
  | _, _ => false

end CurrencyPad
