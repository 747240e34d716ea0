/-
CurrencyPad.Keypad.Session — the keypad as a state machine.

A session holds the edited buffer and the selected pair of currencies,
and two values derived from them: the value of the buffer and the
converted amount. Every operation that changes the state, and some that
find nothing to change, recompute the derived values and announce the
state; the others leave it as it is and say nothing.

While the buffer does not evaluate there is no value and the converted
amount is zero. Currencies are copies: after a refresh of the rates they
have to be bound anew (`rebind`).
-/
import CurrencyPad.Keypad.Buffer
import CurrencyPad.Conversion
import CurrencyPad.Display
import CurrencyPad.Event.Basic
import CurrencyPad.Settings.Basic

namespace CurrencyPad

/-! ## 1. State -/

/-- The state of a keypad session. -/
structure Session where
  buffer : Buffer := Buffer.blank
  source : Option Currency := none
  target : Option Currency := none
  /-- The value of the buffer. -/
  value : Option Decimal := some .zero
  /-- The value in the target currency. -/
  converted : Decimal := .zero
  format : NumberFormat := {}
  amountDigits : Nat := 2
  rateDigits : Nat := 5
deriving DecidableEq

namespace Session

/-- The text of the buffer. -/
def text (s : Session) : String := String.ofList s.buffer

/-- A value in the target currency; zero without a value or without a pair. -/
def convertedAmount (value : Option Decimal) (source target : Option Currency) : Decimal :=
  match value, source, target with
  | some v, some a, some b => convert v a b
  | _, _, _ => .zero

/-- The session with its derived values computed from its buffer and pair. -/
def recompute (s : Session) : Session :=
  let value := Expression.evaluateChars s.buffer
  { s with value, converted := convertedAmount value s.source s.target }

/-- The announcement of a session's state. -/
def announcement (s : Session) : Event :=
  .conversionUpdated s.text s.value s.converted (s.source.map (·.code)) (s.target.map (·.code))

/-! ## 2. Steps -/

/-- What an operation leads to. -/
structure Step where
  state : Session
  events : List Event := []
  log : List LogLine := []
deriving DecidableEq

/-- Nothing changes and nothing is said. -/
def unchanged (s : Session) : Step := { state := s }

/-- The session is recomputed and announced. -/
def announce (s : Session) : Step :=
  let s := s.recompute
  { state := s, events := [s.announcement] }

/-! ## 3. Editing -/

def clear (s : Session) : Step := announce { s with buffer := Buffer.blank }

def delete (s : Session) : Step := announce { s with buffer := s.buffer.delete }

/-- Puts the value of the buffer in its place, if it has one. -/
def solve (s : Session) : Step :=
  match Expression.evaluateChars s.buffer with
  | some v => announce { s with buffer := v.renderChars }
  | none => s.unchanged

/-- Puts the percentage in the place of the buffer, if there is one. -/
def percent (s : Session) : Step :=
  match s.buffer.percentage? with
  | some v => announce { s with buffer := v.renderChars }
  | none => s.unchanged

/-- Presses a key. -/
def press (s : Session) (key : Key) : Step :=
  match key with
  | .equals => s.solve
  | .percent => s.percent
  | .delete => s.delete
  | .clear => s.clear
  | .digit _ | .point | .operator _ => announce { s with buffer := s.buffer.append key }

/-- Presses the key that a label names. An unknown label is reported. -/
def pressLabel (s : Session) (label : String) : Step :=
  match Key.ofLabel label with
  | .ok key => s.press key
  | .error e => { state := s, log := [⟨.debug, "Ignoring keypad input: " ++ e.message⟩] }

/-- Replaces the buffer by a saved text, replayed key by key. -/
def setBuffer (s : Session) (text : String) : Step :=
  announce { s with buffer := Buffer.restore text.toList }

/-! ## 4. The pair of currencies -/

/-- Exchanges source and target. -/
def swap (s : Session) : Step := announce { s with source := s.target, target := s.source }

def setSource (s : Session) (c : Currency) : Step := announce { s with source := some c }

def setTarget (s : Session) (c : Currency) : Step := announce { s with target := some c }

/-- The copy under the same code, if the list has one. -/
def freshCopy (currencies : List Currency) (selected : Currency) : Currency :=
  (currencies.find? (·.code = selected.code)).getD selected

/-- Replaces the selected currencies by the copies in the list. -/
def rebind (s : Session) (currencies : List Currency) : Step :=
  announce { s with
    source := s.source.map (freshCopy currencies)
    target := s.target.map (freshCopy currencies) }

/-! ## 5. Operations -/

/-- Everything that can be done to a session. -/
inductive Action
  | press (key : Key)
  | pressLabel (label : String)
  | delete
  | solve
  | percent
  | setBuffer (text : String)
  | swap
  | setSource (c : Currency)
  | setTarget (c : Currency)
  | rebind (currencies : List Currency)
deriving DecidableEq

/-- Does one thing to a session. -/
def act (s : Session) : Action → Step
  | .press key => s.press key
  | .pressLabel label => s.pressLabel label
  | .delete => s.delete
  | .solve => s.solve
  | .percent => s.percent
  | .setBuffer text => s.setBuffer text
  | .swap => s.swap
  | .setSource c => s.setSource c
  | .setTarget c => s.setTarget c
  | .rebind currencies => s.rebind currencies

/-- The state after a sequence of operations. -/
def run (s : Session) (actions : List Action) : Session :=
  actions.foldl (fun s a => (s.act a).state) s

/-! ## 6. Starting -/

/-- The first currency of the user's list. -/
def first? : List Currency → Option Currency
  | [] => none
  | c :: r => some (r.foldl (fun best d => if d.displayOrder best = .lt then d else best) c)

/-- The last currency of the user's list. -/
def last? : List Currency → Option Currency
  | [] => none
  | c :: r => some (r.foldl (fun best d => if d.displayOrder best = .lt then best else d) c)

/-- The currency under a code. -/
def find? (currencies : List Currency) (code : String) : Option Currency :=
  currencies.find? (·.code = code)

/-- A session with the configured pair. Where a configured code is not in the
list, the first currency of the list is the source and the last one the target. -/
def start (settings : Settings) (currencies : List Currency) : Session :=
  recompute {
    source := (find? currencies settings.source).or (first? currencies)
    target := (find? currencies settings.target).or (last? currencies)
    amountDigits := settings.amountDigits
    rateDigits := settings.rateDigits }

/-! ## 7. Display -/

/-- One unit of the source, in the target currency. -/
def unitRate? (s : Session) : Option Decimal :=
  match s.source, s.target with
  | some a, some b => some (CurrencyPad.unitRate a b)
  | _, _ => none

/-- The converted amount as it is shown. -/
def displayConverted (s : Session) : String := s.format.format s.amountDigits s.converted

/-- The rate of one unit as it is shown: `1 JPY = 0.00667 USD`. -/
def displayRate? (s : Session) : Option String :=
  match s.source, s.target with
  | some a, some b =>
    some ("1 " ++ a.code ++ " = " ++
      s.format.format s.rateDigits (CurrencyPad.unitRate a b) ++ " " ++ b.code)
  | _, _ => none

end Session
end CurrencyPad
