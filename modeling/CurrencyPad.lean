import CurrencyPad.Expression.Evaluation
import CurrencyPad.Display
import CurrencyPad.Keypad.Session
import CurrencyPad.Currency.Color
import CurrencyPad.Currency.Json
import CurrencyPad.Settings.Json
import CurrencyPad.Event.Json
import CurrencyPad.Text.Utf8
import CurrencyPad.Rates.Json
import CurrencyPad.Rates.Response
import CurrencyPad.Rates.Source
import CurrencyPad.Store.Catalog
import CurrencyPad.Refresh.Outcome
import CurrencyPad.Refresh.Basic
import CurrencyPad.Proofs.Expression.RoundTrip
import CurrencyPad.Proofs.Keypad.Sign
import CurrencyPad.Proofs.Keypad.Announcing
import CurrencyPad.Proofs.Refresh.Stopped
import CurrencyPad.Proofs.Refresh.Pivot
import CurrencyPad.Proofs.Refresh.Interleaving
import CurrencyPad.Proofs.Refresh.History
import CurrencyPad.Proofs.Store.Integrity
import CurrencyPad.Proofs.Keypad.Independence
import CurrencyPad.Proofs.Keypad.Rebinding
import CurrencyPad.Proofs.Rates.VisitingOrder
import CurrencyPad.Proofs.Rates.Canonical
import CurrencyPad.Proofs.Keypad.Percentage
import CurrencyPad.Proofs.Event.RoundTrip
import CurrencyPad.Proofs.Conversion.Order
import CurrencyPad.Proofs.Expression.Exactness
import CurrencyPad.Proofs.Keypad.Solving
import CurrencyPad.Proofs.Display.ReadingBack
import CurrencyPad.Proofs.Keypad.Restoring
import CurrencyPad.Proofs.Rates.Decoding
import CurrencyPad.Proofs.Rates.Rebasing
import CurrencyPad.Proofs.Store.Catalog
import CurrencyPad.Proofs.Store.Search
import CurrencyPad.Proofs.Settings.RoundTrip
import CurrencyPad.Proofs.Rates.Contents
import CurrencyPad.Proofs.Keypad.Undoing
import CurrencyPad.Proofs.Expression.Printing
import CurrencyPad.Proofs.Timestamp.RoundTrip
import CurrencyPad.Proofs.Refresh.Reporting
import CurrencyPad.Proofs.Expression.Literal
