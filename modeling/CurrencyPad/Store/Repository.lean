/-
CurrencyPad.Store.Repository — what the library asks of a storage.

A repository lists its currencies in the order of their codes, finds one
by its code, and writes a rate, in place: there is a repository afterwards
also when that fails. The store is one. `GuardedStore` is a store that
meets failures: when it is listed, or when the rates of certain codes are
written, spelled exactly so.
-/
import CurrencyPad.Store.Basic
import CurrencyPad.Conversion

namespace CurrencyPad

/-- A storage of currencies. -/
class Repository (σ : Type) where
  load : σ → Except Error (List Currency)
  get : σ → String → Except Error (Option Currency)
  saveRate : String → Decimal → Timestamp → EStateM Error σ Unit

instance : Repository Store where
  load s := .ok s.all
  get := Store.get
  saveRate := Store.Writing.saveRate

/-- A store that meets failures. -/
structure GuardedStore where
  store : Store
  /-- What listing the currencies meets. -/
  loadFailure : Option Error := none
  /-- What writing the rates of some codes meets. -/
  saveFailures : List (String × Error) := []

namespace GuardedStore

def load (g : GuardedStore) : Except Error (List Currency) :=
  match g.loadFailure with
  | some e => .error e
  | none => .ok g.store.all

/-- Writes to the store behind. -/
def lift (w : Store.Writing) : EStateM Error GuardedStore Unit := fun g =>
  match w.run g.store with
  | .ok _ store => .ok () { g with store }
  | .error e store => .error e { g with store }

def saveRate (code : String) (rate : Decimal) (time : Timestamp) :
    EStateM Error GuardedStore Unit := do
  if let some e := (← get).saveFailures.lookup code then throw e
  lift (.saveRate code rate time)

end GuardedStore

instance : Repository GuardedStore where
  load := GuardedStore.load
  get g := g.store.get
  saveRate := GuardedStore.saveRate

/-- An amount converted between the currencies under two codes. -/
def convertCodes {σ : Type} [Repository σ] (repository : σ) (amount : Decimal)
    (source target : String) : Except Error Decimal := do
  let some a ← Repository.get repository source | .error (.currencyNotFound source)
  let some b ← Repository.get repository target | .error (.currencyNotFound target)
  return convert amount a b

end CurrencyPad
