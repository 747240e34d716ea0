/-
CurrencyPad.Store.Catalog — lists of the stored currencies.

Currencies are listed by name or in the user's order, the code deciding
between equals. A search finds the currencies whose name or code contains
the query, letter case set aside; a blank query finds all of them.
-/
import CurrencyPad.Store.Repository
import CurrencyPad.Text.LowerCase

namespace CurrencyPad.Catalog

/-! ## 1. Orders -/

/-- By name, then by code. -/
def nameOrder (a b : Currency) : Ordering :=
  (compare a.name b.name).then (compare a.code b.code)

def byName (currencies : List Currency) : List Currency :=
  currencies.mergeSort fun a b => (nameOrder a b).isLE

def byDisplayOrder (currencies : List Currency) : List Currency :=
  currencies.mergeSort fun a b => (a.displayOrder b).isLE

/-! ## 2. Selections -/

/-- A query in the form that is looked for. -/
def searchKey (query : String) : List Char :=
  Text.lowerChars (Text.trimChars query.toList)

/-- The name or the code contains the looked-for text. -/
def isMatch (key : List Char) (c : Currency) : Bool :=
  Text.occursIn key (Text.lowerChars c.name.toList) ||
  Text.occursIn key (Text.lowerChars c.code.toList)

/-- The currencies that a query finds, by name. -/
def matching (query : String) (currencies : List Currency) : List Currency :=
  let key := searchKey query
  let named := byName currencies
  if key = [] then named else named.filter (isMatch key)

/-! ## 3. Queries -/

variable {σ : Type} [Repository σ]

/-- All currencies by name. -/
def allByName (repository : σ) : Except Error (List Currency) :=
  byName <$> Repository.load repository

/-- All currencies in the user's order. -/
def allByOrder (repository : σ) : Except Error (List Currency) :=
  byDisplayOrder <$> Repository.load repository

/-- The currencies that a query finds, by name. -/
def search (repository : σ) (query : String) : Except Error (List Currency) :=
  matching query <$> Repository.load repository

/-- The currency under a code. -/
def find (repository : σ) (code : String) : Except Error (Option Currency) :=
  Repository.get repository code

/-- The currencies marked as favourites, by name. -/
def favorites (repository : σ) : Except Error (List Currency) :=
  (fun cs => (byName cs).filter (·.favorite)) <$> Repository.load repository

end CurrencyPad.Catalog
