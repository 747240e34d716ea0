/-
CurrencyPad.Proofs.Keypad.Rebinding — the two ways to convert agree.

A session converts with copies of currencies of its own, which it looks
for in a listing by their codes as they are written; a store converts
between the currencies under two codes, which it checks and puts in upper
case. `exists_rebound`: once the copies have been bound anew to what the
store lists, both ways lead to the same amounts, whatever the rates are.

The listing holds one currency for each code, so the copy that is found in
it is the record under its code (`Keyed.freshCopy_all`). A canonical code
is its own canonical spelling, so every spelling of it leads to the same
record (`Canonical.get_of_spelling`).
-/
import CurrencyPad.Proofs.Keypad.Selecting
import CurrencyPad.Proofs.Store.Addressing
import CurrencyPad.Store.Repository

namespace CurrencyPad

namespace Store

/-! ## 1. Two ways to look a currency up -/

/-- The copy that is found in the listing is the record under its code. -/
theorem Keyed.freshCopy_all {s : Store} (h : s.Keyed) {selected stored : Currency}
    (hstored : s.records[selected.code]? = some stored) :
    Session.freshCopy s.all selected = stored := by
  have hfind : Session.find? s.all selected.code = some stored :=
    (Session.find?_eq_some_iff h.nodup_codes).mpr
      ⟨h.mem_all_of_getElem? hstored, h selected.code stored hstored⟩
  rw [Session.freshCopy_eq, hfind, Option.getD_some]

/-- All spellings of a stored code lead to its record. -/
theorem Canonical.get_of_spelling {s : Store} (hcanonical : s.Canonical) (hkeyed : s.Keyed)
    {code spelling : String} {stored : Currency} (hstored : s.records[code]? = some stored)
    (hspelling : Text.normalize spelling = Text.normalize code) :
    s.get spelling = .ok (some stored) := by
  have hcode : canonicalCode? code = some code := by
    have := hcanonical stored (hkeyed.mem_all_of_getElem? hstored)
    rwa [hkeyed code stored hstored] at this
  rw [s.get_of_canonical (canonicalCode?_of_normalize_eq hcode hspelling), hstored]

/-- Between two codes that are found, an amount is converted between their currencies. -/
theorem convertCodes_of_get {s : Store} {source target : String} {a b : Currency}
    (ha : s.get source = .ok (some a)) (hb : s.get target = .ok (some b)) (amount : Decimal) :
    convertCodes s amount source target = .ok (convert amount a b) := by
  simp [convertCodes, Repository.get, ha, hb, bind, Except.bind, pure, Except.pure]

end Store

namespace Session

/-! ## 2. Binding the pair anew -/

/-- A session with the pair `a`, `b` has been bound anew to a store. -/
structure Rebound (store : Store) (a b : Currency) (before after : Session) : Prop where
  buffer : after.buffer = before.buffer
  source : after.source.map (·.code) = some a.code
  target : after.target.map (·.code) = some b.code
  /-- The converted amount is what the store makes of the value, for all spellings of
  the two codes. -/
  converted : ∀ v s t, after.value = some v → Text.normalize s = Text.normalize a.code →
    Text.normalize t = Text.normalize b.code → convertCodes store v s t = .ok after.converted
  /-- The rate of one unit is what the store makes of one. -/
  unitRate : ∀ s t, Text.normalize s = Text.normalize a.code →
    Text.normalize t = Text.normalize b.code →
    ∃ rate, after.unitRate? = some rate ∧ convertCodes store .one s t = .ok rate

/-- A store that has the code of a selected currency has a record of it. -/
theorem rebind_eq {store : Store} (h : store.Keyed) {session : Session} {a b a' b' : Currency}
    (hsource : session.source = some a) (htarget : session.target = some b)
    (ha : store.records[a.code]? = some a') (hb : store.records[b.code]? = some b') :
    (session.rebind store.all).state =
      recompute { session with source := some a', target := some b' } := by
  simp only [rebind, announce, hsource, htarget, Option.map_some, h.freshCopy_all ha,
    h.freshCopy_all hb]

/-- **The two ways to convert agree** once the pair has been bound anew to what a store
lists, if the store has the two codes. -/
theorem exists_rebound {store : Store} (h : store.Reachable) (hcanonical : store.Canonical)
    {session : Session} {a b : Currency} (hsource : session.source = some a)
    (htarget : session.target = some b) (ha : store.records[a.code]?.isSome = true)
    (hb : store.records[b.code]?.isSome = true) :
    ∃ currencies, Repository.load store = .ok currencies ∧
      Rebound store a b session (session.rebind currencies).state := by
  have hkeyed := h.keyed
  obtain ⟨a', ha'⟩ := Option.isSome_iff_exists.mp ha
  obtain ⟨b', hb'⟩ := Option.isSome_iff_exists.mp hb
  refine ⟨store.all, rfl, ?_⟩
  rw [rebind_eq hkeyed hsource htarget ha' hb']
  have hconvert : ∀ s t, Text.normalize s = Text.normalize a.code →
      Text.normalize t = Text.normalize b.code → ∀ amount,
      convertCodes store amount s t = .ok (convert amount a' b') := fun s t hs ht =>
    Store.convertCodes_of_get (hcanonical.get_of_spelling hkeyed ha' hs)
      (hcanonical.get_of_spelling hkeyed hb' ht)
  have hupToDate := upToDate_recompute { session with source := some a', target := some b' }
  constructor
  case buffer => rfl
  case source => exact congrArg some (hkeyed a.code a' ha')
  case target => exact congrArg some (hkeyed b.code b' hb')
  case converted =>
    intro v s t hv hs ht
    rw [hconvert s t hs ht v, hupToDate.converted v a' b' hv rfl rfl]
  case unitRate =>
    intro s t hs ht
    exact ⟨convert .one a' b', rfl, hconvert s t hs ht .one⟩

/-- A dollar, and a euro at a hundred. -/
def quotedStore : Store := Store.empty.run ((quotedPair .hundred).map .insert)

/-- A four is typed while the euro is still at one. -/
def staleSession : Session := (quotedSession .one).run [.press (.digit '4')]

theorem exists_rebound_staleSession :
    staleSession.converted = { coeff := 4, scale := 0 } ∧
      convertCodes quotedStore { coeff := 4, scale := 0 } " usd" "Eur\t" =
        .ok { coeff := 400, scale := 0 } ∧
      ∃ currencies, Repository.load quotedStore = .ok currencies ∧
        Rebound quotedStore { code := "USD", rate := some .one }
          { code := "EUR", rate := some .one } staleSession
          (staleSession.rebind currencies).state :=
  ⟨by decide +kernel, by decide +kernel,
    exists_rebound (Store.reachable_run _) (by decide +kernel) (by decide +kernel)
      (by decide +kernel) (by decide +kernel) (by decide +kernel)⟩

end Session
end CurrencyPad
