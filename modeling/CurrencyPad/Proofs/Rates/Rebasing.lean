/-
CurrencyPad.Proofs.Rates.Rebasing — a table relative to another base.

A table that is built by insertions can be rebased to every currency whose
rate divides all its rates (`Divisor`). The result has the same codes, one
for the new base and the quotients for the others, whatever the order in
which the entries are visited (`rebases_ofEntries`).

Quotients are correctly rounded and in the order of the rates, unless they
are unsettled: then two spellings of one number can have two quotients,
and the order of equal rates is lost (`not_rebase_keepsOrder`).

## How the proof goes

* A change of base takes the quotients and puts them into an empty table one
  by one (`rebaseBy?_eq_some_iff`).
* The codes of a well-formed table are normalized and all different, and
  quotients are not below zero. So no entry is dropped or replaces another
  (`getElem?_quotients`), and all that is left to say about the result is
  said about single quotients (`Divisor.relative`).
-/
import CurrencyPad.Proofs.Conversion.Accuracy
import CurrencyPad.Proofs.Decimal.Correct
import CurrencyPad.Proofs.Rates.Canonical
import CurrencyPad.Proofs.Rates.VisitingOrder
import CurrencyPad.Rates.Source

namespace CurrencyPad.RateTable

open Decimal (toRat Overflows Unsettled correctlyRounded?)

/-! ## 1. Quotients -/

/-- The entry with its rate divided by the rate of a new base. -/
def relative? (b : Decimal) (e : RateEntry) : Option RateEntry := (e.2.div? b).map (e.1, ·)

theorem rebaseEntries?_eq_some_iff {b : Decimal} {es es' : List RateEntry} :
    rebaseEntries? b es = some es' ↔
      (∀ e ∈ es, e.2.div? b ≠ none) ∧ es' = es.filterMap (relative? b) := by
  unfold rebaseEntries?
  induction es generalizing es' with
  | nil => simp [eq_comm]
  | cons e rest ih =>
    cases hdiv : e.2.div? b with
    | none => simp [List.mapM_cons, hdiv]
    | some q =>
      have hrelative : relative? b e = some (e.1, q) := by simp [relative?, hdiv]
      simp only [List.mapM_cons, hdiv, Option.map_some, Option.bind_eq_bind, Option.bind_some,
        Option.bind_eq_some_iff, Option.pure_def, Option.some.injEq, List.forall_mem_cons, ne_eq,
        reduceCtorEq, not_false_eq_true, true_and, List.filterMap_cons_some hrelative, ih]
      constructor
      · rintro ⟨es'', ⟨hrest, rfl⟩, rfl⟩
        exact ⟨hrest, rfl⟩
      · rintro ⟨hrest, rfl⟩
        exact ⟨_, ⟨hrest, rfl⟩, rfl⟩

/-- The rate of a new base divides all rates. -/
structure Divisor (t : RateTable) (base : String) (b : Decimal) : Prop where
  found : t.get? base = some b
  pos : 0 < b.toRat
  divides : ∀ e ∈ t.entries, e.2.div? b ≠ none

/-- The table of the quotients, the new base set to one. -/
def relativeTo (base : String) (b : Decimal) (entries : List RateEntry) : RateTable :=
  (ofEntries (entries.filterMap (relative? b))).insert base .one

variable {t t' : RateTable} {order : List RateEntry} {base : String} {b : Decimal}

/-- **A change of base** takes the quotients by a rate that divides all rates. -/
theorem rebaseBy?_eq_some_iff (horder : order.Perm t.entries) :
    t.rebaseBy? order base = some t' ↔ ∃ b, Divisor t base b ∧ relativeTo base b order = t' := by
  simp only [rebaseBy?, baseRate?, Option.map_eq_some_iff, Option.bind_eq_some_iff,
    Option.filter_eq_some_iff, isPositive_iff, rebaseEntries?_eq_some_iff,
    horder.mem_iff]
  constructor
  · rintro ⟨_, ⟨b, ⟨hfound, hpos⟩, hdivides, rfl⟩, rfl⟩
    exact ⟨b, ⟨hfound, hpos, hdivides⟩, rfl⟩
  · rintro ⟨b, ⟨hfound, hpos, hdivides⟩, rfl⟩
    exact ⟨_, ⟨b, ⟨hfound, hpos⟩, hdivides, rfl⟩, rfl⟩

theorem rebase?_eq_some_iff :
    t.rebase? base = some t' ↔ ∃ b, Divisor t base b ∧ relativeTo base b t.entries = t' :=
  rebaseBy?_eq_some_iff (.refl _)

theorem rebase?_eq_none_iff : t.rebase? base = none ↔ ∀ b, ¬Divisor t base b := by
  simp [Option.eq_none_iff_forall_ne_some, rebase?_eq_some_iff]

/-! ## 2. What the quotients make -/

theorem WellFormed.spelledOnce (h : t.WellFormed) : SpelledOnce t.entries := by
  refine (List.Pairwise.and_mem.mp Std.ExtTreeMap.distinct_keys_toList).imp ?_
  rintro e e' ⟨he, he', hne⟩
  rw [h.canonical e he, h.canonical e' he']
  simpa using hne

/-- A quotient of two rates that a table holds is not below zero. -/
theorem WellFormed.nonneg_quotient (ht : t.WellFormed) (hpos : 0 < b.toRat) {e : RateEntry}
    (he : e ∈ t.entries) {q : Decimal} (hq : e.2.div? b = some q) : q.isNegative = false := by
  have hrate := Decimal.nonneg_of_not_isNegative (ht.nonneg e he)
  have hquotient := Decimal.nonneg_of_div? hrate hpos hq
  exact Bool.eq_false_iff.mpr (mt Decimal.isNegative_iff.mp (not_lt.mpr hquotient))

/-- **The quotients are kept**: each code has its own, in every order. -/
theorem getElem?_quotients (ht : t.WellFormed) (hpos : 0 < b.toRat)
    (horder : order.Perm t.entries) (code : String) :
    (ofEntries (order.filterMap (relative? b))).rates[code]? =
      t.rates[code]?.bind (·.div? b) := by
  have honce : SpelledOnce order := ht.spelledOnce.perm horder.symm
  -- a quotient has its code in canonical spelling and is never refused
  refine Option.ext fun rate => (honce.getElem?_ofEntries_iff (f := (·.div? b))).trans ?_
  rw [Option.bind_eq_some_iff]
  constructor
  · rintro ⟨e, he, hcode, hq, -⟩
    have hmem := horder.mem_iff.mp he
    refine ⟨e.2, ?_, hq⟩
    rw [← hcode, ht.canonical e hmem]
    exact mem_entries_iff.mp hmem
  · rintro ⟨r, hr, hq⟩
    have hmem : (code, r) ∈ t.entries := mem_entries_iff.mpr hr
    exact ⟨(code, r), horder.mem_iff.mpr hmem, ht.canonical (code, r) hmem, hq,
      ht.nonneg_quotient hpos hmem hq⟩

/-- **The rebased table**: one for the new base, the quotients for the others. -/
theorem getElem?_relativeTo (ht : t.WellFormed) (hpos : 0 < b.toRat)
    (horder : order.Perm t.entries) (code : String) :
    (relativeTo base b order).rates[code]? =
      if code = Text.normalize base then some .one else t.rates[code]?.bind (·.div? b) := by
  have hgives : gives code (base, .one) = true ↔ code = Text.normalize base :=
    gives_iff.trans ⟨fun h => h.2.symm, fun h => ⟨rfl, h.symm⟩⟩
  rw [relativeTo, getElem?_insert _ (base, .one), getElem?_quotients ht hpos horder]
  simp only [hgives]

/-- The order in which the entries are visited does not count. -/
theorem relativeTo_congr (ht : t.WellFormed) (hpos : 0 < b.toRat)
    (horder : order.Perm t.entries) :
    relativeTo base b order = relativeTo base b t.entries := by
  refine ext_getElem? fun code => ?_
  rw [getElem?_relativeTo ht hpos horder, getElem?_relativeTo ht hpos (.refl _)]

theorem rebaseBy?_eq_rebase? (ht : t.WellFormed) (horder : order.Perm t.entries) :
    t.rebaseBy? order base = t.rebase? base := by
  refine Option.ext fun t' => ?_
  rw [rebaseBy?_eq_some_iff horder, rebase?_eq_some_iff]
  refine exists_congr fun b => and_congr_right fun hdivisor => ?_
  rw [relativeTo_congr ht hdivisor.pos horder]

/-! ## 3. The rebased table -/

theorem Divisor.exists_div? (hb : Divisor t base b) {code : String} {rate : Decimal}
    (hrate : t.rates[code]? = some rate) : ∃ q, rate.div? b = some q :=
  Option.ne_none_iff_exists'.mp
    (hb.divides (code, rate) (mem_entries_iff.mpr hrate))

/-- The rate of a currency in a table with a new base, as its quotient. -/
theorem Divisor.exists_quotient (hb : Divisor t base b) (ht : t.WellFormed) {code : String}
    {rate : Decimal} (hrate : t.get? code = some rate) :
    ∃ q rate', rate.div? b = some q ∧ (relativeTo base b t.entries).get? code = some rate' ∧
      rate'.toRat = q.toRat := by
  rw [get?, getElem?_relativeTo ht hb.pos (.refl _)]
  by_cases hbase : Text.normalize code = Text.normalize base
  · -- the one that is set in the end is the quotient of the rate by itself
    have hsame : rate = b := by
      rw [get?, hbase, ← get?, hb.found] at hrate
      exact (Option.some.inj hrate).symm
    obtain ⟨q, hq, hone⟩ := Decimal.div?_of_eq hb.pos.ne' (congrArg toRat hsame)
    exact ⟨q, .one, hq, if_pos hbase, by rw [hone, Decimal.toRat_one]⟩
  · rw [get?] at hrate
    obtain ⟨q, hq⟩ := hb.exists_div? hrate
    exact ⟨q, q, hq, by rw [if_neg hbase, hrate, Option.bind_some, hq], rfl⟩

/-- `t'` is the table relative to a currency whose rate is `b`. -/
structure Relative (t : RateTable) (base : String) (b : Decimal) (t' : RateTable) : Prop where
  codes : t'.codes = t.codes
  own : t'.get? base = some .one
  /-- The other rates are quotients, correctly rounded if they are settled. -/
  others : ∀ code rate, t.get? code = some rate → Text.normalize code ≠ Text.normalize base →
    ∃ rate', t'.get? code = some rate' ∧
      Decimal.IsRounding (rate.toRat / b.toRat) (some rate') ∧
      (¬Unsettled rate b →
        (correctlyRounded? (rate.toRat / b.toRat)).map toRat = some rate'.toRat)
  /-- The order of the rates is kept. Equal rates that are spelled differently stay equal if
  their quotient is settled. -/
  ordered : ∀ code₁ code₂ rate₁ rate₂, t.get? code₁ = some rate₁ → t.get? code₂ = some rate₂ →
    rate₁.toRat ≤ rate₂.toRat →
    (rate₁.toRat = rate₂.toRat → rate₁ = rate₂ ∨ ¬Unsettled rate₁ b) →
    ∃ rate₁' rate₂', t'.get? code₁ = some rate₁' ∧ t'.get? code₂ = some rate₂' ∧
      rate₁'.toRat ≤ rate₂'.toRat

theorem Divisor.relative (hb : Divisor t base b) (ht : t.WellFormed) :
    Relative t base b (relativeTo base b t.entries) where
  codes := by
    refine codes_eq_of_isSome_eq fun code => ?_
    rw [getElem?_relativeTo ht hb.pos (.refl _)]
    by_cases hcode : code = Text.normalize base
    · have hfound := hb.found
      rw [get?, ← hcode] at hfound
      rw [if_pos hcode, hfound]
      rfl
    · rw [if_neg hcode]
      cases hrate : t.rates[code]? with
      | none => rfl
      | some rate =>
        obtain ⟨q, hq⟩ := hb.exists_div? hrate
        rw [Option.bind_some, hq]
        rfl
  own := by rw [get?, getElem?_relativeTo ht hb.pos (.refl _), if_pos rfl]
  others code rate hrate hcode := by
    obtain ⟨q, hq⟩ := hb.exists_div? hrate
    refine ⟨q, ?_, hq ▸ Decimal.isRounding_div? rate hb.pos.ne', fun hsettled => ?_⟩
    · rw [get?, getElem?_relativeTo ht hb.pos (.refl _), if_neg hcode, ← get?, hrate,
        Option.bind_some, hq]
    · rw [← Decimal.map_toRat_div?_eq hb.pos.ne' hsettled, hq, Option.map_some]
  ordered code₁ code₂ rate₁ rate₂ hrate₁ hrate₂ hle hsettled := by
    obtain ⟨q₁, rate₁', hq₁, hrate₁', hvalue₁⟩ := hb.exists_quotient ht hrate₁
    obtain ⟨q₂, rate₂', hq₂, hrate₂', hvalue₂⟩ := hb.exists_quotient ht hrate₂
    refine ⟨rate₁', rate₂', hrate₁', hrate₂', ?_⟩
    rw [hvalue₁, hvalue₂]
    exact Decimal.toRat_div?_le hb.pos hle hsettled hq₁ hq₂

/-! ## 4. Changes of base -/

theorem WellFormed.nonneg_of_get? (ht : t.WellFormed) {code : String} {rate : Decimal}
    (h : t.get? code = some rate) : 0 ≤ rate.toRat :=
  Decimal.nonneg_of_not_isNegative (ht.nonneg (Text.normalize code, rate) (mem_entries_iff.mpr h))

/-- **When there is no table with a new base.** -/
theorem WellFormed.rebase?_eq_none_iff (ht : t.WellFormed) :
    t.rebase? base = none ↔
      t.get? base = none ∨ ∃ b, t.get? base = some b ∧
        (b.toRat = 0 ∨ ∃ e ∈ t.entries, Overflows (e.2.toRat / b.toRat)) := by
  rw [RateTable.rebase?_eq_none_iff]
  constructor
  · intro hnone
    by_contra! ⟨hfound, hall⟩
    obtain ⟨b, hb⟩ := Option.ne_none_iff_exists'.mp hfound
    obtain ⟨hzero, hroom⟩ := hall b hb
    refine hnone b ⟨hb, (ht.nonneg_of_get? hb).lt_of_ne' hzero, fun e he hdiv => ?_⟩
    exact (Decimal.div?_eq_none_iff.mp hdiv).elim hzero (hroom e he)
  · rintro (hmissing | ⟨b', hb', hfails⟩) b hb
    · simp [hb.found] at hmissing
    · obtain rfl : b' = b := Option.some.inj (hb'.symm.trans hb.found)
      rcases hfails with hzero | ⟨e, he, hlarge⟩
      · exact hb.pos.ne' hzero
      · exact hb.divides e he (Decimal.div?_eq_none_iff.mpr (.inr hlarge))

/-- A rate of one divides all rates, and they stay the same. -/
theorem WellFormed.rebase?_of_one (ht : t.WellFormed) (hfound : t.get? base = some b)
    (hone : b.toRat = 1) : ∃ t', t.rebase? base = some t' ∧ t.same t' = true := by
  have hb : Divisor t base b :=
    ⟨hfound, by rw [hone]; norm_num, fun e _ => by
      obtain ⟨q, hq, -⟩ := Decimal.div?_of_eq_one e.2 hone
      simp [hq]⟩
  refine ⟨_, rebase?_eq_some_iff.mpr ⟨b, hb, rfl⟩, same_iff.mpr fun code => ?_⟩
  rw [getElem?_relativeTo ht hb.pos (.refl _)]
  by_cases hcode : code = Text.normalize base
  · rw [if_pos hcode, hcode, ← get?, hfound]
    simp [hone, Decimal.toRat_one]
  · rw [if_neg hcode]
    cases t.rates[code]? with
    | none => rfl
    | some rate =>
      obtain ⟨q, hq, hvalue⟩ := Decimal.div?_of_eq_one rate hone
      simp [hq, hvalue]

/-- A source whose table stays the same gives it for its own base as for another. -/
theorem sameResult_fetch (ht' : t.rebase? base = some t') (hsame : t.same t' = true)
    (own : String) : SameResult ((RateSource.create own t).fetch base) (.ok t') := by
  by_cases hown : Text.sameIgnoringCase base (Text.normalize own) = true
  · have hfetch : (RateSource.create own t).fetch base = .ok t := by
      simp [RateSource.fetch, RateSource.create, hown]
    rw [hfetch]
    exact hsame
  · have hfetch : (RateSource.create own t).fetch base = .ok t' := by
      simp [RateSource.fetch, RateSource.create, hown, ht']
    rw [hfetch]
    exact .refl _

/-- What comes of a change of base. -/
structure Rebases (t : RateTable) (base : String) : Prop where
  fails : t.rebase? base = none ↔
    t.get? base = none ∨ ∃ b, t.get? base = some b ∧
      (b.toRat = 0 ∨ ∃ e ∈ t.entries, Overflows (e.2.toRat / b.toRat))
  succeeds : ∀ t', t.rebase? base = some t' → ∃ b, t.get? base = some b ∧ Relative t base b t'
  /-- The entries may be visited in any order. -/
  orderFree : ∀ order, order.Perm t.entries → t.rebaseBy? order base = t.rebase? base
  /-- Where the rate of the new base is one, the table stays the same, and a source of it gives
  this table for its own base as for another. -/
  same : ∀ b, t.get? base = some b → b.toRat = 1 → ∃ t', t.rebase? base = some t' ∧
    t.same t' = true ∧ ∀ own, SameResult ((RateSource.create own t).fetch base) (.ok t')

/-- **A change of base** of a table that is built by insertions: when it fails, what it makes,
and that neither the order of the visits nor the shortcut of a source counts. -/
theorem rebases_ofEntries (entries : List RateEntry) (base : String) :
    Rebases (ofEntries entries) base where
  fails := (wellFormed_ofEntries entries).rebase?_eq_none_iff
  succeeds t' h := by
    obtain ⟨b, hb, rfl⟩ := rebase?_eq_some_iff.mp h
    exact ⟨b, hb.found, hb.relative (wellFormed_ofEntries entries)⟩
  orderFree order horder := rebaseBy?_eq_rebase? (wellFormed_ofEntries entries) horder
  same b hfound hone := by
    obtain ⟨t', ht', hsame⟩ := (wellFormed_ofEntries entries).rebase?_of_one hfound hone
    exact ⟨t', ht', hsame, fun own => sameResult_fetch ht' hsame own⟩

/-- The decimal with these parts, which are within bounds. -/
def ofParts (coeff : Int) (scale : Nat) : Decimal := (Decimal.ofParts? coeff scale).getD .zero

/-- One number in two spellings, half way between two decimals when it is divided by the
third rate. -/
def halfwayTable : RateTable :=
  ofEntries [("AAA", ofParts 6338253001141147007483516050 1),
    ("BBB", ofParts 633825300114114700748351605 0),
    ("CCC", ofParts 80000000000000000000000000 0)]

/-- Of two equal rates the one with a zero after its point is the larger one relative to
another base. -/
theorem not_rebase_keepsOrder :
    ¬∀ (entries : List RateEntry) (base : String) (t' : RateTable),
      (ofEntries entries).rebase? base = some t' →
      ∀ code₁ code₂ rate₁ rate₂ rate₁' rate₂',
        (ofEntries entries).get? code₁ = some rate₁ →
        (ofEntries entries).get? code₂ = some rate₂ → rate₁.toRat ≤ rate₂.toRat →
        t'.get? code₁ = some rate₁' → t'.get? code₂ = some rate₂' →
        rate₁'.toRat ≤ rate₂'.toRat := by
  intro hall
  have hsome : (halfwayTable.rebase? "CCC").isSome = true := by decide +kernel
  obtain ⟨t', ht'⟩ := Option.isSome_iff_exists.mp hsome
  have hfirst : (halfwayTable.rebase? "CCC").bind (·.get? "AAA") =
      some (ofParts 7922816251426433759354395063 27) := by decide +kernel
  have hsecond : (halfwayTable.rebase? "CCC").bind (·.get? "BBB") =
      some (ofParts 7922816251426433759354395062 27) := by decide +kernel
  rw [ht', Option.bind_some] at hfirst hsecond
  have hle := hall _ "CCC" t' ht' "AAA" "BBB" (ofParts 6338253001141147007483516050 1)
    (ofParts 633825300114114700748351605 0) _ _ (by decide +kernel) (by decide +kernel)
    (by decide +kernel) hfirst hsecond
  exact absurd hle (by decide +kernel)

end CurrencyPad.RateTable
