/-
CurrencyPad.Proofs.Keypad.Selecting — which currencies a session selects
from a list.

A session starts with the currencies under the configured codes, or else
with the first and the last one of the user's list. Later it is bound anew
to lists of fresh copies. In both cases it does not matter in which order
the list comes, as long as its codes differ (`selection_orderFree`).

## How the proof goes

* `Selects` says of a selection which currency of the list it is, by the
  currencies the list has and not by their places. There is only one
  currency like that (`Selects.unique`), so that permuted lists have the
  same one.
* A session selects what `Selects` says (`selects_or`): a look-up finds the
  only currency under its code, and a fold that keeps the better one of two
  ends with the best one of all (`foldl_best`).
* To look a copy up does not change the code that is looked for, so the
  copy of a copy is that copy (`freshCopy_freshCopy`).
-/
import CurrencyPad.Proofs.Keypad.Announcing
import CurrencyPad.Proofs.Store.Catalog

namespace CurrencyPad.Session

open Catalog

variable {cs cs' : List Currency}

/-! ## 1. Looking a code up -/

/-- Under different codes, a code has one currency. -/
theorem eq_of_code_eq (hcodes : (cs.map (·.code)).Nodup) {c d : Currency} (hc : c ∈ cs)
    (hd : d ∈ cs) (h : c.code = d.code) : c = d :=
  List.inj_on_of_nodup_map hcodes hc hd h

theorem find?_eq_some_iff (hcodes : (cs.map (·.code)).Nodup) {code : String} {c : Currency} :
    find? cs code = some c ↔ c ∈ cs ∧ c.code = code := by
  unfold find?
  constructor
  · intro h
    exact ⟨List.mem_of_find?_eq_some h, by simpa using List.find?_some h⟩
  · rintro ⟨hc, hcode⟩
    cases hfind : cs.find? (·.code = code) with
    | none => simpa [hcode] using List.find?_eq_none.mp hfind c hc
    | some d =>
      have hd : d.code = code := by simpa using List.find?_some hfind
      rw [eq_of_code_eq hcodes (List.mem_of_find?_eq_some hfind) hc (hd.trans hcode.symm)]

theorem find?_eq_none_iff {code : String} :
    find? cs code = none ↔ ∀ c ∈ cs, c.code ≠ code := by
  simp [find?]

/-- The order of a list makes no difference to what is found under a code. -/
theorem find?_perm (hperm : cs.Perm cs') (hcodes : (cs.map (·.code)).Nodup) (code : String) :
    find? cs code = find? cs' code := by
  have hcodes' : (cs'.map (·.code)).Nodup := (hperm.map _).nodup_iff.mp hcodes
  ext c
  rw [find?_eq_some_iff hcodes, find?_eq_some_iff hcodes', hperm.mem_iff]

/-! ## 2. The first and the last one -/

/-- A fold that keeps the better one of two ends with the best one of all. -/
theorem foldl_best (better : Currency → Currency → Prop) {choose : Currency → Currency → Currency}
    (hrefl : ∀ a, better a a) (htrans : ∀ {a b c}, better a b → better b c → better a c)
    (hchoose : ∀ a b, (choose a b = a ∨ choose a b = b) ∧
      better (choose a b) a ∧ better (choose a b) b)
    (c : Currency) (r : List Currency) :
    r.foldl choose c ∈ c :: r ∧ ∀ d ∈ c :: r, better (r.foldl choose c) d := by
  induction r generalizing c with
  | nil => simp [hrefl]
  | cons b r ih =>
    obtain ⟨hpick, hfirst, hsecond⟩ := hchoose c b
    obtain ⟨hmem, hbest⟩ := ih (choose c b)
    rw [List.foldl_cons]
    refine ⟨?_, fun d hd => ?_⟩
    · rcases List.mem_cons.mp hmem with heq | hr
      · rw [heq]
        rcases hpick with h | h <;> simp [h]
      · simp [hr]
    · have hchosen := hbest (choose c b) (by simp)
      rcases List.mem_cons.mp hd with rfl | hd
      · exact htrans hchosen hfirst
      · rcases List.mem_cons.mp hd with rfl | hr
        · exact htrans hchosen hsecond
        · exact hbest d (by simp [hr])

/-- Not behind the other one in the user's list. -/
def NotAfter (a b : Currency) : Prop := (a.displayOrder b).isLE = true

theorem NotAfter.refl (a : Currency) : NotAfter a a := by
  simp [NotAfter, Std.ReflCmp.compare_self]

theorem NotAfter.trans {a b c : Currency} (hab : NotAfter a b) (hbc : NotAfter b c) :
    NotAfter a c := Std.TransCmp.isLE_trans hab hbc

theorem notAfter_of_lt {a b : Currency} (h : a.displayOrder b = .lt) : NotAfter a b := by
  simp [NotAfter, h]

theorem notAfter_of_not_lt {a b : Currency} (h : a.displayOrder b ≠ .lt) : NotAfter b a := by
  have hswap : b.displayOrder a = (a.displayOrder b).swap := Std.OrientedCmp.eq_swap
  rw [NotAfter, hswap]
  cases hab : a.displayOrder b <;> simp_all

/-- Of two currencies with different codes one is before the other. -/
theorem NotAfter.before {a b : Currency} (h : NotAfter a b) (hcode : a.code ≠ b.code) :
    Before Currency.order a b := by
  rw [← displayOrder_eq_lt_iff]
  rcases Ordering.isLE_iff_eq_lt_or_eq_eq.mp h with hlt | heq
  · exact hlt
  · exact absurd (Std.LawfulEqOrd.eq_of_compare (Ordering.then_eq_eq.mp heq).2) hcode

theorem before_asymm {a b : Currency} (h : Before Currency.order a b) :
    ¬Before Currency.order b a := by
  rw [← displayOrder_eq_lt_iff] at h ⊢
  have hswap : b.displayOrder a = (a.displayOrder b).swap := Std.OrientedCmp.eq_swap
  rw [hswap, h]
  decide

theorem first?_eq_some {c : Currency} (h : first? cs = some c) :
    c ∈ cs ∧ ∀ d ∈ cs, NotAfter c d := by
  cases cs with
  | nil => cases h
  | cons a r =>
    obtain rfl := Option.some.inj h
    refine foldl_best NotAfter NotAfter.refl NotAfter.trans (fun a b => ?_) a r
    split
    · exact ⟨.inr rfl, notAfter_of_lt ‹_›, .refl b⟩
    · exact ⟨.inl rfl, .refl a, notAfter_of_not_lt ‹_›⟩

theorem last?_eq_some {c : Currency} (h : last? cs = some c) :
    c ∈ cs ∧ ∀ d ∈ cs, NotAfter d c := by
  cases cs with
  | nil => cases h
  | cons a r =>
    obtain rfl := Option.some.inj h
    refine foldl_best (fun a b => NotAfter b a) NotAfter.refl
      (fun hab hbc => hbc.trans hab) (fun a b => ?_) a r
    split
    · exact ⟨.inl rfl, .refl a, notAfter_of_lt ‹_›⟩
    · exact ⟨.inr rfl, notAfter_of_not_lt ‹_›, .refl b⟩

/-! ## 3. What is selected -/

/-- What is selected of a list: the currency under a code, or, if there is none, the one before
all the others. Nothing is selected of an empty list, and of no other. -/
def Selects (cs : List Currency) (code : String) (before : Currency → Currency → Prop) :
    Option Currency → Prop
  | none => cs = []
  | some c => c ∈ cs ∧
      (c.code = code ∨ (∀ d ∈ cs, d.code ≠ code) ∧ ∀ d ∈ cs, d ≠ c → before c d)

variable {code : String} {before : Currency → Currency → Prop}

theorem Selects.eq_none_iff {selected : Option Currency} (h : Selects cs code before selected) :
    selected = none ↔ cs = [] := by
  cases selected with
  | none => exact iff_of_true rfl h
  | some c => exact iff_of_false (by simp) (List.ne_nil_of_mem h.1)

theorem Selects.perm (hperm : cs.Perm cs') {selected : Option Currency}
    (h : Selects cs code before selected) : Selects cs' code before selected := by
  cases selected with
  | none =>
    obtain rfl : cs = [] := h
    exact hperm.symm.eq_nil
  | some c => simpa only [Selects, hperm.mem_iff] using h

/-- **A selection is determined** by what the list has. -/
theorem Selects.unique (hcodes : (cs.map (·.code)).Nodup)
    (hasymm : ∀ a b, before a b → ¬before b a) {a b : Option Currency}
    (ha : Selects cs code before a) (hb : Selects cs code before b) : a = b := by
  cases a with
  | none => exact (hb.eq_none_iff.mpr ha).symm
  | some a =>
    cases b with
    | none => exact ha.eq_none_iff.mpr hb
    | some b =>
      obtain ⟨hmema, ha⟩ := ha
      obtain ⟨hmemb, hb⟩ := hb
      rcases ha with hacode | ⟨hnone, hafirst⟩
      · rcases hb with hbcode | ⟨hnone, -⟩
        · rw [eq_of_code_eq hcodes hmema hmemb (hacode.trans hbcode.symm)]
        · exact absurd hacode (hnone a hmema)
      · rcases hb with hbcode | ⟨-, hbfirst⟩
        · exact absurd hbcode (hnone b hmemb)
        · by_contra hne
          have hne : a ≠ b := fun h => hne (congrArg some h)
          exact hasymm a b (hafirst b hmemb hne.symm) (hbfirst a hmema hne)

/-- The currency under the code is selected, or else the extreme one. -/
theorem selects_or (hcodes : (cs.map (·.code)).Nodup) {extreme : Option Currency}
    (hnone : extreme = none → cs = [])
    (hsome : ∀ c, extreme = some c → c ∈ cs ∧ ∀ d ∈ cs, c.code ≠ d.code → before c d) :
    Selects cs code before ((find? cs code).or extreme) := by
  cases hfind : find? cs code with
  | some c =>
    obtain ⟨hc, hcode⟩ := (find?_eq_some_iff hcodes).mp hfind
    exact ⟨hc, .inl hcode⟩
  | none =>
    rw [Option.none_or]
    cases extreme with
    | none => exact hnone rfl
    | some c =>
      obtain ⟨hc, hbefore⟩ := hsome c rfl
      refine ⟨hc, .inr ⟨find?_eq_none_iff.mp hfind, fun d hd hne => hbefore d hd ?_⟩⟩
      intro hcode
      exact hne (eq_of_code_eq hcodes hd hc hcode.symm)

/-- **The source** is the currency under the configured code, or else the first one. -/
theorem selects_source (settings : Settings) (hcodes : (cs.map (·.code)).Nodup) :
    Selects cs settings.source (Before Currency.order) (start settings cs).source := by
  refine selects_or hcodes (fun h => ?_) (fun c h => ?_)
  · cases cs with
    | nil => rfl
    | cons a r => cases h
  · obtain ⟨hc, hfirst⟩ := first?_eq_some h
    exact ⟨hc, fun d hd hcode => (hfirst d hd).before hcode⟩

/-- **The target** is the currency under the configured code, or else the last one. -/
theorem selects_target (settings : Settings) (hcodes : (cs.map (·.code)).Nodup) :
    Selects cs settings.target (fun a b => Before Currency.order b a)
      (start settings cs).target := by
  refine selects_or hcodes (fun h => ?_) (fun c h => ?_)
  · cases cs with
    | nil => rfl
    | cons a r => cases h
  · obtain ⟨hc, hlast⟩ := last?_eq_some h
    exact ⟨hc, fun d hd hcode => (hlast d hd).before hcode.symm⟩

/-- A session is started by its pair. -/
theorem start_eq_start {settings : Settings}
    (hsource : (start settings cs).source = (start settings cs').source)
    (htarget : (start settings cs).target = (start settings cs').target) :
    start settings cs = start settings cs' := by
  have hsource : (find? cs settings.source).or (first? cs) =
    (find? cs' settings.source).or (first? cs') := hsource
  have htarget : (find? cs settings.target).or (last? cs) =
    (find? cs' settings.target).or (last? cs') := htarget
  rw [start, start, hsource, htarget]

/-- **A session starts alike** from every order of a list. -/
theorem start_perm (settings : Settings) (hperm : cs.Perm cs')
    (hcodes : (cs.map (·.code)).Nodup) : start settings cs = start settings cs' := by
  have hcodes' : (cs'.map (·.code)).Nodup := (hperm.map _).nodup_iff.mp hcodes
  refine start_eq_start ?_ ?_
  · exact (selects_source settings hcodes).unique hcodes (fun _ _ => before_asymm)
      ((selects_source settings hcodes').perm hperm.symm)
  · exact (selects_target settings hcodes).unique hcodes (fun _ _ => before_asymm)
      ((selects_target settings hcodes').perm hperm.symm)

/-! ## 4. Binding anew -/

theorem freshCopy_eq (selected : Currency) :
    freshCopy cs selected = (find? cs selected.code).getD selected := rfl

@[simp] theorem code_freshCopy (cs : List Currency) (selected : Currency) :
    (freshCopy cs selected).code = selected.code := by
  rw [freshCopy_eq]
  cases hfind : find? cs selected.code with
  | none => rfl
  | some c => simpa [find?] using List.find?_some hfind

/-- The copy of a copy is that copy. -/
@[simp] theorem freshCopy_freshCopy (cs : List Currency) (selected : Currency) :
    freshCopy cs (freshCopy cs selected) = freshCopy cs selected := by
  rw [freshCopy_eq (freshCopy cs selected), code_freshCopy]
  rw [freshCopy_eq]
  cases find? cs selected.code <;> rfl

theorem freshCopy_perm (hperm : cs.Perm cs') (hcodes : (cs.map (·.code)).Nodup) :
    freshCopy cs = freshCopy cs' := by
  funext selected
  rw [freshCopy_eq, freshCopy_eq, find?_perm hperm hcodes]

/-- What binding to a list of copies makes of a selection. -/
structure Rebinds (cs : List Currency) (before after : Option Currency) : Prop where
  /-- Nothing is selected or given up. -/
  selected : after.isSome = before.isSome
  code : after.map (·.code) = before.map (·.code)
  /-- The copy in the list is taken. -/
  listed : ∀ c, before = some c → ∀ d ∈ cs, d.code = c.code → after = some d
  /-- What is not in the list is kept. -/
  unlisted : ∀ c, before = some c → (∀ d ∈ cs, d.code ≠ c.code) → after = some c

theorem rebinds_map_freshCopy (hcodes : (cs.map (·.code)).Nodup) (selection : Option Currency) :
    Rebinds cs selection (selection.map (freshCopy cs)) where
  selected := by simp
  code := by cases selection <;> simp
  listed := by
    rintro c rfl d hd hcode
    rw [Option.map_some, freshCopy_eq, (find?_eq_some_iff hcodes).mpr ⟨hd, hcode⟩,
      Option.getD_some]
  unlisted := by
    rintro c rfl hnone
    rw [Option.map_some, freshCopy_eq, find?_eq_none_iff.mpr hnone, Option.getD_none]

/-- What binding the pair of a session to a list of copies does. -/
structure RebindsPair (cs : List Currency) (s : Session) : Prop where
  source : Rebinds cs s.source (s.rebind cs).state.source
  target : Rebinds cs s.target (s.rebind cs).state.target
  /-- To bind the pair to the same list again changes nothing. -/
  again : ((s.rebind cs).state.rebind cs).state = (s.rebind cs).state
  /-- The pair may be exchanged before or after. -/
  swapped : ((s.rebind cs).state.swap).state = (s.swap.state.rebind cs).state

theorem rebindsPair (hcodes : (cs.map (·.code)).Nodup) (s : Session) : RebindsPair cs s where
  source := rebinds_map_freshCopy hcodes s.source
  target := rebinds_map_freshCopy hcodes s.target
  again := by
    have hcopies (selection : Option Currency) :
        (selection.map (freshCopy cs)).map (freshCopy cs) = selection.map (freshCopy cs) := by
      cases selection <;> simp
    simp only [rebind, announce, recompute, hcopies]
  swapped := rfl

/-- **Selections do not depend on the order of a list** whose codes differ. A session starts with
the currencies under the configured codes, or else with the first and the last one, and with none
only if there are none. Its pair is bound anew under the codes it has. -/
theorem selection_orderFree (hperm : cs.Perm cs') (hcodes : (cs.map (·.code)).Nodup) :
    (∀ settings, start settings cs = start settings cs' ∧
      Selects cs settings.source (Before Currency.order) (start settings cs).source ∧
      Selects cs settings.target (fun a b => Before Currency.order b a)
        (start settings cs).target ∧
      ((start settings cs).source = none ↔ cs = []) ∧
      ((start settings cs).target = none ↔ cs = [])) ∧
    ∀ s : Session, s.rebind cs = s.rebind cs' ∧ RebindsPair cs s := by
  refine ⟨fun settings => ?_, fun s => ⟨?_, rebindsPair hcodes s⟩⟩
  · have hsource := selects_source settings hcodes
    have htarget := selects_target settings hcodes
    exact ⟨start_perm settings hperm hcodes, hsource, htarget, hsource.eq_none_iff,
      htarget.eq_none_iff⟩
  · rw [rebind, rebind, freshCopy_perm hperm hcodes]

/-- Three currencies that the user has put in another order than that of their codes. -/
def arranged : List Currency :=
  [{ code := "AUD", order := 2 }, { code := "BRL", order := 0 }, { code := "ZAR", order := 1 }]

/-- The yen and the dollar are not among them. -/
theorem selection_orderFree_arranged :
    (start {} arranged).source = some { code := "BRL", order := 0 } ∧
      (start {} arranged).target = some { code := "AUD", order := 2 } ∧
      start {} arranged = start {} arranged.reverse ∧
      (quotedSession .one).rebind arranged = (quotedSession .one).rebind arranged.reverse ∧
      RebindsPair arranged (quotedSession .one) := by
  obtain ⟨hstart, hrebind⟩ := selection_orderFree (List.reverse_perm arranged).symm (by decide)
  exact ⟨by decide +kernel, by decide +kernel, (hstart {}).1, hrebind (quotedSession .one)⟩

end CurrencyPad.Session
