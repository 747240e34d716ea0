/-
CurrencyPad.Proofs.Json.Fields — reading the fields of a record that was
written.

A record with different names is read by looking its fields up, in
whatever order they stand (`fields?_ofFields`). A tagged record gives its
tag, which may stand anywhere, and the record of the other fields
(`tagged?_ofFields`, `exists_tagged?_of_perm`). A field that has its
default may be left out (`orElse_lookup`).
-/
import CurrencyPad.Json.Decimal

namespace CurrencyPad.Json

variable {fields : List (String × Json)}

/-! ## 1. Members -/

/-- The members of a record. -/
def membersOf (fields : List (String × Json)) : List Member :=
  fields.map fun f => (some f.1, f.2)

theorem ofFields_eq (fields : List (String × Json)) : ofFields fields = .object (membersOf fields) :=
  rfl

theorem lookup_eq_none {name : String} (h : name ∉ fields.map Prod.fst) :
    fields.lookup name = none := by
  refine List.lookup_eq_none_iff.mpr fun f hf => ?_
  rw [bne_iff_ne]
  rintro rfl
  exact h (List.mem_map_of_mem hf)

/-- Under different names, a name has the value that is looked up. -/
theorem member?_membersOf (hnames : (fields.map Prod.fst).Nodup) (name : String) :
    member? (membersOf fields) name = some (fields.lookup name) := by
  have hfilter : (membersOf fields).filter (·.1 == some name) =
      ((fields.lookup name).map fun v => (some name, v)).toList := by
    induction fields with
    | nil => rfl
    | cons f r ih =>
      obtain ⟨hfirst, hrest⟩ := List.nodup_cons.mp hnames
      have ih := ih hrest
      rw [membersOf, List.map_cons, List.filter_cons, ← membersOf, List.lookup_cons]
      by_cases hname : f.1 = name
      · -- there is no other member of that name
        rw [lookup_eq_none (hname ▸ hfirst)] at ih
        simp [hname, ih]
      · have hne : (name == f.1) = false := by simpa using Ne.symm hname
        simp [hname, hne, ih]
  rw [member?, hfilter]
  cases fields.lookup name <;> rfl

/-- **A record is read by looking its fields up.** -/
theorem fields?_ofFields (hnames : (fields.map Prod.fst).Nodup) (names : List String) :
    (ofFields fields).fields? names = some (names.map (fields.lookup ·)) := by
  have hall : (membersOf fields).all (·.1.isSome) = true := by simp [membersOf]
  rw [ofFields_eq, fields?, if_pos hall]
  induction names with
  | nil => rfl
  | cons name r ih => rw [List.mapM_cons, member?_membersOf hnames, ih]; rfl

theorem completeFields?_ofFields (hnames : (fields.map Prod.fst).Nodup) (names : List String) :
    (ofFields fields).completeFields? names = some (names.map (fields.lookup ·)) := by
  rw [completeFields?, fields?_ofFields hnames]
  rfl

/-! ## 2. Tags -/

theorem isPlain_ofFields {depth : Nat} (h : ∀ f ∈ fields, f.2.isPlain depth = true) :
    (ofFields fields).isPlain (depth + 1) = true := by
  have hmembers : membersPlain depth (membersOf fields) = true := by
    induction fields with
    | nil => rfl
    | cons f r ih =>
      rw [membersOf, List.map_cons, membersPlain, ← membersOf, h f (by simp),
        ih fun g hg => h g (by simp [hg])]
      rfl
  rw [ofFields_eq, isPlain, Nat.add_sub_cancel, hmembers]
  simp

@[simp] theorem isPlain_string (s : String) (depth : Nat) : (string s).isPlain depth = true := rfl

theorem isPlain_ofOption {α : Type} {write : α → Json} {depth : Nat}
    (h : ∀ a, (write a).isPlain depth = true) (a : Option α) :
    (ofOption write a).isPlain depth = true := by
  cases a with
  | none => rfl
  | some a => exact h a

theorem isPlain_ofTexts (xs : List String) (depth : Nat) :
    (ofTexts xs).isPlain (depth + 1) = true := by
  have hitems : itemsPlain depth (xs.map string) = true := by
    induction xs with
    | nil => rfl
    | cons x r ih =>
      rw [List.map_cons, itemsPlain, ih, isPlain_string, Bool.and_self]
  rw [ofTexts, isPlain, Nat.add_sub_cancel, hitems]
  simp

/-- **A tagged record** gives its tag and the other fields. -/
theorem tagged?_ofFields (hnames : (fields.map Prod.fst).Nodup)
    (hplain : ∀ f ∈ fields, f.2.isPlain 126 = true) {tag name : String}
    (htag : fields.lookup tag = some (.string name)) :
    (ofFields fields).tagged? tag = some (name, ofFields (fields.filter (·.1 != tag))) := by
  have hrest : (membersOf fields).filter (·.1 != some tag) =
      membersOf (fields.filter (·.1 != tag)) := by
    simp [membersOf, List.filter_map, Function.comp_def, bne]
  have hplain := isPlain_ofFields hplain
  rw [ofFields_eq] at hplain ⊢
  rw [tagged?, if_pos hplain]
  simp only [member?_membersOf hnames, htag, hrest]
  rfl

/-! ## 3. Fields -/

/-- A field that may be null is read as it was written, if only null is written as null. -/
theorem optional_ofOption {α β : Type} {read : Json → Option β} {write : α → Json}
    (hnull : ∀ a, write a ≠ .null) (a : Option α) :
    Json.optional read (some (ofOption write a)) =
      a.elim (some none) fun a => (read (write a)).map some := by
  cases a with
  | none => rfl
  | some a =>
    change nullable? read (write a) = _
    unfold nullable?
    split
    · exact absurd ‹_› (hnull a)
    · rfl

theorem optional_text (s : Option String) :
    Json.optional text? (some (ofOption .string s)) = some s := by
  cases s <;> rfl

theorem required_ofTexts (xs : List String) :
    Json.required (list? text?) (some (ofTexts xs)) = some xs := by
  change (xs.map string).mapM text? = some xs
  induction xs with
  | nil => rfl
  | cons x r ih =>
    rw [List.map_cons, List.mapM_cons, ih]
    rfl

/-- A count of at most 32 bits is read as it was written. -/
theorem count?_ofInt {n : Nat} (h : n ≤ 4294967295) : (number (.ofInt n)).count? = some n := by
  have hsign : ¬((n : Int) < 0) := by omega
  have hbits : n ≤ 18446744073709551615 := by omega
  have hinteger : (Numeral.ofInt n).integer? = some (n : Int) := by
    simp [Numeral.integer?, Numeral.ofInt, hsign, Text.number_digits, hbits]
  have hread : (number (.ofInt n)).integer? 0 4294967295 = some (n : Int) := by
    simp only [number, integer?, hinteger]
    exact if_pos ⟨by omega, by omega⟩
  rw [count?, hread]
  rfl

theorem mem_of_lookup {name : String} {v : Json} (h : fields.lookup name = some v) :
    (name, v) ∈ fields := by
  obtain ⟨before, after, rfl, -⟩ := List.lookup_eq_some_iff.mp h
  simp

theorem lookup_of_mem (hnames : (fields.map Prod.fst).Nodup) {name : String} {v : Json}
    (h : (name, v) ∈ fields) : fields.lookup name = some v := by
  obtain ⟨before, after, rfl⟩ := List.append_of_mem h
  refine List.lookup_eq_some_iff.mpr ⟨before, after, rfl, fun f hf => ?_⟩
  rw [bne_iff_ne]
  rintro rfl
  rw [List.map_append, List.map_cons, List.nodup_append] at hnames
  exact hnames.2.2 _ (List.mem_map_of_mem hf) _ (by simp) rfl

/-- The order of the fields makes no difference to what is looked up. -/
theorem lookup_perm {record : List (String × Json)} (hperm : fields.Perm record)
    (hnames : (record.map Prod.fst).Nodup) (name : String) :
    fields.lookup name = record.lookup name := by
  have hnames' : (fields.map Prod.fst).Nodup := (hperm.map _).nodup_iff.mpr hnames
  cases h : record.lookup name with
  | some v => exact lookup_of_mem hnames' (hperm.mem_iff.mpr (mem_of_lookup h))
  | none =>
    cases h' : fields.lookup name with
    | none => rfl
    | some v =>
      rw [lookup_of_mem hnames (hperm.mem_iff.mp (mem_of_lookup h'))] at h
      cases h

theorem lookup_filter_ne {tag name : String} (h : name ≠ tag) :
    (fields.filter (·.1 != tag)).lookup name = fields.lookup name := by
  induction fields with
  | nil => rfl
  | cons f r ih =>
    by_cases htag : f.1 = tag
    · have hname : (name == f.1) = false := by simpa [htag] using h
      rw [List.filter_cons_of_neg (by simp [htag]), ih, List.lookup_cons, hname]
    · rw [List.filter_cons_of_pos (by simp [htag]), List.lookup_cons, List.lookup_cons, ih]

/-- **A field with a default** may be left out when its value is read as the default. -/
theorem orElse_lookup {α : Type} {read : Json → Option α} {default x : α}
    {dropped : List (String × Json)} (hnames : ((fields ++ dropped).map Prod.fst).Nodup)
    {name : String} {v : Json} (hmem : (name, v) ∈ fields ++ dropped) (hread : read v = some x)
    (hdefault : (name, v) ∈ dropped → x = default) :
    Json.orElse default read (fields.lookup name) = some x := by
  rw [List.map_append, List.nodup_append] at hnames
  obtain ⟨hfields, -, hdisjoint⟩ := hnames
  rcases List.mem_append.mp hmem with hkept | hdropped
  · rw [lookup_of_mem hfields hkept]
    exact hread
  · have hnone : name ∉ fields.map Prod.fst := fun h =>
      hdisjoint _ h _ (List.mem_map_of_mem hdropped) rfl
    rw [lookup_eq_none hnone, hdefault hdropped]
    rfl

/-! ## 4. Tagged records in any order -/

/-- **A tagged record in any order** gives its tag and, by their names, the values of its other
fields. -/
theorem exists_tagged?_of_perm (tag name : String) (names : List String)
    {record : List (String × Json)} (hperm : fields.Perm record)
    (hnames : (record.map Prod.fst).Nodup) (hplain : ∀ f ∈ record, f.2.isPlain 126 = true)
    (htag : record.lookup tag = some (.string name)) (hne : tag ∉ names) :
    ∃ rest, (ofFields fields).tagged? tag = some (name, rest) ∧ rest.isUnit = true ∧
      rest.completeFields? names = some (names.map (record.lookup ·)) := by
  have hnames' : (fields.map Prod.fst).Nodup := (hperm.map _).nodup_iff.mpr hnames
  have hrest : ((fields.filter (·.1 != tag)).map Prod.fst).Nodup :=
    (List.filter_sublist.map _).nodup hnames'
  refine ⟨ofFields (fields.filter (·.1 != tag)), ?_, rfl, ?_⟩
  · refine tagged?_ofFields hnames' (fun f hf => hplain f (hperm.mem_iff.mp hf)) ?_
    rw [lookup_perm hperm hnames, htag]
  · rw [completeFields?_ofFields hrest]
    refine congrArg some (List.map_congr_left fun name hname => ?_)
    have hother : name ≠ tag := fun h => hne (h ▸ hname)
    rw [lookup_filter_ne hother, lookup_perm hperm hnames]

end CurrencyPad.Json
