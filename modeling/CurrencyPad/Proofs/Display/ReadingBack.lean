/-
CurrencyPad.Proofs.Display.ReadingBack — a number that is shown reads back
as the rounded one.

What is shown is a number rounded half away from zero (`RoundsAway`), in
its canonical spelling, with the separators of a format put in. Taking
them out again (`NumberFormat.plain`) leaves the spelling as it was
(`plain_formatChars`), so one reads exactly the rounded number.
`Shows` says this and how the text looks besides: its sign, its groups and
its fraction digits. Every number is shown in this way (`shows_format`), if
the two separators differ and neither is taken for a digit or a sign.
-/
import CurrencyPad.Display
import CurrencyPad.Proofs.Decimal.Denotation
import CurrencyPad.Proofs.Decimal.HalfAway
import CurrencyPad.Proofs.Text.Groups

namespace CurrencyPad

open Text Decimal

/-! ## 1. How a number must look -/

/-- Without superfluous zeros in front, in groups of three or without any mark. -/
structure IsWholePart (grouping : Option Char) (whole : List Char) : Prop where
  zero : whole = ['0'] ∨ whole.head? ≠ some '0'
  grouped : ∀ g, grouping = some g → Grouped g whole
  plain : grouping = none → whole ≠ [] ∧ ∀ c ∈ whole, c.isDigit = true

/-- Not there, or some digits behind the point, not too many and without a zero at the end. -/
def IsFractionPart (point : Char) (digits : Nat) (fraction : List Char) : Prop :=
  fraction = [] ∨ ∃ ds, fraction = point :: ds ∧ 1 ≤ ds.length ∧ ds.length ≤ digits ∧
    (∀ c ∈ ds, c.isDigit = true) ∧ ds.getLast? ≠ some '0'

namespace NumberFormat

/-- Without the marks between groups, and with a point before the fraction. -/
def plain (f : NumberFormat) (shown : List Char) : List Char :=
  (shown.filter fun c => f.grouping != some c).map fun c => if c = f.point then '.' else c

/-- The separators can be told from each other, from digits and from a sign. -/
structure Legible (f : NumberFormat) : Prop where
  distinct : f.grouping ≠ some f.point
  point : f.point.isDigit = false ∧ f.point ≠ '-'
  grouping : ∀ g, f.grouping = some g → g.isDigit = false ∧ g ≠ '-'

/-- The text shows `r` with at most some number of fraction digits. -/
structure Shows (f : NumberFormat) (digits : Nat) (r : Rat) (shown : List Char) : Prop where
  sign : shown.head? = some '-' ↔ r < 0
  denotes : Denotes (f.plain shown) r
  parts : ∃ sign whole fraction, shown = sign ++ whole ++ fraction ∧
    sign = (if r < 0 then ['-'] else []) ∧ IsWholePart f.grouping whole ∧
      IsFractionPart f.point digits fraction

/-! ## 2. Taking the separators out -/

variable {f : NumberFormat}

theorem plain_append (f : NumberFormat) (cs ds : List Char) :
    f.plain (cs ++ ds) = f.plain cs ++ f.plain ds := by
  simp [plain]

theorem Legible.not_grouping (h : f.Legible) {c : Char} (hc : c.isDigit = true) :
    (f.grouping != some c) = true := by
  rw [bne_iff_ne]
  intro hg
  have := (h.grouping c hg).1
  simp [hc] at this

theorem Legible.not_point (h : f.Legible) {c : Char} (hc : c.isDigit = true) : c ≠ f.point := by
  rintro rfl
  simp [h.point.1] at hc

/-- Digits are kept. -/
theorem Legible.plain_digits (h : f.Legible) {ds : List Char}
    (hds : ∀ c ∈ ds, c.isDigit = true) : f.plain ds = ds := by
  have hfilter : ds.filter (fun c => f.grouping != some c) = ds :=
    List.filter_eq_self.mpr fun c hc => h.not_grouping (hds c hc)
  rw [plain, hfilter]
  exact (List.map_congr_left fun c hc => if_neg (h.not_point (hds c hc))).trans (List.map_id ds)

/-- Of grouped digits the digits are left. -/
theorem Legible.plain_groups (h : f.Legible) {ds : List Char}
    (hds : ∀ c ∈ ds, c.isDigit = true) : f.plain (groups f.grouping.toList ds) = ds := by
  have hmark : ∀ c ∈ f.grouping.toList, (f.grouping != some c) = false := by
    intro c hc
    simpa using hc
  have hgroups : f.plain (groups f.grouping.toList ds) = f.plain ds := by
    rw [plain, plain, filter_groups hmark]
  rw [hgroups, h.plain_digits hds]

theorem Legible.plain_sign (h : f.Legible) (d : Decimal) : f.plain d.signChars = d.signChars := by
  rw [signChars]
  split
  · have hgrouping : f.grouping ≠ some '-' := fun hg => (h.grouping '-' hg).2 rfl
    simp [plain, hgrouping, h.point.2.symm]
  · rfl

theorem Legible.plain_point (h : f.Legible) {ds : List Char}
    (hds : ∀ c ∈ ds, c.isDigit = true) : f.plain (f.point :: ds) = '.' :: ds := by
  have hpoint : f.plain [f.point] = ['.'] := by simp [plain, h.distinct]
  rw [← List.singleton_append, plain_append, hpoint, h.plain_digits hds, List.singleton_append]

/-- **Without its separators** what is shown is the canonical spelling of the rounded number. -/
theorem Legible.plain_formatChars (h : f.Legible) (digits : Nat) (d : Decimal) :
    f.plain (f.formatChars digits d) = (d.roundTo digits).normalize.toChars := by
  rw [formatChars, toChars, plain_append, plain_append, h.plain_sign,
    h.plain_groups fun _ => isDigit_of_mem_wholeDigits]
  split
  · rfl
  · rw [h.plain_point fun _ => isDigit_of_mem_fractionDigits]

/-! ## 3. The parts -/

theorem isWholePart_groups (grouping : Option Char) (d : Decimal) :
    IsWholePart grouping (groups grouping.toList d.wholeDigits) where
  zero := by
    rw [head?_groups]
    by_cases hzero : d.wholeDigits.head? = some '0'
    · obtain ⟨r, hr⟩ := List.head?_eq_some_iff.mp hzero
      obtain rfl := eq_nil_of_digits_eq_cons hr
      exact .inl (by rw [hr]; rfl)
    · exact .inr hzero
  grouped := by
    rintro g rfl
    exact grouped_groups g (digits_ne_nil _) fun _ => isDigit_of_mem_wholeDigits
  plain := by
    rintro rfl
    rw [Option.toList_none, groups_nil_mark]
    exact ⟨digits_ne_nil _, fun _ => isDigit_of_mem_wholeDigits⟩

/-- The last fraction digit of a normal decimal is not a zero. -/
theorem getLast?_fractionDigits {d : Decimal} (hd : IsNormal d) :
    d.fractionDigits.getLast? ≠ some '0' := by
  rw [fractionDigits]
  cases hscale : d.scale with
  | zero => simp [padded]
  | succ k =>
    have hlast : d.coeff % 10 ≠ 0 := hd.fraction.resolve_left (by omega)
    have hdigit : d.coeff.natAbs % tenTo (k + 1) % 10 = d.coeff.natAbs % 10 := by
      rw [tenTo_succ, Nat.mod_mul_left_mod]
    rw [padded, List.getLast?_concat, hdigit]
    have hnonzero : ∀ m < 10, m ≠ 0 → Nat.digitChar m ≠ '0' := by decide
    simpa using hnonzero (d.coeff.natAbs % 10) (by omega) (by omega)

theorem isFractionPart_of_isNormal (point : Char) {digits : Nat} {d : Decimal} (hd : IsNormal d)
    (hscale : d.scale ≤ digits) :
    IsFractionPart point digits (if d.scale = 0 then [] else point :: d.fractionDigits) := by
  split
  · exact .inl rfl
  · refine .inr ⟨d.fractionDigits, rfl, ?_, ?_, fun _ => isDigit_of_mem_fractionDigits,
      getLast?_fractionDigits hd⟩
    · rw [length_fractionDigits]
      omega
    · rwa [length_fractionDigits]

/-- No digit in front is a sign. -/
theorem head?_formatChars (f : NumberFormat) (digits : Nat) (d : Decimal) :
    (f.formatChars digits d).head? = some '-' ↔
      (d.roundTo digits).normalize.isNegative = true := by
  rw [formatChars, List.append_assoc, signChars]
  split
  · rename_i hneg
    simp [hneg]
  · rename_i hneg
    obtain ⟨c, r, hcr⟩ := (d.roundTo digits).normalize.exists_cons_wholeDigits
    have hdigit : c.isDigit = true := isDigit_of_mem_wholeDigits (by rw [hcr]; simp)
    have hhead := head?_groups f.grouping.toList (d.roundTo digits).normalize.wholeDigits
    rw [hcr, List.head?_cons] at hhead
    rw [List.nil_append, List.head?_append, hcr, hhead]
    have hsign : c ≠ '-' := by
      rintro rfl
      exact absurd hdigit (by decide)
    simpa [hneg] using hsign

/-- **A number that is shown reads back as the rounded one**, and looks as it must. It is
rounded half away from zero, so one with no more places than are shown is not rounded. -/
theorem shows_format (f : NumberFormat) (hf : f.Legible) (digits : Nat) (v : Decimal) :
    (∃ r, RoundsAway v.toRat digits r) ∧
      ∀ r, RoundsAway v.toRat digits r →
        (HasPlaces v.toRat digits → r = v.toRat) ∧ f.Shows digits r (f.format digits v).toList := by
  obtain ⟨hrounds, hscale⟩ := roundsAway_roundTo v digits
  refine ⟨⟨_, hrounds⟩, fun r hr => ⟨hr.eq_of_hasPlaces, ?_⟩⟩
  obtain rfl := hr.unique hrounds
  have hnormal := (v.roundTo digits).isNormal_normalize
  have hvalue : (v.roundTo digits).normalize.toRat = (v.roundTo digits).toRat := toRat_normalize _
  have hplaces : (v.roundTo digits).normalize.scale ≤ digits :=
    (hnormal.scale_le_of_toRat_eq hvalue.symm).trans hscale
  have hsign : (v.roundTo digits).normalize.isNegative = true ↔ (v.roundTo digits).toRat < 0 := by
    rw [isNegative_iff, hvalue]
  rw [format, String.toList_ofList]
  refine ⟨(head?_formatChars f digits v).trans hsign, ?_, ?_⟩
  · rw [hf.plain_formatChars, ← hvalue]
    exact denotes_toChars _
  · refine ⟨_, _, _, rfl, ?_, isWholePart_groups _ _,
      isFractionPart_of_isNormal f.point hnormal hplaces⟩
    simp only [signChars, hsign]

/-- The separators of German, with a carry into a new group. -/
theorem shows_format_german :
    let f := forLocale "de-DE"
    f.Shows 2 (-1000000) (f.format 2 { coeff := -999999995, scale := 3 }).toList ∧
      f.format 2 { coeff := -999999995, scale := 3 } = "-1.000.000" := by
  have hformat : forLocale "de-DE" = ⟨some '.', ','⟩ := by decide +kernel
  rw [hformat]
  have hlegible : Legible ⟨some '.', ','⟩ :=
    ⟨by decide, by decide, fun g hg => by obtain rfl := Option.some.inj hg; decide⟩
  refine ⟨((shows_format _ hlegible 2 _).2 _ ⟨⟨-100000000, by norm_num⟩, ?_, fun _ => ?_⟩).2,
    by decide +kernel⟩
  · norm_num [toRat_eq, abs_le]
  · norm_num [toRat_eq, abs_lt]

end NumberFormat
end CurrencyPad
