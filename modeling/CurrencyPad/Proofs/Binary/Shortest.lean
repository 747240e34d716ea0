/-
CurrencyPad.Proofs.Binary.Shortest — the shortest decimal reads back as the
double that it was made for.

The neighbourhood of a double holds only rationals that round to it
(`nearest_of_contains`), and the search looks for a decimal in it. So what
has to be shown is that the search finds one: the last of its twenty grids
is finer than half a unit of the double (`shortest_spec`).

The first grid that has a point in the neighbourhood gives the decimal.
Hence a decimal that rounds to the double (`contains_nearest`) is the one
that is found, if no other point of its grid lies as near
(`value_shortest_of_mem`).
-/
import CurrencyPad.Binary.Shortest
import CurrencyPad.Proofs.Binary.Nearest

namespace CurrencyPad.Binary

open Text

variable {f : Format} {x y : Rat} {m : Nat} {q : Int}

/-! ## 1. The neighbourhood -/

theorem Format.Spells.neighbourhood_eq (hf : 0 < f.precision) (h : f.Spells x m q) :
    f.neighbourhood x =
      ⟨x, if m = 2 ^ (f.precision - 1) ∧ f.lowest < q then x - 2 ^ q / 4 else x - 2 ^ q / 2,
        x + 2 ^ q / 2, decide (m % 2 = 0)⟩ := by
  have hfloor : (x / 2 ^ q).floor = m := by
    have hdiv : x / 2 ^ q = (m : Int) := by
      rw [h.value]
      push_cast
      field_simp
    rw [hdiv, Rat.floor_intCast]
  have hnarrow : ((m : Int) = (Nat.pow 2 (f.precision - 1) : Nat) ∧ f.lowest < q) ↔
      (m = 2 ^ (f.precision - 1) ∧ f.lowest < q) := by
    rw [Int.natCast_inj]
    rfl
  have heven : ((m : Int) % 2 = 0) ↔ m % 2 = 0 := by omega
  simp only [Format.neighbourhood, h.lastBit_eq hf, power_eq, Nat.cast_ofNat, hfloor, hnarrow,
    heven, decide_eq_true_eq]

theorem Neighbourhood.contains_iff {n : Neighbourhood} :
    n.contains y = true ↔
      n.low ≤ y ∧ y ≤ n.high ∧ (n.closed = true ∨ (n.low < y ∧ y < n.high)) := by
  rw [Neighbourhood.contains]
  cases n.closed with
  | true => simp
  | false =>
    simp only [Bool.false_eq_true, if_false, decide_eq_true_eq, false_or]
    exact ⟨fun h => ⟨h.1.le, h.2.le, h⟩, fun h => h.2.2⟩

/-- Between two rationals of a neighbourhood there are only such. -/
theorem Neighbourhood.contains_of_between {n : Neighbourhood} {a b : Rat}
    (ha : n.contains a = true) (hb : n.contains b = true) (hay : a ≤ y) (hyb : y ≤ b) :
    n.contains y = true := by
  rw [contains_iff] at ha hb ⊢
  refine ⟨ha.1.trans hay, hyb.trans hb.2.1, ?_⟩
  rcases ha.2.2 with hclosed | ha
  · exact .inl hclosed
  · rcases hb.2.2 with hclosed | hb
    · exact .inl hclosed
    · exact .inr ⟨ha.1.trans_le hay, hyb.trans_lt hb.2⟩

/-- What lies in the neighbourhood is no further than half a unit. -/
theorem Format.Spells.abs_sub_le_of_contains (hf : 0 < f.precision) (h : f.Spells x m q)
    (hy : (f.neighbourhood x).contains y = true) : |y - x| ≤ 1 / 2 * 2 ^ q := by
  have hu := two_zpow_pos q
  rw [h.neighbourhood_eq hf, Neighbourhood.contains_iff] at hy
  obtain ⟨hlow, hhigh, -⟩ := hy
  rw [abs_le]
  dsimp only at hlow hhigh
  constructor
  · split at hlow <;> linarith
  · linarith

/-- **What lies in the neighbourhood** of a number rounds to it. -/
theorem Format.Spells.nearest_of_contains (hf : 0 < f.precision) (h : f.Spells x m q)
    (hy : (f.neighbourhood x).contains y = true) : f.nearest y = x := by
  have hu := two_zpow_pos q
  have hnear := h.abs_sub_le_of_contains hf hy
  rw [h.neighbourhood_eq hf, Neighbourhood.contains_iff] at hy
  obtain ⟨hlow, hhigh, hends⟩ := hy
  dsimp only at hlow hhigh hends
  by_cases hnarrow : m = 2 ^ (f.precision - 1) ∧ f.lowest < q
  · rw [if_pos hnarrow] at hlow hends
    rcases lt_or_ge y x with hlt | hge
    · exact h.nearest_eq_of_below hf hnarrow.1 hnarrow.2 (by linarith) hlt
    · refine h.nearest_eq_of_near hf hnear ?_ (.inr (.inr hge))
      rcases hends with heven | hends
      · exact .inr (by simpa using heven)
      · refine .inl ?_
        rw [abs_of_nonneg (by linarith)]
        linarith
  · rw [if_neg hnarrow] at hlow hends
    refine h.nearest_eq_of_near hf hnear ?_ ?_
    · rcases hends with heven | hends
      · exact .inr (by simpa using heven)
      · refine .inl ?_
        rw [abs_lt]
        constructor <;> linarith
    · rcases h.full with hlowest | hfull
      · exact .inl hlowest
      · rcases hfull.lt_or_eq with hlt | heq
        · exact .inr (.inl hlt)
        · have := h.lowest_le
          have hnot : ¬f.lowest < q := fun hlt => hnarrow ⟨heq.symm, hlt⟩
          exact .inl (by omega)

/-- **What rounds to a number** lies in its neighbourhood. -/
theorem Format.contains_nearest (hf : 1 < f.precision) (hy : 0 < y) (hne : f.nearest y ≠ 0) :
    (f.neighbourhood (f.nearest y)).contains y = true := by
  have hu := two_zpow_pos (f.lastBit y)
  obtain ⟨hmost, hleast⟩ := f.lastBit_bounds (by omega) hy
  obtain ⟨hbelow, habove⟩ := abs_le.mp (f.abs_nearest_sub_le hy)
  have htie := Rounding.abs_lt_or_even (y / 2 ^ f.lastBit y)
  obtain ⟨k, hk, hspells | ⟨rfl, hspells⟩⟩ := f.spells_or_carried (by omega) hy hne
  · have hvalue := hspells.value
    rw [hk, abs_div_sub, div_lt_iff₀ hu, Int.cast_natCast, ← hvalue, abs_lt] at htie
    rw [hspells.neighbourhood_eq (by omega), Neighbourhood.contains_iff]
    dsimp only
    generalize f.nearest y = x at *
    generalize f.lastBit y = q at *
    split
    · -- nothing rounds to a power of two from below: that would have been carried
      rename_i hnarrow
      obtain ⟨rfl, hq⟩ := hnarrow
      have hxy : x ≤ y := by
        rcases hleast with heq | hleast
        · omega
        · rw [hvalue]
          exact_mod_cast hleast
      refine ⟨by linarith, by linarith, ?_⟩
      refine htie.symm.imp (fun heven => decide_eq_true (by omega)) fun hlt => ?_
      exact ⟨by linarith, by linarith⟩
    · refine ⟨by linarith, by linarith, ?_⟩
      refine htie.symm.imp (fun heven => decide_eq_true (by omega)) fun hlt => ?_
      exact ⟨by linarith, by linarith⟩
  · -- carried to a power of two, below which the units are half as large
    have hvalue := hspells.value
    have hlow : f.lowest ≤ f.lastBit y := le_max_left _ _
    have heven : 2 ^ (f.precision - 1) % 2 = 0 := by
      rw [show f.precision - 1 = f.precision - 2 + 1 by omega, pow_succ]
      omega
    have hpow : (2 : Rat) ^ f.precision = 2 ^ (f.precision - 1) * 2 := by
      rw [← pow_succ, Nat.sub_add_cancel (by omega)]
    have hunit : (2 : Rat) ^ (f.lastBit y + 1) = 2 ^ f.lastBit y * 2 := zpow_add_one₀ (by norm_num) _
    rw [hspells.neighbourhood_eq (by omega), Neighbourhood.contains_iff]
    dsimp only
    rw [hunit] at hvalue ⊢
    rw [hpow] at hmost
    push_cast at hvalue
    rw [if_pos ⟨rfl, by omega⟩]
    refine ⟨by linarith, ?_, .inl (decide_eq_true heven)⟩
    linarith

/-- The neighbourhood reaches half a unit upwards. -/
theorem Format.Spells.contains_of_lt (hf : 0 < f.precision) (h : f.Spells x m q) (hxy : x ≤ y)
    (hy : y < x + 1 / 2 * 2 ^ q) : (f.neighbourhood x).contains y = true := by
  have hu := two_zpow_pos q
  have hlow : (if m = 2 ^ (f.precision - 1) ∧ f.lowest < q then x - 2 ^ q / 4
      else x - 2 ^ q / 2) < y := by
    split <;> linarith
  rw [h.neighbourhood_eq hf, Neighbourhood.contains_iff]
  exact ⟨hlow.le, by dsimp only; linarith, .inr ⟨hlow, by dsimp only; linarith⟩⟩

/-! ## 2. One grid -/

/-- The number that a spelling denotes. -/
def Spelling.value (s : Spelling) : Rat := s.coeff * 10 ^ s.exponent

/-- A grid has a hit, which lies in the neighbourhood, or its two points next to the centre
do not. -/
theorem Neighbourhood.onGrid?_cases (n : Neighbourhood) (tie : TieRule) (e : Int) :
    (n.onGrid? tie e = none ∧
      n.contains (((n.centre / 10 ^ e).floor.toNat : Nat) * 10 ^ e) = false ∧
      n.contains (((n.centre / 10 ^ e).floor.toNat + 1 : Nat) * 10 ^ e) = false) ∨
    ∃ c : Nat, n.contains (c * 10 ^ e) = true ∧ n.onGrid? tie e = some ⟨c, e⟩ := by
  simp only [Neighbourhood.onGrid?, power_eq, Nat.cast_ofNat]
  generalize (n.centre / 10 ^ e).floor.toNat = below
  split
  · rename_i hbelow habove
    exact .inl ⟨rfl, hbelow, habove⟩
  · rename_i hbelow _
    exact .inr ⟨below, hbelow, rfl⟩
  · rename_i _ habove
    exact .inr ⟨below + 1, habove, rfl⟩
  · rename_i hbelow habove
    cases tie with
    | up =>
      split_ifs
      · exact .inr ⟨below, hbelow, rfl⟩
      all_goals exact .inr ⟨below + 1, habove, rfl⟩
    | even =>
      split_ifs
      · exact .inr ⟨below, hbelow, rfl⟩
      · exact .inr ⟨below + 1, habove, rfl⟩
      · exact .inr ⟨below, hbelow, rfl⟩
      · exact .inr ⟨below + 1, habove, rfl⟩

/-- A hit is a point of its grid and lies in the neighbourhood. -/
theorem Neighbourhood.contains_of_onGrid? {n : Neighbourhood} {tie : TieRule} {e : Int}
    {s : Spelling} (h : n.onGrid? tie e = some s) :
    s.exponent = e ∧ n.contains s.value = true := by
  rcases n.onGrid?_cases tie e with ⟨hnone, -⟩ | ⟨c, hc, hsome⟩
  · rw [hnone] at h
    cases h
  · obtain rfl : ⟨c, e⟩ = s := Option.some.inj (hsome.symm.trans h)
    exact ⟨rfl, hc⟩

/-- A grid has a hit when one of its points next to the centre lies in the neighbourhood. -/
theorem Neighbourhood.isSome_onGrid? {n : Neighbourhood} (tie : TieRule) {e : Int}
    (h : n.contains (((n.centre / 10 ^ e).floor.toNat : Nat) * 10 ^ e) = true ∨
      n.contains (((n.centre / 10 ^ e).floor.toNat + 1 : Nat) * 10 ^ e) = true) :
    (n.onGrid? tie e).isSome = true := by
  rcases n.onGrid?_cases tie e with ⟨-, hbelow, habove⟩ | ⟨c, -, hsome⟩
  · rw [hbelow, habove] at h
    simp at h
  · rw [hsome]
    rfl

/-- The points of a grid next to a number. -/
theorem grid_bounds (hx : 0 ≤ x) (e : Int) :
    ((x / 10 ^ e).floor.toNat : Nat) * 10 ^ e ≤ x ∧
      x < ((x / 10 ^ e).floor.toNat + 1 : Nat) * 10 ^ e := by
  have hstep : (0 : Rat) < 10 ^ e := by positivity
  have hfloor : 0 ≤ (x / 10 ^ e).floor := Rat.le_floor_iff.mpr (by
    exact_mod_cast div_nonneg hx hstep.le)
  have hcast : (((x / 10 ^ e).floor.toNat : Nat) : Rat) = (x / 10 ^ e).floor := by
    exact_mod_cast Int.toNat_of_nonneg hfloor
  have hlow : ((x / 10 ^ e).floor : Rat) ≤ x / 10 ^ e := Rat.floor_le _
  have hhigh : x / 10 ^ e < (x / 10 ^ e).floor + 1 := by
    exact_mod_cast Rat.lt_floor_add_one (x / 10 ^ e)
  rw [le_div_iff₀ hstep] at hlow
  rw [div_lt_iff₀ hstep] at hhigh
  push_cast
  rw [hcast]
  exact ⟨hlow, hhigh⟩

/-- A grid whose steps are less than half a unit has a hit. -/
theorem Format.Spells.isSome_onGrid?_of_lt (hf : 0 < f.precision) (h : f.Spells x m q)
    (tie : TieRule) {e : Int} (he : (10 : Rat) ^ e < 1 / 2 * 2 ^ q) :
    ((f.neighbourhood x).onGrid? tie e).isSome = true := by
  have hcentre : (f.neighbourhood x).centre = x := rfl
  obtain ⟨hbelow, habove⟩ := grid_bounds h.pos_value.le e
  refine Neighbourhood.isSome_onGrid? tie (.inr ?_)
  rw [hcentre]
  refine h.contains_of_lt hf habove.le ?_
  push_cast at hbelow ⊢
  linarith

/-- A grid that has a point in the neighbourhood has a hit. -/
theorem Format.Spells.isSome_onGrid?_of_mem (hf : 0 < f.precision) (h : f.Spells x m q)
    (tie : TieRule) {e : Int} {c : Nat}
    (hc : (f.neighbourhood x).contains (c * 10 ^ e) = true) :
    ((f.neighbourhood x).onGrid? tie e).isSome = true := by
  have hstep : (0 : Rat) < 10 ^ e := by positivity
  have hcentre : (f.neighbourhood x).centre = x := rfl
  have hself : (f.neighbourhood x).contains x = true := by
    have hu := two_zpow_pos q
    exact h.contains_of_lt hf le_rfl (by linarith)
  obtain ⟨hbelow, habove⟩ := grid_bounds h.pos_value.le e
  refine Neighbourhood.isSome_onGrid? tie ?_
  rw [hcentre]
  generalize (x / 10 ^ e).floor.toNat = below at *
  rcases Nat.lt_or_ge below c with hlt | hge
  · -- the point is above the number, so the next one above is
    have hle : ((below + 1 : Nat) : Rat) * 10 ^ e ≤ c * 10 ^ e := by
      gcongr
      exact_mod_cast hlt
    exact .inr (Neighbourhood.contains_of_between hself hc habove.le hle)
  · have hle : (c : Rat) * 10 ^ e ≤ below * 10 ^ e := by
      gcongr
    exact .inl (Neighbourhood.contains_of_between hc hself hle hbelow)

/-! ## 3. The search -/

/-- The search gives the hit on the first grid that has one. -/
theorem Neighbourhood.search_spec {n : Neighbourhood} {tie : TieRule} {last : Int} :
    ∀ (grids : Nat) (e : Int), e < last + grids → last ≤ e →
      (n.onGrid? tie last).isSome = true →
      ∃ hit, last ≤ hit ∧ hit ≤ e ∧ n.onGrid? tie hit = some (n.search tie e grids) ∧
        ∀ e', hit < e' → e' ≤ e → n.onGrid? tie e' = none
  | 0, e, hgrids, hlast, _ => by omega
  | grids + 1, e, hgrids, hlast, hsome => by
    rw [Neighbourhood.search]
    cases hhere : n.onGrid? tie e with
    | some s => exact ⟨e, hlast, le_rfl, hhere, fun e' hlt hle => by omega⟩
    | none =>
      have hne : e ≠ last := by
        rintro rfl
        simp [hhere] at hsome
      obtain ⟨hit, hlow, hhigh, hhit, hnone⟩ := search_spec grids (e - 1)
        (by omega) (by omega) hsome
      refine ⟨hit, hlow, by omega, hhit, fun e' hlt hle => ?_⟩
      rcases hle.lt_or_eq with hlt' | rfl
      · exact hnone e' hlt (by omega)
      · exact hhere

/-- The number of digits of a whole number. -/
theorem length_digits_bounds {n : Nat} (hn : 0 < n) :
    10 ^ ((digits n).length - 1) ≤ n ∧ n < 10 ^ (digits n).length := by
  induction n using Nat.strongRecOn with
  | ind n ih =>
    by_cases hlt : n < 10
    · have hlength : (digits n).length = 1 := by
        rw [digits, Nat.toDigits_of_lt_base hlt]
        rfl
      rw [hlength]
      omega
    · have hsplit : digits n = digits (n / 10) ++ [Nat.digitChar (n % 10)] :=
        Nat.toDigits_of_base_le (by decide) (by omega)
      obtain ⟨hlow, hhigh⟩ := ih (n / 10) (by omega) (by omega)
      have hpos : 0 < (digits (n / 10)).length := List.length_pos_of_ne_nil (digits_ne_nil _)
      have hlength : (digits n).length = (digits (n / 10)).length + 1 := by simp [hsplit]
      obtain ⟨k, hk⟩ : ∃ k, (digits (n / 10)).length = k + 1 := ⟨_, (Nat.succ_pred_eq_of_pos hpos).symm⟩
      rw [hk, Nat.add_sub_cancel] at hlow
      rw [hk] at hhigh
      rw [hlength, hk, Nat.add_sub_cancel]
      rw [pow_succ] at hhigh ⊢
      rw [pow_succ (n := k + 1), pow_succ]
      omega

/-- The digits before the point tell the size of a number from one on. -/
theorem length_digits_floor (hx : 1 ≤ x) :
    (10 : Rat) ^ (((digits x.floor.toNat).length : Int) - 1) ≤ x ∧
      x < 10 ^ ((digits x.floor.toNat).length : Int) := by
  have hfloor : 1 ≤ x.floor := Rat.le_floor_iff.mpr (by exact_mod_cast hx)
  have hlow : (x.floor : Rat) ≤ x := Rat.floor_le x
  have hhigh : x < x.floor + 1 := by exact_mod_cast Rat.lt_floor_add_one x
  obtain ⟨n, hn⟩ := Int.eq_ofNat_of_zero_le (by omega : 0 ≤ x.floor)
  rw [hn] at hfloor hlow hhigh ⊢
  rw [Int.cast_natCast] at hlow hhigh
  change (10 : Rat) ^ (((digits n).length : Int) - 1) ≤ x ∧ x < 10 ^ ((digits n).length : Int)
  obtain ⟨hleast, hmost⟩ := length_digits_bounds (n := n) (by omega)
  obtain ⟨k, hk⟩ : ∃ k, (digits n).length = k + 1 :=
    ⟨_, (Nat.succ_pred_eq_of_pos (List.length_pos_of_ne_nil (digits_ne_nil n))).symm⟩
  rw [hk, Nat.add_sub_cancel] at hleast
  rw [hk] at hmost
  rw [hk, zpow_natCast, Nat.cast_succ, add_sub_cancel_right, zpow_natCast]
  have hleast' : (10 : Rat) ^ k ≤ n := by exact_mod_cast hleast
  have hmost' : (n : Rat) + 1 ≤ 10 ^ (k + 1) := by exact_mod_cast hmost
  exact ⟨by linarith, by linarith⟩

/-- The power of ten that the search starts from lies above the number, and not far. -/
theorem exponentAbove_bounds (hx : 0 < x) :
    (10 : Rat) ^ (exponentAbove x - 2) < x ∧ x ≤ 10 ^ exponentAbove x := by
  rw [exponentAbove]
  split
  · rename_i hone
    obtain ⟨hlow, hhigh⟩ := length_digits_floor hone
    refine ⟨lt_of_lt_of_le ?_ hlow, hhigh.le⟩
    exact zpow_lt_zpow_right₀ (by norm_num) (by omega)
  · rename_i hone
    have hinv : 1 ≤ 1 / x := by
      rw [le_div_iff₀ hx, one_mul]
      exact (not_le.mp hone).le
    obtain ⟨hlow, hhigh⟩ := length_digits_floor hinv
    generalize ((digits (1 / x).floor.toNat).length : Int) = k at *
    have hk : (0 : Rat) < 10 ^ k := by positivity
    have hk1 : (0 : Rat) < 10 ^ (k - 1) := by positivity
    constructor
    · rw [show (2 - k - 2 : Int) = -k by omega, zpow_neg, inv_lt_comm₀ hk hx]
      simpa using hhigh
    · have hle : x ≤ 10 ^ (1 - k) := by
        rw [show (1 - k : Int) = -(k - 1) by omega, zpow_neg, le_inv_comm₀ hx hk1]
        simpa using hlow
      exact hle.trans (zpow_le_zpow_right₀ (by norm_num) (by omega))

/-! ## 4. The shortest decimal of a double -/

theorem double_precision_pos : 0 < double.precision := by decide

/-- Zero, or a number of the format in range. -/
def IsDouble (x : Rat) : Prop :=
  x = 0 ∨ (∃ m q, double.Spells |x| m q) ∧ |x| < 2 ^ (1024 : Int)

/-- The last grid of the search is fine enough for a double. -/
theorem Format.Spells.lastGrid_lt (h : double.Spells x m q) :
    (10 : Rat) ^ (exponentAbove x - 19) < 1 / 2 * 2 ^ q := by
  have hu := two_zpow_pos q
  have hm : (m : Rat) < 2 ^ 53 := by exact_mod_cast h.lt
  have hx : x < 2 ^ 53 * 2 ^ q := by
    rw [h.value]
    gcongr
  have hgrid : (10 : Rat) ^ (exponentAbove x - 19) = 10 ^ (exponentAbove x - 2) * 10 ^ (-17 : Int) := by
    rw [← zpow_add₀ (by norm_num)]
    congr 1
    omega
  have hlow := (exponentAbove_bounds h.pos_value).1
  calc (10 : Rat) ^ (exponentAbove x - 19)
      = 10 ^ (exponentAbove x - 2) * 10 ^ (-17 : Int) := hgrid
    _ < 2 ^ 53 * 2 ^ q * 10 ^ (-17 : Int) := by gcongr; exact hlow.trans hx
    _ ≤ 1 / 2 * 2 ^ q := by
      rw [mul_right_comm]
      gcongr
      norm_num

/-- **The shortest decimal** is the hit on the first grid that has one. -/
theorem Format.Spells.shortest_spec (h : double.Spells x m q) (tie : TieRule) :
    (double.neighbourhood x).contains (shortest tie x).value = true ∧
      exponentAbove x - 19 ≤ (shortest tie x).exponent ∧
      (shortest tie x).exponent ≤ exponentAbove x ∧
      ∀ e', (shortest tie x).exponent < e' → e' ≤ exponentAbove x →
        (double.neighbourhood x).onGrid? tie e' = none := by
  have hlast := h.isSome_onGrid?_of_lt double_precision_pos tie h.lastGrid_lt
  obtain ⟨hit, hlow, hhigh, hhit, hnone⟩ :=
    Neighbourhood.search_spec 20 (exponentAbove x) (by omega) (by omega) hlast
  obtain ⟨rfl, hcontains⟩ := Neighbourhood.contains_of_onGrid? hhit
  exact ⟨hcontains, hlow, hhigh, hnone⟩

/-- **The shortest decimal reads back.** -/
theorem Format.Spells.nearest_shortest (h : double.Spells x m q) (tie : TieRule) :
    double.nearest (shortest tie x).value = x :=
  h.nearest_of_contains double_precision_pos (h.shortest_spec tie).1

/-- A grid coarser than a unit has one point in the neighbourhood at most. -/
theorem Format.Spells.eq_of_mem_grid (hf : 0 < f.precision) (h : f.Spells x m q) {c c' : Nat}
    {e : Int} (hc : (f.neighbourhood x).contains (c * 10 ^ e) = true)
    (hc' : (f.neighbourhood x).contains (c' * 10 ^ e) = true) (hunit : (2 : Rat) ^ q < 10 ^ e) :
    c = c' := by
  have hstep : (0 : Rat) < 10 ^ e := by positivity
  obtain ⟨hlow, hhigh⟩ := abs_le.mp (h.abs_sub_le_of_contains hf hc)
  obtain ⟨hlow', hhigh'⟩ := abs_le.mp (h.abs_sub_le_of_contains hf hc')
  have hlt : (c : Rat) < c' + 1 := lt_of_mul_lt_mul_right (by linarith) hstep.le
  have hlt' : (c' : Rat) < c + 1 := lt_of_mul_lt_mul_right (by linarith) hstep.le
  have : c < c' + 1 := by exact_mod_cast hlt
  have : c' < c + 1 := by exact_mod_cast hlt'
  omega

/-- The search does not start below a grid that has a point in the neighbourhood. -/
theorem Format.Spells.le_exponentAbove_of_mem (hf : 0 < f.precision) (h : f.Spells x m q) {c : Nat}
    {e : Int} (hc : (f.neighbourhood x).contains (c * 10 ^ e) = true) : e ≤ exponentAbove x := by
  by_contra hlt
  have hle : (10 : Rat) ^ exponentAbove x ≤ 10 ^ (e - 1) :=
    zpow_le_zpow_right₀ (by norm_num) (by omega)
  have hpow : (10 : Rat) ^ e = 10 ^ (e - 1) * 10 := by
    rw [← zpow_add_one₀ (by norm_num), sub_add_cancel]
  have hstep : (0 : Rat) < 10 ^ e := by positivity
  have hu := two_zpow_pos q
  have hx := (exponentAbove_bounds h.pos_value).2
  obtain ⟨hlow, hhigh⟩ := abs_le.mp (h.abs_sub_le_of_contains hf hc)
  have hunits : (1 : Rat) * 2 ^ q ≤ m * 2 ^ q := by
    gcongr
    exact_mod_cast h.pos
  rw [← h.value] at hunits
  have hcpos : (0 : Rat) < c := pos_of_mul_pos_left (by linarith) hstep.le
  have hcstep : (1 : Rat) * 10 ^ e ≤ c * 10 ^ e := by
    gcongr
    exact_mod_cast hcpos
  linarith

/-- **A decimal in the neighbourhood** on a grid coarser than a unit is the one that is found:
its grid has no other point there, nor has any coarser grid. -/
theorem Format.Spells.value_shortest_of_mem (h : double.Spells x m q) (tie : TieRule) {c : Nat}
    {e : Int} (hmem : (double.neighbourhood x).contains (c * 10 ^ e) = true)
    (hunit : (2 : Rat) ^ q < 10 ^ e) :
    e ≤ (shortest tie x).exponent ∧ (shortest tie x).value = c * 10 ^ e := by
  obtain ⟨hfound, -, -, hnone⟩ := h.shortest_spec tie
  have hexponent : e ≤ (shortest tie x).exponent := by
    by_contra hlt
    have hgrid := h.isSome_onGrid?_of_mem double_precision_pos tie hmem
    rw [hnone e (by omega) (h.le_exponentAbove_of_mem double_precision_pos hmem)] at hgrid
    cases hgrid
  refine ⟨hexponent, ?_⟩
  -- a point of a coarser grid is one of this grid too
  obtain ⟨c', hc'⟩ : ∃ c' : Nat, (shortest tie x).value = c' * 10 ^ e := by
    refine ⟨(shortest tie x).coeff * 10 ^ ((shortest tie x).exponent - e).toNat, ?_⟩
    push_cast
    rw [Spelling.value, mul_assoc, ← zpow_natCast, Int.toNat_of_nonneg (by omega),
      ← zpow_add₀ (by norm_num), sub_add_cancel]
  rw [hc'] at hfound ⊢
  rw [h.eq_of_mem_grid double_precision_pos hfound hmem hunit]

end CurrencyPad.Binary
