/-
CurrencyPad.Proofs.Text.Groups — groups of three digits.

`Grouped g` says what grouped digits look like: a first group of one to
three digits, and groups of exactly three after it, each behind a mark
`g`. `groups` puts the marks where they belong (`grouped_groups`) and adds
nothing else (`filter_groups`).

Whether a mark comes after a digit depends on how many digits follow, so
digits are grouped from the right: three digits at the end are a group of
their own (`groups_append`).
-/
import CurrencyPad.Text.Digits

namespace CurrencyPad.Text

/-- A group of one to three digits, then groups of three, with a mark before each. -/
inductive Grouped (g : Char) : List Char → Prop
  | first {ds : List Char} : 1 ≤ ds.length → ds.length ≤ 3 → (∀ c ∈ ds, c.isDigit = true) →
      Grouped g ds
  | group {cs ds : List Char} : Grouped g cs → ds.length = 3 → (∀ c ∈ ds, c.isDigit = true) →
      Grouped g (cs ++ g :: ds)

theorem groups_nil_mark (ds : List Char) : groups [] ds = ds := by
  fun_induction groups [] ds <;> simp_all

theorem groups_of_length_le {mark ds : List Char} (h : ds.length ≤ 3) : groups mark ds = ds := by
  match ds, h with
  | [], _ => rfl
  | [_], _ => rfl
  | [_, _], _ => rfl
  | [_, _, _], _ => rfl

/-- Three digits at the end are a group. -/
theorem groups_append {mark ds : List Char} (hds : ds.length = 3) {cs : List Char}
    (hcs : cs ≠ []) : groups mark (cs ++ ds) = groups mark cs ++ mark ++ ds := by
  induction cs with
  | nil => exact absurd rfl hcs
  | cons c r ih =>
    have hne : r ++ ds ≠ [] := by
      intro hnil
      simp_all
    cases r with
    | nil =>
      rw [List.singleton_append, groups.eq_3 _ _ _ (by simpa using hne), if_pos (by omega),
        groups_of_length_le (by omega)]
      rfl
    | cons d r =>
      have hmod : ((d :: r) ++ ds).length % 3 = (d :: r).length % 3 := by
        rw [List.length_append]
        omega
      rw [List.cons_append, groups.eq_3 _ _ _ hne, groups.eq_3 _ _ _ (by simp), hmod,
        ih (by simp)]
      split <;> simp

/-- **The marks are where they belong.** -/
theorem grouped_groups (g : Char) {ds : List Char} (hne : ds ≠ [])
    (h : ∀ c ∈ ds, c.isDigit = true) : Grouped g (groups [g] ds) := by
  have hpos := List.length_pos_iff.mpr hne
  by_cases hlong : ds.length ≤ 3
  · rw [groups_of_length_le hlong]
    exact .first hpos hlong h
  · have hsplit := List.take_append_drop (ds.length - 3) ds
    have hlast : (ds.drop (ds.length - 3)).length = 3 := by rw [List.length_drop]; omega
    have hfront : ds.take (ds.length - 3) ≠ [] := by
      rw [← List.length_pos_iff, List.length_take]
      omega
    rw [← hsplit, groups_append hlast hfront, List.append_assoc, List.singleton_append]
    exact .group (grouped_groups g hfront fun c hc => h c (List.mem_of_mem_take hc)) hlast
      fun c hc => h c (List.mem_of_mem_drop hc)
termination_by ds.length

/-- Nothing but the marks was added. -/
theorem filter_groups {p : Char → Bool} {mark : List Char} (hmark : ∀ c ∈ mark, p c = false)
    (ds : List Char) : (groups mark ds).filter p = ds.filter p := by
  have hnone : mark.filter p = [] := by simpa using hmark
  fun_induction groups mark ds with
  | case1 => rfl
  | case2 c => rfl
  | case3 c r _ _ ih => simp [List.filter_cons, hnone, ih]
  | case4 c r _ _ ih => simp [List.filter_cons, ih]

theorem head?_groups (mark ds : List Char) : (groups mark ds).head? = ds.head? := by
  fun_cases groups mark ds <;> rfl

end CurrencyPad.Text
