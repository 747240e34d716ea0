/-
CurrencyPad.Proofs.Text.Trim — what trimming leaves.

`strip p` takes the characters of any class `p` off both ends of a text.
Trimming is the case of the blanks; in a text whose only blanks are
spaces it is also the case of the space (`strip_congr`). What is left
begins and ends outside the class.
-/
import Mathlib.Data.List.DropRight
import CurrencyPad.Text.Blank

namespace CurrencyPad.Text

/-- Without the characters of a class at both ends. -/
def strip (p : Char → Bool) (cs : List Char) : List Char :=
  (cs.dropWhile p).rdropWhile p

theorem trimChars_eq_strip (cs : List Char) : trimChars cs = strip isBlank cs := rfl

/-! ## 1. What is left -/

theorem mem_of_mem_strip {p : Char → Bool} {cs : List Char} {c : Char}
    (h : c ∈ strip p cs) : c ∈ cs :=
  (List.dropWhile_sublist p).mem ((List.rdropWhile_prefix p _).mem h)

theorem getLast?_strip {p : Char → Bool} {cs : List Char} {c : Char}
    (h : (strip p cs).getLast? = some c) : p c = false := by
  obtain ⟨hne, rfl⟩ := List.mem_getLast?_eq_getLast h
  simpa [strip] using List.rdropWhile_last_not p (cs.dropWhile p) hne

/-- Nothing of the class is left in front, since what was dropped at the end
came after it. -/
theorem head?_strip {p : Char → Bool} {cs : List Char} {c : Char}
    (h : (strip p cs).head? = some c) : p c = false := by
  obtain ⟨dropped, hdropped⟩ : strip p cs <+: cs.dropWhile p :=
    List.rdropWhile_prefix p _
  have hhead : (cs.dropWhile p).head? = some c := by
    rw [← hdropped, List.head?_append, h, Option.some_or]
  have := List.head?_dropWhile_not p cs
  simpa [hhead] using this

/-- What begins and ends outside the class is left as it is. -/
theorem strip_eq_self {p : Char → Bool} {cs : List Char}
    (hhead : ∀ c, cs.head? = some c → p c = false)
    (hlast : ∀ c, cs.getLast? = some c → p c = false) : strip p cs = cs := by
  have hfront : cs.dropWhile p = cs := by
    cases cs with
    | nil => rfl
    | cons c r => rw [List.dropWhile_cons_of_neg (by simpa using hhead c rfl)]
  rw [strip, hfront, List.rdropWhile_eq_self_iff]
  intro hne
  simpa using hlast _ (List.getLast?_eq_some_getLast hne)

/-- Nothing is left just when the text is all of the class. -/
theorem strip_eq_nil_iff {p : Char → Bool} {cs : List Char} :
    strip p cs = [] ↔ ∀ c ∈ cs, p c = true := by
  rw [← List.dropWhile_eq_nil_iff, strip, List.rdropWhile_eq_nil_iff]
  constructor
  · intro hall
    -- what is left in front would begin outside the class
    cases hfront : cs.dropWhile p with
    | nil => rfl
    | cons c r =>
      have hhead := List.head?_dropWhile_not p cs
      simp [hfront, hall c (by simp [hfront])] at hhead
  · intro hnil c hc
    simp [hnil] at hc

/-! ## 2. The class counts only on the text -/

theorem dropWhile_congr {p q : Char → Bool} {cs : List Char}
    (h : ∀ c ∈ cs, p c = q c) : cs.dropWhile p = cs.dropWhile q := by
  induction cs with
  | nil => rfl
  | cons c r ih =>
    rw [List.dropWhile_cons, List.dropWhile_cons, h c (by simp),
      ih (fun x hx => h x (by simp [hx]))]

theorem strip_congr {p q : Char → Bool} {cs : List Char}
    (h : ∀ c ∈ cs, p c = q c) : strip p cs = strip q cs := by
  have hback : ∀ c ∈ (cs.dropWhile q).reverse, p c = q c := fun c hc =>
    h c ((List.dropWhile_sublist q).mem (List.mem_reverse.mp hc))
  rw [strip, strip, dropWhile_congr h, List.rdropWhile, List.rdropWhile,
    dropWhile_congr hback]

/-! ## 3. Selections -/

theorem filterMap_dropWhile {α : Type} {f : Char → Option α} {p : Char → Bool}
    (h : ∀ c, p c = true → f c = none) (cs : List Char) :
    (cs.dropWhile p).filterMap f = cs.filterMap f := by
  induction cs with
  | nil => rfl
  | cons c r ih =>
    rw [List.dropWhile_cons]
    split
    · rename_i hc
      rw [ih, List.filterMap_cons_none (h c hc)]
    · rfl

/-- A selection that has nothing of the class is the same before and after. -/
theorem filterMap_strip {α : Type} {f : Char → Option α} {p : Char → Bool}
    (h : ∀ c, p c = true → f c = none) (cs : List Char) :
    (strip p cs).filterMap f = cs.filterMap f := by
  rw [strip, List.rdropWhile, List.filterMap_reverse, filterMap_dropWhile h,
    List.filterMap_reverse, List.reverse_reverse, filterMap_dropWhile h]

end CurrencyPad.Text
