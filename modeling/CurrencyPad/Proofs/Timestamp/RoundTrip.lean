/-
CurrencyPad.Proofs.Timestamp.RoundTrip — a timestamp is read from its text.

`ofText?_text` says it of every timestamp whose parts are within their
ranges, down to the nanosecond, years before 0 and after 9999 and leap
seconds included.

## How the proof goes

A timestamp is written as numbers with marks between them, and read part
by part from the front. Each part has a lemma that says what it reads of
its own text and leaves of the text after it; for the numbers this asks
that no digit comes next. Reading also skips blanks before most parts, but
there are none, and moves the time by the offset from UTC, which is zero.
-/
import CurrencyPad.Proofs.Text.Digits
import CurrencyPad.Timestamp.Text

namespace CurrencyPad.Timestamp

open Text

/-! ## 1. Numbers -/

/-- No digit comes next. -/
def NoDigit (rest : List Char) : Prop := ∀ c ∈ rest.head?, c.isDigit = false

theorem noDigit_cons {c : Char} (h : c.isDigit = false) (rest : List Char) :
    NoDigit (c :: rest) := by
  intro d hd
  obtain rfl : c = d := by simpa using hd
  exact h

variable {ds rest : List Char}

theorem NoDigit.take (h : NoDigit rest) (n : Nat) : NoDigit (rest.take n) := by
  intro c hc
  cases n with
  | zero => simp at hc
  | succ n =>
    cases rest with
    | nil => simp at hc
    | cons d r => exact h c (by simpa using hc)

theorem takeWhile_digits (hds : ∀ c ∈ ds, c.isDigit = true) (hrest : NoDigit rest) :
    (ds ++ rest).takeWhile Char.isDigit = ds := by
  rw [List.takeWhile_append_of_pos hds]
  cases rest with
  | nil => simp
  | cons c r => rw [List.takeWhile_cons_of_neg (by simp [hrest c (by simp)]), List.append_nil]

/-- Digits that nothing makes longer are read, if there are not too many. -/
theorem digits?_append {most : Nat} (hne : ds ≠ []) (hds : ∀ c ∈ ds, c.isDigit = true)
    (hmost : ds.length ≤ most) (hrest : NoDigit rest) :
    digits? most (ds ++ rest) = some (number ds, rest) := by
  have hrun : ((ds ++ rest).take most).takeWhile Char.isDigit = ds := by
    rw [List.take_append, List.take_of_length_le hmost]
    exact takeWhile_digits hds (hrest.take _)
  rw [digits?, hrun, if_neg hne, List.drop_left]

/-- There are no blanks to skip before a digit. -/
theorem trimStart_digits (hne : ds ≠ []) (hds : ∀ c ∈ ds, c.isDigit = true) :
    trimStart (ds ++ rest) = ds ++ rest := by
  obtain ⟨c, r, rfl⟩ := List.exists_cons_of_ne_nil hne
  rw [trimStart, List.cons_append,
    List.dropWhile_cons_of_neg (by simp [isBlank_of_isDigit (hds c (by simp))])]

theorem padded_ne_nil {w : Nat} (hw : 0 < w) (n : Nat) : padded w n ≠ [] := by
  rw [← List.length_pos_iff, length_padded]
  exact hw

/-- A number of two digits is read from its text. -/
theorem twoDigits?_append {n : Nat} (hn : n < 100) (hrest : NoDigit rest) :
    twoDigits? (padded 2 n ++ rest) = some (n, rest) := by
  have hds : ∀ c ∈ padded 2 n, c.isDigit = true := fun _ => isDigit_of_mem_padded
  have hne : padded 2 n ≠ [] := padded_ne_nil (by decide) n
  have hnumber : number (padded 2 n) = n := by
    rw [number_padded]
    exact Nat.mod_eq_of_lt hn
  rw [twoDigits?, trimStart_digits hne hds, digits?_append hne hds (by simp) hrest, hnumber]

/-! ## 2. Years -/

/-- The digits of a year. -/
def yearDigits (year : Int) : List Char :=
  if year.natAbs < 10000 then padded 4 year.natAbs else digits year.natAbs

theorem isDigit_of_mem_yearDigits {year : Int} {c : Char} (h : c ∈ yearDigits year) :
    c.isDigit = true := by
  rw [yearDigits] at h
  split at h
  · exact isDigit_of_mem_padded h
  · exact isDigit_of_mem_digits h

theorem yearDigits_ne_nil (year : Int) : yearDigits year ≠ [] := by
  rw [yearDigits]
  split
  · exact padded_ne_nil (by decide) _
  · exact digits_ne_nil _

theorem number_yearDigits (year : Int) : number (yearDigits year) = year.natAbs := by
  rw [yearDigits]
  split
  · rename_i hshort
    rw [number_padded]
    exact Nat.mod_eq_of_lt hshort
  · exact number_digits _

/-- After a sign a year may have any number of digits. -/
theorem allDigits?_yearDigits (year : Int) (hrest : NoDigit rest) :
    allDigits? (yearDigits year ++ rest) = some (year.natAbs, rest) := by
  rw [allDigits?, digits?_append (yearDigits_ne_nil year) (fun _ => isDigit_of_mem_yearDigits)
    (by simp) hrest, number_yearDigits]

/-- **A year** is read from its text. -/
theorem year?_append (year : Int) (hrest : NoDigit rest) :
    year? (yearChars year ++ rest) = some (year, rest) := by
  have hall := allDigits?_yearDigits year hrest
  have hchars : yearChars year = if year < 0 then '-' :: yearDigits year
      else if 9999 < year then '+' :: yearDigits year else yearDigits year := rfl
  rw [hchars]
  split
  · have hvalue : (-(year.natAbs : Int)) = year := by omega
    have hread : year? ('-' :: (yearDigits year ++ rest)) =
        (allDigits? (yearDigits year ++ rest)).map fun p => (-(p.1 : Int), p.2) := rfl
    rw [List.cons_append, hread, hall]
    simp only [Option.map_some, hvalue]
  · rename_i hneg
    have hvalue : (year.natAbs : Int) = year := by omega
    split
    · have hread : year? ('+' :: (yearDigits year ++ rest)) =
          (allDigits? (yearDigits year ++ rest)).map fun p => ((p.1 : Int), p.2) := rfl
      rw [List.cons_append, hread, hall]
      simp only [Option.map_some, hvalue]
    · rename_i hlong
      have hds : ∀ c ∈ yearDigits year, c.isDigit = true := fun _ => isDigit_of_mem_yearDigits
      have hne := yearDigits_ne_nil year
      have hlength : (yearDigits year).length ≤ 4 := by
        rw [yearDigits, if_pos (by omega), length_padded]
      have hread := digits?_append hne hds hlength hrest
      rw [year?, trimStart_digits hne hds]
      -- the first character is a digit, and no sign
      split
      · rename_i r heq
        obtain ⟨c, cs, hcs⟩ := List.exists_cons_of_ne_nil hne
        obtain ⟨rfl, -⟩ := List.cons.inj (hcs ▸ heq)
        exact absurd (hds '-' (by simp [hcs])) (by decide)
      · rename_i r heq
        obtain ⟨c, cs, hcs⟩ := List.exists_cons_of_ne_nil hne
        obtain ⟨rfl, -⟩ := List.cons.inj (hcs ▸ heq)
        exact absurd (hds '+' (by simp [hcs])) (by decide)
      · rw [hread, number_yearDigits]
        simp only [Option.map_some, hvalue]

/-! ## 3. Marks and fractions -/

theorem mark?_cons {c : Char} (h : isBlank c = false) (rest : List Char) :
    mark? c (c :: rest) = some rest := by
  simp [mark?, trimStart, h]

/-- Up to nine fraction digits are read as nanoseconds. -/
theorem nanoseconds?_point {w m : Nat} (hw : 0 < w) (hnine : w ≤ 9) (hm : m < tenTo w)
    (hrest : NoDigit rest) :
    nanoseconds? ('.' :: (padded w m ++ rest)) = some (m * tenTo (9 - w), rest) := by
  have hds : ∀ c ∈ padded w m, c.isDigit = true := fun _ => isDigit_of_mem_padded
  have hread : digits? 9 (padded w m ++ rest) = some (m, rest) := by
    rw [digits?_append (padded_ne_nil hw m) hds (by simpa using hnine) hrest, number_padded,
      Nat.mod_eq_of_lt hm]
  have hwidth : (padded w m ++ rest).length - rest.length = w := by simp
  have hdrop : rest.dropWhile Char.isDigit = rest := by
    cases rest with
    | nil => rfl
    | cons c r => exact List.dropWhile_cons_of_neg (by simp [hrest c (by simp)])
  rw [nanoseconds?, hread]
  simp only [Option.bind_eq_bind, Option.bind_some, hwidth, hdrop]
  rfl

/-- **The fraction of a second** is read from its text, however short that is. -/
theorem nanoseconds?_fractionChars {n : Nat} (hn : n ≤ 999999999) :
    nanoseconds? (fractionChars n ++ ['Z']) = some (n, ['Z']) := by
  have hrest : NoDigit ['Z'] := noDigit_cons rfl []
  rw [fractionChars]
  split
  · rename_i hzero
    rw [hzero]
    rfl
  · split
    · have hvalue : n / 1000000 * tenTo (9 - 3) = n := by
        change n / 1000000 * 1000000 = n
        omega
      rw [List.cons_append,
        nanoseconds?_point (by decide) (by decide) (by change _ < 1000; omega) hrest, hvalue]
    · split
      · have hvalue : n / 1000 * tenTo (9 - 6) = n := by
          change n / 1000 * 1000 = n
          omega
        rw [List.cons_append,
          nanoseconds?_point (by decide) (by decide) (by change _ < 1000000; omega) hrest, hvalue]
      · have hvalue : n * tenTo (9 - 9) = n := Nat.mul_one n
        rw [List.cons_append,
          nanoseconds?_point (by decide) (by decide) (by change _ < 1000000000; omega) hrest,
          hvalue]

theorem noDigit_fractionChars (n : Nat) : NoDigit (fractionChars n ++ ['Z']) := by
  rw [fractionChars]
  repeat' split
  all_goals exact noDigit_cons rfl _

/-! ## 4. The whole text -/

/-- By no minutes a time of day is not moved. -/
theorem addMinutes_zero {t : Timestamp} (hhour : t.hour ≤ 23) (hminute : t.minute ≤ 59) :
    t.addMinutes 0 = t := by
  have htotal : ((t.hour : Int) * 60 + t.minute + 0) % 1440 = t.hour * 60 + t.minute := by omega
  have hday : ((t.hour : Int) * 60 + t.minute).toNat = t.hour * 60 + t.minute := by omega
  have hhour' : (t.hour * 60 + t.minute) / 60 = t.hour := by omega
  have hminute' : (t.hour * 60 + t.minute) % 60 = t.minute := by omega
  simp only [addMinutes, htotal, hday, hhour', hminute']
  rw [if_neg (by omega), if_neg (by omega)]

theorem bind_of_eq_some {α β : Type} {x : Option α} {a : α} (h : x = some a) (f : α → Option β) :
    x >>= f = f a := by
  rw [h]
  rfl

theorem ofChars?_toChars {t : Timestamp} (h : t.isValid = true) : ofChars? t.toChars = some t := by
  have hvalid := h
  simp only [isValid, Bool.and_eq_true, decide_eq_true_eq] at h
  obtain ⟨⟨⟨hyear, -, hmonth⟩, -, hday⟩, hhour, hminute, hsecond, hnano⟩ := h
  have hdays : daysInMonth t.year t.month ≤ 31 := by
    unfold daysInMonth
    split
    · split <;> decide
    all_goals decide
  have hdash (rest : List Char) : NoDigit ('-' :: rest) := noDigit_cons rfl rest
  have hcolon (rest : List Char) : NoDigit (':' :: rest) := noDigit_cons rfl rest
  have htext : t.toChars = yearChars t.year ++ '-' :: (padded 2 t.month ++ '-' ::
      (padded 2 t.day ++ 'T' :: (padded 2 t.hour ++ ':' :: (padded 2 t.minute ++ ':' ::
      (padded 2 t.second ++ (fractionChars t.nanosecond ++ ['Z'])))))) := by
    simp only [toChars, List.append_assoc, List.cons_append]
  have hseparator (rest : List Char) : separator? ('T' :: rest) = some rest := rfl
  have hmoved : t.addMinutes (-0) = t := addMinutes_zero hhour hminute
  rw [htext, ofChars?]
  refine (bind_of_eq_some (year?_append t.year (hdash _)) _).trans ?_
  refine (bind_of_eq_some (mark?_cons rfl _) _).trans ?_
  refine (bind_of_eq_some (twoDigits?_append (by omega) (hdash _)) _).trans ?_
  refine (bind_of_eq_some (mark?_cons rfl _) _).trans ?_
  refine (bind_of_eq_some (twoDigits?_append (by omega) (noDigit_cons rfl _)) _).trans ?_
  refine (bind_of_eq_some (hseparator _) _).trans ?_
  refine (bind_of_eq_some (twoDigits?_append (by omega) (hcolon _)) _).trans ?_
  refine (bind_of_eq_some (mark?_cons rfl _) _).trans ?_
  refine (bind_of_eq_some (twoDigits?_append (by omega) (hcolon _)) _).trans ?_
  refine (bind_of_eq_some (mark?_cons rfl _) _).trans ?_
  refine (bind_of_eq_some (twoDigits?_append (by omega) (noDigit_fractionChars _)) _).trans ?_
  refine (bind_of_eq_some (nanoseconds?_fractionChars hnano) _).trans ?_
  refine (bind_of_eq_some (show offset? (trimStart ['Z']) = some (0, []) from rfl) _).trans ?_
  dsimp only
  rw [hmoved, if_pos ⟨hvalid, hyear, rfl⟩]
  rfl

/-- **A timestamp is read from its text.** -/
theorem ofText?_text {t : Timestamp} (h : t.isValid = true) : ofText? t.text = some t := by
  rw [ofText?, text, String.toList_ofList, ofChars?_toChars h]

end CurrencyPad.Timestamp
