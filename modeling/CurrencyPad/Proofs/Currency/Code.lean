/-
CurrencyPad.Proofs.Currency.Code — the spellings of a code.

Tables and pivots normalize a code, stores check and normalize it. Two
texts are spellings of one code when they are the same normalized, which
to normalize again does not change (`normalize_normalize`); the canonical
spelling of a valid code is that text (`canonicalCode?_eq_some_iff`), and
all its spellings lead to it (`canonicalCode?_of_normalize_eq`).
-/
import Mathlib
import CurrencyPad.Proofs.Text.Trim
import CurrencyPad.Currency.Basic

namespace CurrencyPad

namespace Text

/-! ## 1. Normalized texts -/

/-- No blank is among the letters. -/
theorem isBlank_eq_false_of_toNat {c : Char} (h : 65 ≤ c.toNat ∧ c.toNat ≤ 122) :
    isBlank c = false := by
  simp only [isBlank]
  grind

/-- The upper-case letter of a lower-case one. -/
theorem toNat_toUpper_of_isLower {c : Char} (h : c.isLower = true) :
    97 ≤ c.toNat ∧ c.toNat ≤ 122 ∧ c.toUpper.toNat = c.toNat - 32 := by
  have hc : 97 ≤ c.toNat ∧ c.toNat ≤ 122 := by
    simpa [Char.isLower, UInt32.le_iff_toNat_le] using h
  have hvalid : (c.toNat - 32).isValidChar := .inl (by omega)
  refine ⟨hc.1, hc.2, ?_⟩
  rw [Char.toUpper_eq_of_isLower h, Char.toNat_ofNat, if_pos hvalid]

@[simp] theorem isBlank_toUpper (c : Char) : isBlank c.toUpper = isBlank c := by
  by_cases hlower : c.isLower = true
  · obtain ⟨hlow, hhigh, hupper⟩ := toNat_toUpper_of_isLower hlower
    rw [isBlank_eq_false_of_toNat (by omega), isBlank_eq_false_of_toNat (by omega)]
  · rw [Char.toUpper_eq_of_not_isLower hlower]

@[simp] theorem isAlphanum_toUpper (c : Char) : c.toUpper.isAlphanum = c.isAlphanum := by
  by_cases hlower : c.isLower = true
  · obtain ⟨hlow, hhigh, hupper⟩ := toNat_toUpper_of_isLower hlower
    have hletter : c.toUpper.isUpper = true := by
      have : 65 ≤ c.toUpper.toNat ∧ c.toUpper.toNat ≤ 90 := by omega
      simpa [Char.isUpper, UInt32.le_iff_toNat_le] using this
    simp [Char.isAlphanum, Char.isAlpha, hlower, hletter]
  · rw [Char.toUpper_eq_of_not_isLower hlower]

/-- What was trimmed has no blanks at its ends, in upper case either. -/
theorem trimChars_map_toUpper (cs : List Char) :
    trimChars ((trimChars cs).map Char.toUpper) = (trimChars cs).map Char.toUpper := by
  rw [trimChars_eq_strip, trimChars_eq_strip]
  refine strip_eq_self ?_ ?_
  · intro c hc
    rw [List.head?_map, Option.map_eq_some_iff] at hc
    obtain ⟨d, hd, rfl⟩ := hc
    rw [isBlank_toUpper, head?_strip hd]
  · intro c hc
    rw [List.getLast?_map, Option.map_eq_some_iff] at hc
    obtain ⟨d, hd, rfl⟩ := hc
    rw [isBlank_toUpper, getLast?_strip hd]

/-- **To normalize twice is to normalize once.** -/
@[simp] theorem normalize_normalize (s : String) : normalize (normalize s) = normalize s := by
  have hchars : normalizeChars (normalizeChars s.toList) = normalizeChars s.toList := by
    simp only [normalizeChars, trimChars_map_toUpper, List.map_map]
    refine List.map_congr_left fun c _ => ?_
    exact Char.toUpper_toUpper_eq_toUpper c
  rw [normalize, normalize, String.toList_ofList, hchars]

end Text

/-! ## 2. Canonical codes -/

theorem canonicalCode?_eq_some_iff {code canonical : String} :
    canonicalCode? code = some canonical ↔
      isCode (Text.trimChars code.toList) = true ∧ Text.normalize code = canonical := by
  rw [canonicalCode?]
  split
  · rename_i hcode
    simp [hcode]
  · rename_i hcode
    simp [hcode]

@[simp] theorem isCode_map_toUpper (cs : List Char) : isCode (cs.map Char.toUpper) = isCode cs := by
  simp [isCode, List.all_map, Function.comp_def]

/-- Every spelling of a canonical code is a spelling of a valid code. -/
theorem canonicalCode?_of_normalize_eq {code spelling : String}
    (hcode : canonicalCode? code = some code)
    (hsame : Text.normalize spelling = Text.normalize code) :
    canonicalCode? spelling = some code := by
  obtain ⟨hvalid, hnormal⟩ := canonicalCode?_eq_some_iff.mp hcode
  refine canonicalCode?_eq_some_iff.mpr ⟨?_, hsame.trans hnormal⟩
  have hchars : code.toList = (Text.trimChars spelling.toList).map Char.toUpper := by
    rw [← hnormal, ← hsame, Text.normalize, String.toList_ofList, Text.normalizeChars]
  rwa [hchars, Text.trimChars_map_toUpper, isCode_map_toUpper] at hvalid

end CurrencyPad
