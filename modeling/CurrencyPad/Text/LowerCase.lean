/-
CurrencyPad.Text.LowerCase — full Unicode lower-casing.

Every character is replaced by its lower-case form. Two characters are
special. The capital I with a dot becomes two characters, an i and the
dot above. A capital sigma becomes a final sigma at the end of a word:
when a cased character comes before it and none after it, characters
that do not separate words being passed over.
-/
import CurrencyPad.Text.Casing

namespace CurrencyPad.Text

/-! ## 1. Properties -/

def inRanges (ranges : List (Nat × Nat)) (c : Char) : Bool :=
  ranges.any fun r => decide (r.1 ≤ c.toNat ∧ c.toNat ≤ r.2)

/-- The character has case. -/
def isCased (c : Char) : Bool := inRanges casedRanges c

/-- The character does not separate cased characters. -/
def isCaseIgnorable (c : Char) : Bool := inRanges ignorableRanges c

def CaseRun.contains (r : CaseRun) (c : Char) : Bool :=
  decide (r.first ≤ c.toNat ∧ c.toNat ≤ r.last) && (c.toNat - r.first) % r.step == 0

/-! ## 2. Single characters -/

/-- The lower-case form of a character without regard to its neighbours. -/
def lowerChar (c : Char) : List Char :=
  if c = Char.ofNat 0x130 then ['i', Char.ofNat 0x307]
  else
    match lowerRuns.find? (·.contains c) with
    | some r => [Char.ofNat ((c.toNat : Int) + r.shift).toNat]
    | none => [c]

/-! ## 3. Texts -/

/-- The next character that is not passed over has case. -/
def meetsCased (cs : List Char) : Bool :=
  match cs.dropWhile isCaseIgnorable with
  | c :: _ => isCased c
  | [] => false

/-- The lower-case form of a text that follows `before`, which is in reverse. -/
def lowerFrom (before : List Char) : List Char → List Char
  | [] => []
  | c :: r =>
    (if c = 'Σ' then
      if meetsCased before && !meetsCased r then ['ς'] else ['σ']
     else lowerChar c) ++ lowerFrom (c :: before) r

/-- The lower-case form of a text. -/
def lowerChars (cs : List Char) : List Char := lowerFrom [] cs

/-- A text occurs in another. -/
def occursIn (part : List Char) : List Char → Bool
  | [] => part.isEmpty
  | c :: r => part.isPrefixOf (c :: r) || occursIn part r

end CurrencyPad.Text
