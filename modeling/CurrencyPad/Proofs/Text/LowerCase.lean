/-
CurrencyPad.Proofs.Text.LowerCase — the lower case of a part of a text.

A text is put into lower case character by character, and all characters
but one have a lower-case form of their own. The capital sigma has two:
the final one at the end of a word, the other one elsewhere. So a part of
a text has the lower case that it has alone, unless one of its sigmas ends
a word alone and not in the text, or in the text and not alone
(`sigmaTurns_iff`).

Only a sigma that is the first or the last letter of the part can turn,
and there is always a text in which it does (`exposed_of_sigmaTurns`,
`Exposed.sigmaTurns`).

## How the proof goes

* `lowerWithin` is the lower case of a part where it stands. Texts are cut
  into parts by `lowerWithin_append`.
* The two lower cases of a part are as long as each other, character by
  character; so they are equal when all characters are, and these differ
  in the form of a sigma only (`lowerWithin_eq_iff`).
* No other character has a sigma in lower case (`isSigma_of_mem_lowerChar`).
  So the sigmas of a part tell its two lower cases apart
  (`lowerWithin_eq_of_sigmas_eq`), and a part with turned sigmas is not
  found among characters that are none (`not_infix_of_sigmaTurns`).
-/
import Mathlib.Data.List.DropRight
import Mathlib.Data.List.Infix
import CurrencyPad.Text.LowerCase

namespace CurrencyPad.Text

/-! ## 1. The end of a word -/

/-- A sigma between `before`, which is in reverse, and `after` ends a word. -/
def isFinal (before after : List Char) : Bool := meetsCased before && !meetsCased after

theorem dropWhile_ignorable_eq_nil_iff {cs : List Char} :
    cs.dropWhile isCaseIgnorable = [] ↔ cs.all isCaseIgnorable = true := by
  rw [List.dropWhile_eq_nil_iff, List.all_eq_true]

theorem meetsCased_of_ignorable {cs : List Char} (h : cs.all isCaseIgnorable = true) :
    meetsCased cs = false := by
  rw [meetsCased, dropWhile_ignorable_eq_nil_iff.mpr h]

/-- What comes later counts only when all before it is passed over. -/
theorem meetsCased_append (xs ys : List Char) :
    meetsCased (xs ++ ys) =
      if xs.all isCaseIgnorable then meetsCased ys else meetsCased xs := by
  unfold meetsCased
  rw [List.dropWhile_append]
  cases hxs : xs.dropWhile isCaseIgnorable with
  | nil =>
    rw [if_pos (dropWhile_ignorable_eq_nil_iff.mp hxs)]
    rfl
  | cons c r =>
    have hall : ¬xs.all isCaseIgnorable = true := by
      rw [← dropWhile_ignorable_eq_nil_iff, hxs]
      exact List.cons_ne_nil c r
    rw [if_neg hall]
    rfl

/-! ## 2. Parts of a text -/

/-- The lower case of a character between `before`, which is in reverse, and `after`. -/
def lowerAt (before : List Char) (c : Char) (after : List Char) : List Char :=
  if c = 'Σ' then if isFinal before after then ['ς'] else ['σ'] else lowerChar c

/-- The lower case of a text where it stands between `before`, which is in reverse, and
`after`. -/
def lowerWithin (before : List Char) : List Char → List Char → List Char
  | [], _ => []
  | c :: r, after => lowerAt before c (r ++ after) ++ lowerWithin (c :: before) r after

theorem lowerFrom_eq (before cs : List Char) : lowerFrom before cs = lowerWithin before cs [] := by
  induction cs generalizing before with
  | nil => rfl
  | cons c r ih => rw [lowerFrom, lowerWithin, lowerAt, isFinal, ih, List.append_nil]

theorem lowerChars_eq_lowerWithin (cs : List Char) : lowerChars cs = lowerWithin [] cs [] :=
  lowerFrom_eq [] cs

theorem lowerWithin_append (before xs ys after : List Char) :
    lowerWithin before (xs ++ ys) after =
      lowerWithin before xs (ys ++ after) ++ lowerWithin (xs.reverse ++ before) ys after := by
  induction xs generalizing before with
  | nil => rfl
  | cons c r ih =>
    rw [List.cons_append, lowerWithin, lowerWithin, ih, List.append_assoc, List.append_assoc,
      List.reverse_cons, List.append_assoc]
    rfl

/-- The lower case of a text, with a part of it where it stands. -/
theorem lowerChars_eq_append (a cs b : List Char) :
    lowerChars (a ++ cs ++ b) =
      lowerWithin [] a (cs ++ b) ++ lowerWithin a.reverse cs b ++
        lowerWithin ((a ++ cs).reverse) b [] := by
  rw [lowerChars_eq_lowerWithin, lowerWithin_append, lowerWithin_append]
  simp

/-! ## 3. Sigmas that turn -/

variable {before before' cs after after' : List Char}

theorem length_lowerAt (c : Char) :
    (lowerAt before c after).length = (lowerAt before' c after').length := by
  unfold lowerAt
  split
  · split <;> split <;> rfl
  · rfl

theorem lowerAt_eq_iff {c : Char} :
    lowerAt before c after = lowerAt before' c after' ↔
      (c = 'Σ' → isFinal before after = isFinal before' after') := by
  unfold lowerAt
  split
  · cases isFinal before after <;> cases isFinal before' after' <;> simp_all
  · simp_all

/-- **In two places a text has the same lower case** when each of its sigmas ends a word in both
or in neither. -/
theorem lowerWithin_eq_iff :
    lowerWithin before cs after = lowerWithin before' cs after' ↔
      ∀ x y, cs = x ++ 'Σ' :: y →
        isFinal (x.reverse ++ before) (y ++ after) =
          isFinal (x.reverse ++ before') (y ++ after') := by
  induction cs generalizing before before' with
  | nil => simp [lowerWithin]
  | cons c r ih =>
    rw [lowerWithin, lowerWithin]
    constructor
    · intro h x y hsplit
      obtain ⟨hfirst, hrest⟩ := List.append_inj h (length_lowerAt c)
      cases x with
      | nil =>
        obtain ⟨rfl, rfl⟩ := List.cons.inj hsplit
        exact lowerAt_eq_iff.mp hfirst rfl
      | cons d x =>
        obtain ⟨rfl, hr⟩ := List.cons.inj hsplit
        simpa using ih.mp hrest x y hr
    · intro h
      have hfirst : lowerAt before c (r ++ after) = lowerAt before' c (r ++ after') := by
        refine lowerAt_eq_iff.mpr ?_
        rintro rfl
        exact h [] r rfl
      have hrest : lowerWithin (c :: before) r after = lowerWithin (c :: before') r after' :=
        ih.mpr fun x y hr => by simpa using h (c :: x) y (by rw [hr]; rfl)
      rw [hfirst, hrest]

/-- A sigma of `cs` ends a word where `cs` stands alone and not where it stands between `a` and
`b`, or the other way round. -/
def SigmaTurns (a cs b : List Char) : Prop :=
  ∃ x y, cs = x ++ 'Σ' :: y ∧ isFinal x.reverse y ≠ isFinal (a ++ x).reverse (y ++ b)

/-- **A part of a text has its own lower case** just when none of its sigmas turns. -/
theorem sigmaTurns_iff {a b : List Char} :
    SigmaTurns a cs b ↔ lowerWithin a.reverse cs b ≠ lowerChars cs := by
  rw [ne_comm, lowerChars_eq_lowerWithin, ne_eq, lowerWithin_eq_iff]
  simp [SigmaTurns]

instance (a cs b : List Char) : Decidable (SigmaTurns a cs b) :=
  decidable_of_iff _ sigmaTurns_iff.symm

/-- A sigma is the first letter and none with case comes after it, or it is the last letter and
one with case comes before it. What does not separate words is passed over. -/
def Exposed (cs : List Char) : Prop :=
  ∃ x y, cs = x ++ 'Σ' :: y ∧
    (x.all isCaseIgnorable = true ∧ meetsCased y = false ∨
      meetsCased x.reverse = true ∧ y.all isCaseIgnorable = true)

theorem exposed_of_sigmaTurns {a b : List Char} (h : SigmaTurns a cs b) : Exposed cs := by
  obtain ⟨x, y, hcs, hturns⟩ := h
  refine ⟨x, y, hcs, ?_⟩
  rw [List.reverse_append, isFinal, isFinal, meetsCased_append, meetsCased_append] at hturns
  by_cases hx : x.all isCaseIgnorable = true
  · -- alone the sigma begins a word, so in the text it ends one
    rw [meetsCased_of_ignorable (by simpa using hx), if_pos (by simpa using hx)] at hturns
    refine .inl ⟨hx, ?_⟩
    by_cases hy : y.all isCaseIgnorable = true
    · exact meetsCased_of_ignorable hy
    · rw [if_neg hy] at hturns
      cases hcased : meetsCased y <;> simp_all
  · rw [if_neg (by simpa using hx)] at hturns
    refine .inr ?_
    by_cases hy : y.all isCaseIgnorable = true
    · refine ⟨?_, hy⟩
      cases hcased : meetsCased x.reverse <;> simp_all
    · rw [if_neg hy] at hturns
      exact absurd rfl hturns

/-- A capital A, on one side or the other, makes an exposed sigma turn. -/
theorem Exposed.sigmaTurns (h : Exposed cs) : SigmaTurns ['A'] cs [] ∨ SigmaTurns [] cs ['A'] := by
  have hletter : meetsCased ['A'] = true := by decide +kernel
  obtain ⟨x, y, hcs, ⟨hx, hy⟩ | ⟨hx, hy⟩⟩ := h
  · have hx' : x.reverse.all isCaseIgnorable = true := by simpa using hx
    refine .inl ⟨x, y, hcs, ?_⟩
    simp [isFinal, meetsCased_append, meetsCased_of_ignorable hx', hx', hletter, hy]
  · refine .inr ⟨x, y, hcs, ?_⟩
    simp [isFinal, meetsCased_append, meetsCased_of_ignorable hy, hy, hletter, hx]

/-! ## 4. Looking for a part -/

/-- A sigma, of whichever case and form. -/
def isSigma (c : Char) : Bool := c == 'Σ' || c == 'σ' || c == 'ς'

theorem isSigma_iff {c : Char} : isSigma c = true ↔ c ∈ ['Σ', 'σ', 'ς'] := by
  simp [isSigma, or_assoc]

/-- No run of characters leads to a sigma, except from the capital one. -/
theorem eq_sigma_of_shift : ∀ r ∈ lowerRuns, ∀ n ∈ ['Σ', 'σ', 'ς'].map Char.toNat,
    (r.first : Int) ≤ n - r.shift → (n : Int) - r.shift ≤ r.last →
      (n : Int) - r.shift = 'Σ'.toNat := by
  decide +kernel

/-- A sigma has the code point that it was made from. -/
theorem toNat_ofNat_of_isSigma {n : Nat} (h : isSigma (Char.ofNat n) = true) :
    (Char.ofNat n).toNat = n := by
  by_cases hvalid : n.isValidChar
  · rw [Char.ofNat, dif_pos hvalid]
    rfl
  · rw [Char.ofNat, dif_neg hvalid] at h
    exact absurd h (by decide)

theorem le_toNat_of_isSigma {c : Char} (h : isSigma c = true) : 931 ≤ c.toNat := by
  have hmem := isSigma_iff.mp h
  simp only [List.mem_cons, List.not_mem_nil, or_false] at hmem
  rcases hmem with rfl | rfl | rfl <;> decide

/-- A character that a run shifts to a sigma is the capital one. -/
theorem eq_sigma_of_isSigma_shifted {r : CaseRun} (hr : r ∈ lowerRuns) {c : Char}
    (hc : r.contains c = true)
    (h : isSigma (Char.ofNat ((c.toNat : Int) + r.shift).toNat) = true) : c = 'Σ' := by
  simp only [CaseRun.contains, Bool.and_eq_true, decide_eq_true_iff] at hc
  obtain ⟨⟨hfirst, hlast⟩, -⟩ := hc
  have hcode := toNat_ofNat_of_isSigma h
  have hpos := le_toNat_of_isSigma h
  have hback : ((Char.ofNat ((c.toNat : Int) + r.shift).toNat).toNat : Int) - r.shift =
      c.toNat := by
    omega
  have heq := eq_sigma_of_shift r hr _ (List.mem_map_of_mem (isSigma_iff.mp h))
    (by omega) (by omega)
  rw [hback] at heq
  exact Char.toNat_inj.mp (by exact_mod_cast heq)

/-- **Only a sigma** has a sigma in lower case. -/
theorem isSigma_of_mem_lowerChar {c d : Char} (hd : d ∈ lowerChar c) (hsigma : isSigma d = true) :
    isSigma c = true := by
  unfold lowerChar at hd
  split at hd
  · simp only [List.mem_cons, List.not_mem_nil, or_false] at hd
    rcases hd with rfl | rfl <;> exact absurd hsigma (by decide)
  · split at hd
    · rename_i r hfind
      obtain rfl := List.mem_singleton.mp hd
      have hcontains := List.find?_some hfind
      rw [eq_sigma_of_isSigma_shifted (List.mem_of_find?_eq_some hfind) hcontains hsigma]
      rfl
    · obtain rfl := List.mem_singleton.mp hd
      exact hsigma

/-- The sigmas of a text. -/
def sigmas (cs : List Char) : List Char := cs.filter isSigma

theorem sigmas_append (xs ys : List Char) : sigmas (xs ++ ys) = sigmas xs ++ sigmas ys :=
  List.filter_append ..

theorem sigmas_cons_eq_nil_iff {c : Char} :
    sigmas (c :: cs) = [] ↔ isSigma c = false ∧ sigmas cs = [] := by
  simp [sigmas]

theorem sigmas_lowerAt_of_not_isSigma {c : Char} (h : isSigma c = false) :
    sigmas (lowerAt before c after) = [] := by
  have hc : c ≠ 'Σ' := by rintro rfl; exact absurd h (by decide)
  rw [lowerAt, if_neg hc, sigmas, List.filter_eq_nil_iff]
  intro d hd hsigma
  rw [isSigma_of_mem_lowerChar hd hsigma] at h
  cases h

theorem sigmas_lowerWithin_eq_nil (h : sigmas cs = []) :
    sigmas (lowerWithin before cs after) = [] := by
  induction cs generalizing before with
  | nil => rfl
  | cons c r ih =>
    obtain ⟨hc, hr⟩ := sigmas_cons_eq_nil_iff.mp h
    rw [lowerWithin, sigmas_append, sigmas_lowerAt_of_not_isSigma hc, ih hr]
    rfl

theorem length_sigmas_lowerAt (c : Char) :
    (sigmas (lowerAt before c after)).length = (sigmas (lowerAt before' c after')).length := by
  unfold lowerAt
  split
  · split <;> split <;> rfl
  · rfl

/-- A text has as many sigmas in lower case wherever it stands. -/
theorem length_sigmas_lowerWithin :
    (sigmas (lowerWithin before cs after)).length =
      (sigmas (lowerWithin before' cs after')).length := by
  induction cs generalizing before before' with
  | nil => rfl
  | cons c r ih =>
    rw [lowerWithin, lowerWithin, sigmas_append, sigmas_append, List.length_append,
      List.length_append, length_sigmas_lowerAt c, ih]

theorem length_sigmas_lowerChars :
    (sigmas (lowerWithin before cs after)).length = (sigmas (lowerChars cs)).length := by
  rw [lowerChars_eq_lowerWithin]
  exact length_sigmas_lowerWithin

/-- The sigmas of a text tell its lower cases apart. -/
theorem lowerWithin_eq_of_sigmas_eq
    (h : sigmas (lowerWithin before cs after) = sigmas (lowerWithin before' cs after')) :
    lowerWithin before cs after = lowerWithin before' cs after' := by
  induction cs generalizing before before' with
  | nil => rfl
  | cons c r ih =>
    rw [lowerWithin, lowerWithin, sigmas_append, sigmas_append] at h
    obtain ⟨hfirst, hrest⟩ := List.append_inj h (length_sigmas_lowerAt c)
    have hsame : lowerAt before c (r ++ after) = lowerAt before' c (r ++ after') := by
      revert hfirst
      unfold lowerAt
      split
      · split <;> split <;> simp [sigmas, isSigma]
      · simp
    rw [lowerWithin, lowerWithin, hsame, ih hrest]

theorem SigmaTurns.sigmas_ne {a b : List Char} (h : SigmaTurns a cs b) :
    sigmas (lowerWithin a.reverse cs b) ≠ sigmas (lowerChars cs) := by
  rw [sigmaTurns_iff, lowerChars_eq_lowerWithin] at h
  rw [lowerChars_eq_lowerWithin]
  exact fun hsame => h (lowerWithin_eq_of_sigmas_eq hsame)

theorem SigmaTurns.sigmas_ne_nil {a b : List Char} (h : SigmaTurns a cs b) :
    sigmas (lowerChars cs) ≠ [] := by
  intro hnil
  have hwithin : sigmas (lowerWithin a.reverse cs b) = [] := by
    rw [← List.length_eq_zero_iff, length_sigmas_lowerChars, hnil]
    rfl
  exact h.sigmas_ne (hwithin.trans hnil.symm)

/-- A part with sigmas is not found in a text without any. -/
theorem not_infix_of_sigmas_eq_nil {text : List Char} (hcs : sigmas (lowerChars cs) ≠ [])
    (htext : sigmas text = []) : ¬lowerChars cs <:+: lowerChars text := by
  intro hfound
  have hsigmas : sigmas (lowerChars cs) <:+: sigmas (lowerChars text) := hfound.filter isSigma
  rw [lowerChars_eq_lowerWithin text, sigmas_lowerWithin_eq_nil htext, List.infix_nil] at hsigmas
  exact hcs hsigmas

/-- **A part with turned sigmas is not found** in a text that has no others. -/
theorem not_infix_of_sigmaTurns {a b : List Char} (ha : sigmas a = []) (hb : sigmas b = [])
    (h : SigmaTurns a cs b) : ¬lowerChars cs <:+: lowerChars (a ++ cs ++ b) := by
  intro hfound
  have hsigmas : sigmas (lowerChars cs) <:+: sigmas (lowerChars (a ++ cs ++ b)) :=
    hfound.filter isSigma
  rw [lowerChars_eq_append, sigmas_append, sigmas_append, sigmas_lowerWithin_eq_nil ha,
    sigmas_lowerWithin_eq_nil hb, List.nil_append, List.append_nil] at hsigmas
  exact h.sigmas_ne (hsigmas.eq_of_length length_sigmas_lowerChars.symm).symm

end CurrencyPad.Text
