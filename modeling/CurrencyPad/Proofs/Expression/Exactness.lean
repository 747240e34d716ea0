/-
CurrencyPad.Proofs.Expression.Exactness — the calculator does not drift.

`ExactSum cs x` reads a text as a sum of products of exact rationals, from
the left, and demands that the decimals can hold every number on the way:
every literal, every product and quotient, and every sum. It follows the
texts of the grammar (`Spells`) but knows nothing of decimals and their
scales. Under it evaluation finds exactly `x` (`evaluate_exact`).

The two readings go side by side. A product is a chain of factors whose
decimals multiply to the exact product (`ExactProduct.exists_chain`), and
after a sum the pass over the expression stands at a state that closes with
the exact sum (`ExactSum.exists_state`).
-/
import CurrencyPad.Proofs.Decimal.Order
import CurrencyPad.Proofs.Expression.Grammar
import CurrencyPad.Proofs.Expression.Operator

namespace CurrencyPad.Expression

open Decimal

/-! ## 1. The exact reading -/

/-- An operator with spaces around it, and what comes after. -/
def spaced (m n : Nat) (op : Operator) (cs : List Char) : List Char :=
  List.replicate m ' ' ++ op.toChar :: (List.replicate n ' ' ++ cs)

/-- The text is a product of literals, `x` is its exact value, and each literal and each
product or quotient on the way is representable. -/
inductive ExactProduct : List Char → Rat → Prop
  | literal {run : List Char} : LiteralShape run → Representable (literalRat run) →
      ExactProduct run (literalRat run)
  | factor (m n : Nat) {op : Operator} {cs run : List Char} {x : Rat} :
      op.bindsTighter = true → ExactProduct cs x → LiteralShape run →
      Representable (literalRat run) → (op = .divide → literalRat run ≠ 0) →
      Representable (op.exact x (literalRat run)) →
      ExactProduct (cs ++ spaced m n op run) (op.exact x (literalRat run))

/-- The text is a sum of such products, `x` is its exact value, and each sum or difference
on the way is representable. A sign may touch the first literal. -/
inductive ExactSum : List Char → Rat → Prop
  | first {cs : List Char} {x : Rat} : ExactProduct cs x → ExactSum cs x
  | signed {cs : List Char} {x : Rat} : ExactProduct cs x → ExactSum ('-' :: cs) (-x)
  | term (m n : Nat) {op : Operator} {cs ds : List Char} {x y : Rat} :
      op.bindsTighter = false → ExactSum cs x → ExactProduct ds y →
      Representable (op.exact x y) → ExactSum (cs ++ spaced m n op ds) (op.exact x y)

/-! ## 2. Chains of factors -/

theorem SpellsPairs.append {ps qs : List (Operator × Decimal)} {cs ds : List Char}
    (h : SpellsPairs ps cs) (h' : SpellsPairs qs ds) : SpellsPairs (ps ++ qs) (cs ++ ds) := by
  induction h with
  | nil => exact h'
  | cons m n op hlit _ ih => simpa using SpellsPairs.cons m n op hlit ih

theorem Spells.append {e : Expression} {qs : List (Operator × Decimal)} {cs ds : List Char}
    (h : Spells e cs) (h' : SpellsPairs qs ds) : Spells ⟨e.first, e.rest ++ qs⟩ (cs ++ ds) := by
  cases h with
  | plain hlit hps => simpa using Spells.plain hlit (hps.append h')
  | signed hlit hps => simpa using Spells.signed hlit (hps.append h')

/-- A chain as it is written: a literal, then factors and divisors. -/
structure SpellsChain (c : Chain) (cs : List Char) : Prop where
  text : ∃ run rest, cs = run ++ rest ∧ IsLiteral run c.first ∧ SpellsPairs c.factors rest
  tight : ∀ p ∈ c.factors, p.1.bindsTighter = true

/-- **A product of representable numbers** is spelled by a chain that has it as its product. -/
theorem ExactProduct.exists_chain {cs : List Char} {x : Rat} (h : ExactProduct cs x) :
    ∃ c v, SpellsChain c cs ∧ c.product? = some v ∧ v.toRat = x := by
  induction h with
  | @literal run hshape hrep =>
    obtain ⟨d, hd, hvalue⟩ := ofLiteral?_exact hshape hrep
    exact ⟨⟨d, []⟩, d, ⟨⟨run, [], by simp, ⟨hshape, hd⟩, .nil⟩, by simp⟩, rfl, hvalue⟩
  | @factor m n op _ run' _ hop _ hshape hrep hne hresult ih =>
    obtain ⟨c, v, ⟨⟨run, rest, rfl, hfirst, hpairs⟩, htight⟩, hproduct, rfl⟩ := ih
    obtain ⟨d, hd, hvalue⟩ := ofLiteral?_exact hshape hrep
    rw [← hvalue] at hne hresult ⊢
    obtain ⟨w, hw, hexact⟩ := Operator.apply_exact hne hresult
    refine ⟨⟨c.first, c.factors ++ [(op, d)]⟩, w, ⟨⟨run, rest ++ spaced m n op run', by simp,
      hfirst, ?_⟩, ?_⟩, ?_, hexact⟩
    · have hlast := SpellsPairs.cons m n op ⟨hshape, hd⟩ .nil
      rw [List.append_nil] at hlast
      exact hpairs.append hlast
    · intro p hp
      rcases List.mem_append.mp hp with hp | hp
      · exact htight p hp
      · obtain rfl := List.mem_singleton.mp hp
        exact hop
    · rw [Chain.product?] at hproduct ⊢
      rw [List.foldlM_append, hproduct]
      simpa using hw

/-- The pass over an expression multiplies a chain up before it goes on. -/
theorem foldlM_push_factors {fs : List (Operator × Decimal)}
    (htight : ∀ p ∈ fs, p.1.bindsTighter = true) (total : Decimal) (pending : Operator)
    (a : Decimal) :
    fs.foldlM SumOfProducts.push ⟨total, pending, a⟩ =
      (Chain.product? ⟨a, fs⟩).map (⟨total, pending, ·⟩) := by
  induction fs generalizing a with
  | nil => rfl
  | cons p fs ih =>
    have hp := htight p (by simp)
    have hfs : ∀ q ∈ fs, q.1.bindsTighter = true := fun q hq => htight q (by simp [hq])
    rw [List.foldlM_cons, SumOfProducts.push, if_pos hp]
    change _ = (Option.bind (p.1.apply a p.2) fun x => fs.foldlM _ x).map _
    cases p.1.apply a p.2 with
    | none => rfl
    | some x => exact ih hfs x

/-- The sign of the first factor is the sign of the product. -/
theorem Chain.product?_neg {fs : List (Operator × Decimal)}
    (htight : ∀ p ∈ fs, p.1.bindsTighter = true) (a : Decimal) :
    Chain.product? ⟨-a, fs⟩ = (Chain.product? ⟨a, fs⟩).map (-·) := by
  induction fs generalizing a with
  | nil => rfl
  | cons p fs ih =>
    obtain ⟨op, b⟩ := p
    have hop : op.bindsTighter = true := htight (op, b) (by simp)
    have happly : op.apply (-a) b = (op.apply a b).map (-·) := by
      cases op with
      | multiply => exact mul?_neg a b
      | divide => exact div?_neg a b
      | add => simp [Operator.bindsTighter] at hop
      | subtract => simp [Operator.bindsTighter] at hop
    have hfs : ∀ q ∈ fs, q.1.bindsTighter = true := fun q hq => htight q (by simp [hq])
    rw [Chain.product?, Chain.product?, List.foldlM_cons, List.foldlM_cons, happly]
    cases op.apply a b with
    | none => rfl
    | some x => exact ih hfs x

/-! ## 3. Sums of chains -/

/-- **After a sum of representable numbers** the pass over the expression stands at a state
that closes with it. -/
theorem ExactSum.exists_state {cs : List Char} {x : Rat} (h : ExactSum cs x) :
    ∃ e s v, Spells e cs ∧ e.rest.foldlM SumOfProducts.push (.start e.first) = some s ∧
      s.close = some v ∧ v.toRat = x := by
  have hstart (w : Decimal) : ∃ v, Decimal.zero.add? w = some v ∧ v.toRat = w.toRat := by
    have hzero : zero.toRat + w.toRat = w.toRat := by simp [toRat, zero]
    have hrounding := isRounding_add? zero w
    rw [hzero] at hrounding
    exact hrounding.exact (representable_toRat w)
  induction h with
  | first hproduct =>
    obtain ⟨c, w, ⟨⟨run, rest, rfl, hfirst, hpairs⟩, htight⟩, hw, rfl⟩ := hproduct.exists_chain
    obtain ⟨v, hv, hvalue⟩ := hstart w
    refine ⟨⟨c.first, c.factors⟩, ⟨.zero, .add, w⟩, v, .plain hfirst hpairs, ?_, hv, hvalue⟩
    rw [SumOfProducts.start, foldlM_push_factors htight, hw]
    rfl
  | signed hproduct =>
    obtain ⟨c, w, ⟨⟨run, rest, rfl, hfirst, hpairs⟩, htight⟩, hw, rfl⟩ := hproduct.exists_chain
    obtain ⟨v, hv, hvalue⟩ := hstart (-w)
    rw [toRat_neg] at hvalue
    refine ⟨⟨-c.first, c.factors⟩, ⟨.zero, .add, -w⟩, v, .signed hfirst hpairs, ?_, hv, hvalue⟩
    rw [SumOfProducts.start, foldlM_push_factors htight, Chain.product?_neg htight, hw]
    rfl
  | @term m n op _ _ _ _ hop _ hproduct hresult ih =>
    obtain ⟨e, s, v, hspells, hs, hv, rfl⟩ := ih
    obtain ⟨c, w, ⟨⟨run, rest, rfl, hfirst, hpairs⟩, htight⟩, hw, rfl⟩ := hproduct.exists_chain
    have hdivide : op = .divide → w.toRat ≠ 0 := by
      rintro rfl
      simp [Operator.bindsTighter] at hop
    obtain ⟨d, hd, hvalue⟩ := Operator.apply_exact hdivide hresult
    refine ⟨⟨e.first, e.rest ++ (op, c.first) :: c.factors⟩, ⟨v, op, w⟩, d,
      hspells.append (.cons m n op hfirst hpairs), ?_, hd, hvalue⟩
    have hpush : s.push (op, c.first) = some ⟨v, op, c.first⟩ := by
      rw [SumOfProducts.push, if_neg (by simp [hop])]
      change (s.close).map _ = _
      rw [hv]
      rfl
    rw [List.foldlM_append, hs]
    change (s.push (op, c.first)).bind (fun s => c.factors.foldlM _ s) = _
    rw [hpush, Option.bind_some, foldlM_push_factors htight, hw]
    rfl

/-- **No drift.** Where the decimals can hold every number of the exact reading of a typed
text, the text evaluates to exactly the number that it denotes, whatever zeros its literals
begin and end with. -/
theorem evaluate_exact (typed : String) (x : Rat) (h : ExactSum (repaired typed.toList) x) :
    ∃ v, evaluate typed = some v ∧ v.toRat = x := by
  obtain ⟨e, s, v, hspells, hs, hv, hvalue⟩ := h.exists_state
  refine ⟨v, ?_, hvalue⟩
  rw [evaluate, evaluateChars_of_spells hspells, value?, hs, Option.bind_some, hv]

/-- More zeros than a decimal has places, before and after the digits that count. -/
theorem evaluate_exact_paddedZeros :
    ∃ v, evaluate "-0000000000000000000000000000000000.5 + 1.25000000000000000000000000000000 * 3 -"
      = some v ∧ v.toRat = 13 / 4 := by
  let half := "0000000000000000000000000000000000.5".toList
  let long := "1.25000000000000000000000000000000".toList
  have hhalf : ExactProduct half (1 / 2) := by
    have hrat : literalRat half = 1 / 2 := by decide +kernel
    rw [← hrat]
    exact .literal (by decide +kernel) (hrat ▸ ⟨5, 1, by decide, by decide, by norm_num⟩)
  have hlong : ExactProduct long (5 / 4) := by
    have hrat : literalRat long = 5 / 4 := by decide +kernel
    rw [← hrat]
    exact .literal (by decide +kernel) (hrat ▸ ⟨125, 2, by decide, by decide, by norm_num⟩)
  have hproduct : ExactProduct (long ++ spaced 1 1 .multiply ['3']) (15 / 4) := by
    have hrat : literalRat ['3'] = 3 := by decide +kernel
    have hexact : Operator.multiply.exact (5 / 4) (literalRat ['3']) = 15 / 4 := by
      rw [hrat]
      norm_num [Operator.exact]
    rw [← hexact]
    exact .factor 1 1 rfl hlong (by decide) (hrat ▸ ⟨3, 0, by decide, by decide, by norm_num⟩)
      nofun (hexact ▸ ⟨375, 2, by decide, by decide, by norm_num⟩)
  have hsum : ExactSum ('-' :: half ++ spaced 1 1 .add (long ++ spaced 1 1 .multiply ['3']))
      (13 / 4) := by
    have hexact : Operator.add.exact (-(1 / 2)) (15 / 4) = 13 / 4 := by norm_num [Operator.exact]
    rw [← hexact]
    exact .term 1 1 rfl (.signed hhalf) hproduct
      (hexact ▸ ⟨325, 2, by decide, by decide, by norm_num⟩)
  refine evaluate_exact _ _ ?_
  rwa [show repaired _ = '-' :: half ++ spaced 1 1 .add (long ++ spaced 1 1 .multiply ['3']) by
    decide +kernel]

end CurrencyPad.Expression
