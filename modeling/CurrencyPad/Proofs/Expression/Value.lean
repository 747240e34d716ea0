/-
CurrencyPad.Proofs.Expression.Value — one pass over an expression computes
its sum of products.

`value?` reads an expression once, from the left, with two accumulators.
What it is meant to compute is said here in two levels that know nothing
of each other: `chains` cuts the expression at its `+` and `-`, every
chain has a product of its own (`Chain.product?`), and `addTerms?` adds
the products up from zero. `value?_eq_sumOfProducts?` is the agreement of
the two readings, also on overflow and on division by zero.

The two readings take the operations in different orders, the one pass
adding a finished product before it forms the next one. This shows only
in WHICH step of a failing evaluation fails, so between the two stands a
third reading, `addChain`, which takes whole chains but adds each as soon
as it has its product.
-/
import CurrencyPad.Expression.Basic

namespace CurrencyPad.Expression

/-! ## 1. Two levels -/

/-- A first factor and the factors and divisors after it. -/
structure Chain where
  first : Decimal
  factors : List (Operator × Decimal)

/-- The factors up to the next `+` or `-`, and the chains that begin there,
each with the operator before it. -/
def cut : List (Operator × Decimal) →
    List (Operator × Decimal) × List (Operator × Chain)
  | [] => ([], [])
  | (op, b) :: rest =>
    if op.bindsTighter then ((op, b) :: (cut rest).1, (cut rest).2)
    else ([], (op, ⟨b, (cut rest).1⟩) :: (cut rest).2)

/-- The maximal chains of an expression; the first one is added. -/
def chains (e : Expression) : List (Operator × Chain) :=
  (.add, ⟨e.first, (cut e.rest).1⟩) :: (cut e.rest).2

/-- The product of a chain, folded from the left. -/
def Chain.product? (c : Chain) : Option Decimal :=
  c.factors.foldlM (fun x p => p.1.apply x p.2) c.first

/-- The products of all chains, if each has one. -/
def products? (cs : List (Operator × Chain)) : Option (List (Operator × Decimal)) :=
  cs.mapM fun p => p.2.product?.map (p.1, ·)

/-- Terms added to a number and subtracted from it, from the left. -/
def addTerms? (total : Decimal) (terms : List (Operator × Decimal)) : Option Decimal :=
  terms.foldlM (fun t p => p.1.apply t p.2) total

/-- The chains folded one by one, then added up from zero. -/
def sumOfProducts? (e : Expression) : Option Decimal :=
  (products? e.chains).bind (addTerms? .zero)

/-! ## 2. Adding each chain when its product is there -/

/-- Adds the product of a chain to a total. -/
def addChain (total : Decimal) (p : Operator × Chain) : Option Decimal :=
  p.2.product?.bind (p.1.apply total)

theorem products?_cons (op : Operator) (c : Chain) (cs : List (Operator × Chain)) :
    products? ((op, c) :: cs)
      = c.product?.bind fun x => (products? cs).map ((op, x) :: ·) := by
  rw [products?, List.mapM_cons]
  cases c.product? with
  | none => rfl
  | some x => cases h : products? cs <;> simp_all [products?]

/-- Forming all products first and adding them later fails in the same cases
and gives the same total. -/
theorem foldlM_addChain (cs : List (Operator × Chain)) (total : Decimal) :
    cs.foldlM addChain total = (products? cs).bind (addTerms? total) := by
  induction cs generalizing total with
  | nil => rfl
  | cons p rest ih =>
    obtain ⟨op, c⟩ := p
    rw [products?_cons, List.foldlM_cons]
    cases hc : c.product? with
    | none => simp [addChain, hc]
    | some x =>
      simp only [addChain, hc, Option.bind_some]
      cases ht : op.apply total x with
      | none =>
        -- the sum overflows, and does so wherever the later products fail
        cases products? rest <;> simp [addTerms?, ht]
      | some t =>
        rw [Option.bind_eq_bind, Option.bind_some, ih t]
        cases products? rest <;> simp [addTerms?, ht]

/-! ## 3. The one pass -/

/-- A pass that has read `total`, `pending` and `term` finishes the chain that
begins with `term` and goes on with the chains after it. -/
theorem foldlM_push (rest : List (Operator × Decimal)) (total : Decimal)
    (pending : Operator) (term : Decimal) :
    (rest.foldlM SumOfProducts.push ⟨total, pending, term⟩).bind SumOfProducts.close
      = ((pending, ⟨term, (cut rest).1⟩) :: (cut rest).2).foldlM addChain total := by
  induction rest generalizing total pending term with
  | nil =>
    simp [cut, addChain, Chain.product?, SumOfProducts.close]
  | cons p rest ih =>
    obtain ⟨op, b⟩ := p
    cases htight : op.bindsTighter with
    | true =>
      have hpush : SumOfProducts.push ⟨total, pending, term⟩ (op, b)
          = (op.apply term b).map (⟨total, pending, ·⟩) := by
        simp [SumOfProducts.push, htight]
      have hcut : cut ((op, b) :: rest) = ((op, b) :: (cut rest).1, (cut rest).2) := by
        simp [cut, htight]
      rw [List.foldlM_cons, hpush, hcut]
      cases hx : op.apply term b with
      | none => simp [addChain, Chain.product?, hx]
      | some x =>
        have := ih total pending x
        simpa [addChain, Chain.product?, hx] using this
    | false =>
      have hpush : SumOfProducts.push ⟨total, pending, term⟩ (op, b)
          = (pending.apply total term).map (⟨·, op, b⟩) := by
        simp [SumOfProducts.push, htight]
      have hcut : cut ((op, b) :: rest)
          = ([], (op, ⟨b, (cut rest).1⟩) :: (cut rest).2) := by
        simp [cut, htight]
      rw [List.foldlM_cons, hpush, hcut]
      cases ht : pending.apply total term with
      | none => simp [addChain, Chain.product?, ht]
      | some t =>
        have := ih t op b
        simpa [addChain, Chain.product?, ht] using this

/-- **The one pass is the sum of products.** -/
theorem value?_eq_sumOfProducts? (e : Expression) : e.value? = e.sumOfProducts? := by
  rw [value?, SumOfProducts.start, foldlM_push, sumOfProducts?, ← foldlM_addChain]
  rfl

end CurrencyPad.Expression
