/-
CurrencyPad.Proofs.Keypad.Solving — solving keeps the value, and one can
type on.

The equals key puts the value of the buffer in its place, as it is
rendered. The value is the same number afterwards and so is the converted
amount, and a second press finds nothing more to do. The rendered number is
an operand like any other: an operator and a literal typed after it give
the value of that operation (`solves_of_reachable`).

What is not kept is the spelling. A rendered number has no zeros at its
end, and where a quotient is unsettled (`Decimal.Unsettled`) its last digit
hangs on them. Then the converted amount moves though the value did not
(`not_solving_keeps_converted`).

## How the proof goes

* Characters that are typed after an operator are added at the end, for no
  digit finds a lone zero to replace (`Buffer.foldl_press_numerals`).
* The text is then the rendered number, an operator and a literal, which
  are three tokens (`Expression.evaluateChars_append_of_tokens`), and two
  operands have the value of their operation
  (`Expression.tokensValue?_operator`).
-/
import CurrencyPad.Proofs.Conversion.Order
import CurrencyPad.Proofs.Expression.Appending
import CurrencyPad.Proofs.Keypad.Announcing
import CurrencyPad.Proofs.Keypad.WellFormed

namespace CurrencyPad

/-! ## 1. Typing after an operator -/

/-- A literal without blanks is read as it stands. -/
theorem Expression.ofLiteral?_of_literal? {typed : String} {x : Decimal}
    (hblank : ∀ c ∈ typed.toList, Text.isBlank c = false)
    (hx : literal? typed = some x) : Decimal.ofLiteral? typed.toList = some x := by
  have htrim : Text.trimChars typed.toList = typed.toList := by
    rw [Text.trimChars_eq_strip]
    exact Text.strip_eq_self (fun c hc => hblank c (List.mem_of_mem_head? hc))
      fun c hc => hblank c (List.mem_of_getLast? hc)
  rwa [literal?, literalChars?, htrim] at hx

namespace Buffer

/-- A rendered number ends in a digit, so an operator is added to it. -/
theorem append_operator_renderChars (v : Decimal) (op : Operator) :
    Buffer.append v.renderChars (.operator op) = v.renderChars ++ [op.toChar] := by
  obtain ⟨c, hc, hdigit⟩ := v.normalize.exists_getLast?_toChars
  have hends : endsWithOperator v.renderChars = false := by
    rw [endsWithOperator, Decimal.renderChars, hc]
    exact not_isOperatorChar_of_isDigit hdigit
  simp [Buffer.append, Key.char?, hends]

/-- The key of a digit or a point adds it to a buffer that is not a lone zero. -/
theorem exists_press_numeral {b : Buffer} (hb : b ≠ blank) {c : Char}
    (hc : Decimal.isNumeralChar c = true) :
    ∃ key, keyOf? c = some key ∧ b.press key = b ++ [c] := by
  by_cases hdigit : c.isDigit = true
  · refine ⟨.digit c, by simp [keyOf?, hdigit], ?_⟩
    simp [press, Buffer.append, Key.char?, hdigit, hb]
  · obtain rfl : c = '.' := by simpa [Decimal.isNumeralChar, hdigit] using hc
    exact ⟨.point, rfl, rfl⟩

/-- **Digits and points** typed after more than one character are added at the end. -/
theorem foldl_press_numerals {b : Buffer} (hb : 1 < b.length) {cs : List Char}
    (hcs : ∀ c ∈ cs, Decimal.isNumeralChar c = true) :
    (cs.filterMap keyOf?).foldl press b = b ++ cs := by
  induction cs generalizing b with
  | nil => rw [List.filterMap_nil, List.foldl_nil, List.append_nil]
  | cons c r ih =>
    have hblank : b ≠ blank := by
      rintro rfl
      simp [blank] at hb
    obtain ⟨key, hkey, hpress⟩ := exists_press_numeral hblank (hcs c (by simp))
    rw [List.filterMap_cons_some hkey, List.foldl_cons, hpress,
      ih (by simp; omega) fun x hx => hcs x (by simp [hx]), List.append_assoc,
      List.singleton_append]

/-- The keys of an operator and of the characters of a literal, and the equals key. -/
def operationKeys (op : Operator) (run : List Char) : List Key :=
  .operator op :: run.filterMap keyOf? ++ [.equals]

/-- **An operator and a literal** after a rendered number: the buffer is replaced by the value
of the operation, if it has one. -/
theorem foldl_press_operationKeys (v : Decimal) (op : Operator) {run : List Char} {x : Decimal}
    (hx : Decimal.ofLiteral? run = some x) :
    (operationKeys op run).foldl press v.renderChars =
      replacedBy (v.renderChars ++ op.toChar :: run) (op.apply v.normalize x) := by
  have hwell := wellFormed_renderChars v
  have hlong : 1 < (v.renderChars ++ [op.toChar]).length := by
    have := List.length_pos_iff.mpr hwell.ne_nil
    simp
    omega
  have hchars : ∀ c ∈ v.renderChars, Expression.isExpressionChar c = true ∧ c ≠ ' ' :=
    fun c hc => isExpressionChar_of_isKeyChar (hwell.chars c hc)
  have hvalue : Expression.evaluateChars (v.renderChars ++ op.toChar :: run) =
      op.apply v.normalize x := by
    rw [Expression.evaluateChars_append_of_tokens hwell.ne_nil hchars op hx
      (Token.ofChars?_chars (.number v))]
    exact Expression.tokensValue?_operator v.normalize op x
  have htyped : (run.filterMap keyOf?).foldl press (v.renderChars ++ [op.toChar]) =
      v.renderChars ++ op.toChar :: run := by
    rw [foldl_press_numerals hlong (Decimal.shape_of_ofLiteral? hx).numeral]
    simp
  have hoperator : Buffer.press v.renderChars (.operator op) = v.renderChars ++ [op.toChar] :=
    append_operator_renderChars v op
  rw [operationKeys, List.cons_append, List.foldl_cons, List.foldl_append, hoperator, htyped,
    List.foldl_cons, List.foldl_nil, press, hvalue]

/-- Two results of one number, or none at all, take the place of the buffer alike. -/
theorem ofList_replacedBy {b : Buffer} {r r' : Option Decimal}
    (h : r.map Decimal.toRat = r'.map Decimal.toRat) :
    String.ofList (b.replacedBy r) = (r'.map Decimal.render).getD (String.ofList b) := by
  cases r with
  | none =>
    have hnone : r' = none := by simpa using h.symm
    rw [hnone]
    rfl
  | some d =>
    obtain ⟨d', hd', heq⟩ : ∃ d', r' = some d' ∧ d'.toRat = d.toRat := by simpa using h.symm
    rw [hd']
    exact Decimal.render_eq_of_toRat_eq heq.symm

end Buffer

/-! ## 2. Solving -/

namespace Session

/-- The buffer follows the keys that are pressed, whatever the operations that press them. -/
theorem buffer_run_of_keys {s : Session} {actions : List Action} {keys : List Key}
    (h : actions.map Action.key? = keys.map some) :
    (s.run actions).buffer = keys.foldl Buffer.press s.buffer := by
  induction actions generalizing s keys with
  | nil =>
    obtain rfl : keys = [] := by simpa using h.symm
    rfl
  | cons a rest ih =>
    cases keys with
    | nil => simp at h
    | cons key keys =>
      obtain ⟨hkey, hrest⟩ := List.cons.inj h
      have hrun : s.run (a :: rest) = (s.act a).state.run rest := rfl
      rw [hrun, ih hrest, act_of_key s hkey, buffer_press, List.foldl_cons]

/-- What the equals key makes of a session whose buffer has the value `v`. -/
structure Solves (v : Decimal) (s t : Session) : Prop where
  text : t.text = v.render
  /-- The value is the same number. -/
  value : s.value = some v ∧ t.value.map Decimal.toRat = some v.toRat
  source : t.source = s.source
  target : t.target = s.target
  /-- So is the converted amount, unless the conversion of the value is unsettled. -/
  converted : (∀ a b, s.source = some a → s.target = some b → ¬UnsettledConversion v a b) →
    t.converted.toRat = s.converted.toRat
  /-- A second press changes nothing. -/
  again : ∀ a : Action, a.key? = some .equals → (t.act a).state = t
  /-- An operator, the characters of a literal and the equals key give the value of that
  operation; without one the text stays as it was typed. -/
  continued : ∀ (op : Operator) (typed : String) (x : Decimal) (actions : List Action),
    (∀ c ∈ typed.toList, Text.isBlank c = false) → Expression.literal? typed = some x →
    actions.map Action.key? = (Buffer.operationKeys op typed.toList).map some →
    (op = .divide → ¬Decimal.Unsettled v x) →
    (t.run actions).text =
      ((op.apply v x).map Decimal.render).getD
        (v.render ++ String.singleton op.toChar ++ typed)

/-- Two spellings of one number are converted to one amount. -/
theorem toRat_convertedAmount_congr {v w : Decimal} (h : v.toRat = w.toRat)
    {source target : Option Currency}
    (hsettled : ∀ a b, source = some a → target = some b → ¬UnsettledConversion v a b) :
    (convertedAmount (some v) source target).toRat =
      (convertedAmount (some w) source target).toRat := by
  cases source with
  | none => rfl
  | some a =>
    cases target with
    | none => rfl
    | some b => exact toRat_convert_congr h (hsettled a b rfl rfl)

/-- **Typing on.** Where the buffer is a rendered number, an operator, a literal and the equals
key replace it by the value of the operation. -/
theorem text_run_operationKeys {t : Session} {v x : Decimal} (hbuffer : t.buffer = v.renderChars)
    {op : Operator} {typed : String} {actions : List Action}
    (hx : Decimal.ofLiteral? typed.toList = some x)
    (hkeys : actions.map Action.key? = (Buffer.operationKeys op typed.toList).map some)
    (hsettled : op = .divide → ¬Decimal.Unsettled v x) :
    (t.run actions).text =
      ((op.apply v x).map Decimal.render).getD
        (v.render ++ String.singleton op.toChar ++ typed) := by
  have hrun := buffer_run_of_keys (s := t) hkeys
  rw [hbuffer, Buffer.foldl_press_operationKeys v op hx] at hrun
  have hcongr := Operator.map_toRat_apply_congr v.toRat_normalize.symm hsettled
  have htyped : String.ofList (v.renderChars ++ op.toChar :: typed.toList) =
      v.render ++ String.singleton op.toChar ++ typed := by
    rw [← String.toList_inj]
    simp [Decimal.render]
  rw [text, hrun, Buffer.ofList_replacedBy hcongr.symm, htyped]

/-- **Solving preserves the value.** In every session that can be met, if the buffer has a
value the equals key does what `Solves` says, and if it has none the key does nothing. -/
theorem solves_of_reachable {s : Session} (h : s.Reachable) (a : Action)
    (hkey : a.key? = some .equals) :
    (∀ v, Expression.evaluate s.text = some v → Solves v s (s.act a).state) ∧
      (Expression.evaluate s.text = none → s.act a = s.unchanged) := by
  rw [evaluate_text, act_of_key s hkey]
  refine ⟨fun v hv => ?_, fun hnone => by simp only [press, solve, hnone]⟩
  have hstate : (s.press .equals).state = recompute { s with buffer := v.renderChars } := by
    simp only [press, solve, hv]
    rfl
  have hrendered : Expression.evaluateChars v.renderChars = some v.normalize :=
    Expression.evaluateChars_toChars v.isNormal_normalize.unmarked
  -- the session was computed from its buffer already
  have hsame : s.recompute = s := h.upToDate.recompute_eq
  have hbefore : s.value = some v ∧ s.converted = convertedAmount (some v) s.source s.target := by
    rw [← hv]
    exact ⟨(congrArg value hsame).symm, (congrArg converted hsame).symm⟩
  rw [hstate]
  exact {
    text := rfl
    value := by
      refine ⟨hbefore.1, ?_⟩
      change (Expression.evaluateChars v.renderChars).map Decimal.toRat = _
      rw [hrendered, Option.map_some, v.toRat_normalize]
    source := rfl
    target := rfl
    converted := by
      intro hsettled
      change (convertedAmount (Expression.evaluateChars v.renderChars) s.source s.target).toRat = _
      rw [hrendered, hbefore.2]
      exact (toRat_convertedAmount_congr v.toRat_normalize.symm hsettled).symm
    again := by
      intro a' hkey'
      have hagain : v.normalize.renderChars = v.renderChars :=
        Decimal.renderChars_eq_of_toRat_eq v.toRat_normalize
      have hbuffer : (recompute { s with buffer := v.renderChars }).buffer = v.renderChars := rfl
      rw [act_of_key _ hkey']
      simp only [press, solve, hbuffer, hrendered, hagain]
      rfl
    continued := by
      intro op typed x actions hblank hx hkeys hsettled
      exact text_run_operationKeys rfl (Expression.ofLiteral?_of_literal? hblank hx) hkeys hsettled }

/-- A debt of a third. -/
def thirdOwed : Session := (quotedSession .one).run [.setBuffer "0-1/3"]

/-- A number with all the places there are, and a literal that ends in a point. -/
theorem solves_thirdOwed :
    Solves { coeff := -3333333333333333333333333333, scale := 28 } thirdOwed
        (thirdOwed.act .solve).state ∧
      ((thirdOwed.act .solve).state.run [.press (.operator .multiply), .pressLabel "1",
        .press (.digit '2'), .press .point, .pressLabel "="]).text
          = "-3.9999999999999999999999999996" := by
  have hreachable : thirdOwed.Reachable := Reachable.run (.start _ _) _
  have hsolves := (solves_of_reachable hreachable .solve rfl).1
    { coeff := -3333333333333333333333333333, scale := 28 } (by decide +kernel)
  refine ⟨hsolves, ?_⟩
  have hblank : ∀ c ∈ "12.".toList, Text.isBlank c = false :=
    List.forall_iff_forall_mem.mp (by decide)
  rw [hsolves.continued .multiply "12." { coeff := 120, scale := 1 } _ hblank
    (by decide +kernel) (by decide +kernel) nofun]
  decide +kernel

/-- An amount that lies half way between two decimals when it is divided by its rate. -/
def halfwayAmount : Session :=
  ({} : Session).run [.setSource longUnits, .setTarget oneUnit,
    .setBuffer "633825300114114700748351605.0"]

/-- The converted amount moves when the zero after the point is gone. -/
theorem not_solving_keeps_converted :
    ¬∀ (s : Session) (v : Decimal), s.Reachable → Expression.evaluate s.text = some v →
      (s.act .solve).state.converted.toRat = s.converted.toRat := by
  intro h
  have hreachable : halfwayAmount.Reachable := Reachable.new.run _
  have hsame := h halfwayAmount { coeff := 6338253001141147007483516050, scale := 1 } hreachable
    (by decide +kernel)
  have hbefore : halfwayAmount.converted = { coeff := 7922816251426433759354395063, scale := 27 } := by
    decide +kernel
  have hafter : (halfwayAmount.act .solve).state.converted
      = { coeff := 7922816251426433759354395062, scale := 27 } := by
    decide +kernel
  rw [hbefore, hafter] at hsame
  norm_num [Decimal.toRat_eq] at hsame

end Session
end CurrencyPad
