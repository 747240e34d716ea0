/-
CurrencyPad.Proofs.Json.RoundTrip — a value is read from its text.

`parse?_render` says it of every `Legible` value: one whose strings and
names have text and whose numerals have the form of a number. Nothing is
asked of its depth, its order or its repetitions, since a value keeps
them all.

## How the proof goes

* The text of a value is read as the symbols of the value (`reads_symbols`),
  for every scalar in it is followed by a mark or by nothing.
* The symbols of a value build the value, whatever containers are open
  around it (`foldlM_symbols`). Both are inductions over the value, its
  items and its members.
-/
import CurrencyPad.Json.Value
import CurrencyPad.Proofs.Json.Lexing

namespace CurrencyPad.Json

/-! ## 1. Legible values -/

mutual

/-- Every scalar can be read back, and every name has text. -/
def Legible : Json → Prop
  | .scalar s => s.Legible
  | .array items => ItemsLegible items
  | .object members => MembersLegible members

def ItemsLegible : List Json → Prop
  | [] => True
  | v :: r => Legible v ∧ ItemsLegible r

def MembersLegible : List (Option String × Json) → Prop
  | [] => True
  | (name, v) :: r => name.isSome = true ∧ Legible v ∧ MembersLegible r

end

theorem itemsLegible_iff {items : List Json} : ItemsLegible items ↔ ∀ v ∈ items, v.Legible := by
  induction items with
  | nil => simp [ItemsLegible]
  | cons v r ih => simp [ItemsLegible, ih]

@[simp] theorem legible_string (s : String) : (string s).Legible := rfl

/-- A record is legible when all its fields are. -/
theorem legible_ofFields {fields : List (String × Json)} (h : ∀ f ∈ fields, f.2.Legible) :
    (ofFields fields).Legible := by
  rw [ofFields, Legible]
  induction fields with
  | nil => simp [MembersLegible]
  | cons f r ih =>
    rw [List.map_cons, MembersLegible]
    exact ⟨rfl, h f (by simp), ih fun x hx => h x (by simp [hx])⟩

/-! ## 2. From the text to the symbols -/

/-- The symbols are read from their text, before `rest`. -/
def Reads (symbols : List Symbol) (rest : List Glyph) : Prop :=
  lexFrom? .between ((symbols.flatMap Symbol.chars).map some ++ rest) =
    (lexFrom? .between rest).map (symbols ++ ·)

theorem Reads.append {xs ys : List Symbol} {rest : List Glyph}
    (hx : Reads xs ((ys.flatMap Symbol.chars).map some ++ rest)) (hy : Reads ys rest) :
    Reads (xs ++ ys) rest := by
  rw [Reads, List.flatMap_append, List.map_append, List.append_assoc, hx, hy, Option.map_map]
  congr 1
  funext zs
  exact (List.append_assoc xs ys zs).symm

theorem reads_scalar {s : Scalar} (h : s.Legible) {rest : List Glyph} (hrest : Delimited rest) :
    Reads [.scalar s] rest := by
  simpa [Reads, Symbol.chars] using lexFrom?_scalar h hrest

theorem reads_mark {s : Symbol} {c : Char} (hchars : s.chars = [c])
    (hbegin : begin? c = some ([s], .between)) (rest : List Glyph) :
    Reads [s] rest := by
  simpa [Reads, hchars] using lexFrom?_mark hbegin rest

/-- A mark ends what stands before it. -/
theorem delimited_mark {s : Symbol} {c : Char} (hchars : s.chars = [c])
    (hc : isWordChar c = false) (more : List Symbol) (rest : List Glyph) :
    Delimited ((((s :: more).flatMap Symbol.chars).map some) ++ rest) := by
  rw [List.flatMap_cons, hchars]
  exact delimited_cons hc _

mutual

/-- **The text of a value** is read as its symbols, whatever comes after it. -/
theorem reads_symbols : ∀ (v : Json), v.Legible → ∀ rest, Delimited rest → Reads v.symbols rest
  | .scalar s, h, rest, hrest => by
    rw [symbols]
    exact reads_scalar (by simpa [Legible] using h) hrest
  | .array items, h, rest, _ => by
    have hitems := reads_itemSymbols items (by simpa [Legible] using h) _
      (delimited_mark (s := .endArray) rfl rfl [] rest)
    rw [symbols]
    exact (reads_mark (s := .beginArray) rfl rfl _).append
      (hitems.append (reads_mark rfl rfl rest))
  | .object members, h, rest, _ => by
    have hmembers := reads_memberSymbols members (by simpa [Legible] using h) _
      (delimited_mark (s := .endObject) rfl rfl [] rest)
    rw [symbols]
    exact (reads_mark (s := .beginObject) rfl rfl _).append
      (hmembers.append (reads_mark rfl rfl rest))

theorem reads_itemSymbols : ∀ (items : List Json), ItemsLegible items →
    ∀ rest, Delimited rest → Reads (itemSymbols items) rest
  | [], _, rest, _ => by simp [itemSymbols, Reads]
  | [v], h, rest, hrest => by
    rw [itemSymbols]
    exact reads_symbols v (by simpa [ItemsLegible] using h) rest hrest
  | v :: w :: r, h, rest, hrest => by
    rw [ItemsLegible] at h
    have hfirst := reads_symbols v h.1 _
      (delimited_mark (s := .comma) rfl rfl (itemSymbols (w :: r)) rest)
    have hrests := reads_itemSymbols (w :: r) h.2 rest hrest
    rw [itemSymbols]
    · exact hfirst.append ((reads_mark rfl rfl _).append hrests)
    · simp

theorem reads_memberSymbols : ∀ (members : List (Option String × Json)), MembersLegible members →
    ∀ rest, Delimited rest → Reads (memberSymbols members) rest
  | [], _, rest, _ => by simp [memberSymbols, Reads]
  | [(name, v)], h, rest, hrest => by
    rw [MembersLegible] at h
    rw [memberSymbols]
    exact (reads_scalar (s := .string name) h.1 (delimited_mark (s := .colon) rfl rfl _ _)).append
      ((reads_mark rfl rfl _).append (reads_symbols v h.2.1 rest hrest))
  | (name, v) :: m :: r, h, rest, hrest => by
    rw [MembersLegible] at h
    have hvalue := reads_symbols v h.2.1 _
      (delimited_mark (s := .comma) rfl rfl (memberSymbols (m :: r)) rest)
    have hrests := reads_memberSymbols (m :: r) h.2.2 rest hrest
    rw [memberSymbols]
    · exact (reads_scalar (s := .string name) h.1
        (delimited_mark (s := .colon) rfl rfl _ _)).append
          ((reads_mark rfl rfl _).append (hvalue.append ((reads_mark rfl rfl _).append hrests)))
    · simp

end

/-! ## 3. From the symbols to the value -/

/-- An array's first item is read like any other value. -/
theorem foldlM_firstItem (v : Json) (stack : List Frame) (rest : List Symbol) :
    (v.symbols ++ rest).foldlM Builder.push? ⟨stack, .firstItem⟩ =
      (v.symbols ++ rest).foldlM Builder.push? ⟨stack, .value⟩ := by
  have hpush (symbol : Symbol) (h : symbol ≠ .endArray) :
      Builder.push? ⟨stack, .firstItem⟩ symbol = Builder.push? ⟨stack, .value⟩ symbol := by
    simp only [Builder.push?]
    split
    · exact absurd rfl h
    · rfl
  cases v with
  | scalar s => simp [symbols, hpush]
  | array items => simp [symbols, hpush]
  | object members => simp [symbols, hpush]

mutual

/-- **The symbols of a value** build it, whatever containers are open. -/
theorem foldlM_symbols : ∀ (v : Json) (stack : List Frame) (rest : List Symbol),
    (v.symbols ++ rest).foldlM Builder.push? ⟨stack, .value⟩ =
      rest.foldlM Builder.push? ⟨stack, .after v⟩
  | .scalar s, stack, rest => by simp [symbols, Builder.push?, Builder.value?]
  | .array [], stack, rest => by simp [symbols, itemSymbols, Builder.push?, Builder.value?]
  | .array (v :: r), stack, rest => by
    have hitems := foldlM_itemSymbols (v :: r) (by simp) [] stack rest
    have hbegin : (symbols (.array (v :: r)) ++ rest).foldlM Builder.push? ⟨stack, .value⟩ =
        (itemSymbols (v :: r) ++ .endArray :: rest).foldlM Builder.push?
          ⟨.array [] :: stack, .firstItem⟩ := by
      simp [symbols, Builder.push?, Builder.value?]
    have hfirst : (itemSymbols (v :: r) ++ .endArray :: rest).foldlM Builder.push?
          ⟨.array [] :: stack, .firstItem⟩ =
        (itemSymbols (v :: r) ++ .endArray :: rest).foldlM Builder.push?
          ⟨.array [] :: stack, .value⟩ := by
      cases r with
      | nil => exact foldlM_firstItem v _ _
      | cons w r =>
        rw [itemSymbols, List.append_assoc]
        · exact foldlM_firstItem v _ _
        · simp
    rw [hbegin, hfirst, hitems]
    rfl
  | .object [], stack, rest => by simp [symbols, memberSymbols, Builder.push?, Builder.value?]
  | .object (m :: r), stack, rest => by
    have hmembers := foldlM_memberSymbols (m :: r) (by simp) [] true stack rest
    have hbegin : (symbols (.object (m :: r)) ++ rest).foldlM Builder.push? ⟨stack, .value⟩ =
        (memberSymbols (m :: r) ++ .endObject :: rest).foldlM Builder.push?
          ⟨stack, .name [] true⟩ := by
      simp [symbols, Builder.push?, Builder.value?]
    rw [hbegin, hmembers]
    rfl

/-- The items still to come join those that are there, in reverse. -/
theorem foldlM_itemSymbols : ∀ (items : List Json), items ≠ [] →
    ∀ (seen : List Json) (stack : List Frame) (rest : List Symbol),
      (itemSymbols items ++ .endArray :: rest).foldlM Builder.push? ⟨.array seen :: stack, .value⟩ =
        rest.foldlM Builder.push? ⟨stack, .after (.array (seen.reverse ++ items))⟩
  | [], h, _, _, _ => absurd rfl h
  | [v], _, seen, stack, rest => by
    rw [itemSymbols, foldlM_symbols v]
    simp [Builder.push?, Builder.after?]
  | v :: w :: r, _, seen, stack, rest => by
    have hrests := foldlM_itemSymbols (w :: r) (by simp) (v :: seen) stack rest
    rw [itemSymbols, List.append_assoc, foldlM_symbols v]
    · simpa [Builder.push?, Builder.after?] using hrests
    · simp

/-- The members still to come join those that are there, in reverse. -/
theorem foldlM_memberSymbols : ∀ (members : List (Option String × Json)), members ≠ [] →
    ∀ (seen : List Member) (first : Bool) (stack : List Frame) (rest : List Symbol),
      (memberSymbols members ++ .endObject :: rest).foldlM Builder.push? ⟨stack, .name seen first⟩ =
        rest.foldlM Builder.push? ⟨stack, .after (.object (seen.reverse ++ members))⟩
  | [], h, _, _, _, _ => absurd rfl h
  | [(name, v)], _, seen, first, stack, rest => by
    have hvalue := foldlM_symbols v (.object seen name :: stack) (.endObject :: rest)
    simpa [memberSymbols, Builder.push?, Builder.after?] using hvalue
  | (name, v) :: m :: r, _, seen, first, stack, rest => by
    have hvalue := foldlM_symbols v (.object seen name :: stack)
      (.comma :: (memberSymbols (m :: r) ++ .endObject :: rest))
    have hrests := foldlM_memberSymbols (m :: r) (by simp) ((name, v) :: seen) false stack rest
    have hname : (memberSymbols ((name, v) :: m :: r) ++ .endObject :: rest).foldlM Builder.push?
          ⟨stack, .name seen first⟩ =
        (v.symbols ++ .comma :: (memberSymbols (m :: r) ++ .endObject :: rest)).foldlM
          Builder.push? ⟨.object seen name :: stack, .value⟩ := by
      rw [memberSymbols]
      · simp [Builder.push?]
      · simp
    have hcomma : (Symbol.comma :: (memberSymbols (m :: r) ++ .endObject :: rest)).foldlM
          Builder.push? ⟨.object seen name :: stack, .after v⟩ =
        (memberSymbols (m :: r) ++ .endObject :: rest).foldlM Builder.push?
          ⟨stack, .name ((name, v) :: seen) false⟩ := rfl
    rw [hname, hvalue, hcomma, hrests]
    simp

end

/-! ## 4. The round trip -/

/-- **A value is read from its text.** -/
theorem parse?_render {v : Json} (h : v.Legible) : parse? v.render = some v := by
  have hlex : lex? ((v.symbols.flatMap Symbol.chars).map some) = some v.symbols := by
    have hreads := reads_symbols v h [] delimited_nil
    rw [Reads, List.append_nil] at hreads
    simpa [lex?, lexFrom?, finish?] using hreads
  have hbuild : ofSymbols? v.symbols = some v := by
    have hfold := foldlM_symbols v [] []
    rw [List.append_nil] at hfold
    simp [ofSymbols?, hfold, Builder.result?]
  rw [parse?, render, String.toList_ofList, parseGlyphs?, hlex]
  exact hbuild

end CurrencyPad.Json
