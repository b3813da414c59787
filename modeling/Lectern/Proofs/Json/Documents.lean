import Lectern.Proofs.Json.Numerals
import Mathlib.Tactic.SplitIfs

/-!
# Values and the documents they are written as

The compact text of a value is a document: read again it gives a node of the same shape,
with every text and every key readable and every number the numeral it was written as.
-/

namespace Lectern
namespace Json

namespace Value

mutual

/-- The node that the text of a value is read as. -/
def toNode : Value → Node
  | null => .null
  | bool b => .bool b
  | int n => .number (.ofInt n)
  | float x => .number x.numeral
  | text s => .text (some s)
  | list items => .list (itemNodes items)
  | object fields => .object (fieldNodes fields)

def itemNodes : List Value → List Node
  | [] => []
  | v :: rest => v.toNode :: itemNodes rest

def fieldNodes : List (String × Value) → List (Option String × Node)
  | [] => []
  | (k, v) :: rest => (some k, v.toNode) :: fieldNodes rest

end

theorem itemNodes_eq_map (items : List Value) : itemNodes items = items.map toNode := by
  induction items with
  | nil => rfl
  | cons v rest ih => simp [itemNodes, ih]

theorem fieldNodes_eq_map (fields : List (String × Value)) :
    fieldNodes fields = fields.map fun field => (some field.1, field.2.toNode) := by
  induction fields with
  | nil => rfl
  | cons field rest ih => simp [fieldNodes, ih]

theorem length_escapeChar_pos (c : Char) : 0 < (escapeChar c).length := by
  unfold escapeChar
  repeat' split
  all_goals simp

theorem length_textOnto (s : String) (rest : List Char) :
    s.toList.length + rest.length + 2 ≤ (textOnto s rest).length := by
  have hbody (cs : List Char) : cs.length + rest.length + 1 ≤
      (cs.foldr (fun c more => escapeChar c ++ more) ('"' :: rest)).length := by
    induction cs with
    | nil => simp
    | cons c cs ih =>
      have := length_escapeChar_pos c
      simp only [List.foldr_cons, List.length_append, List.length_cons]
      omega
  have := hbody s.toList
  simp only [textOnto, List.length_cons]
  omega

theorem exists_cons_chars {n : Numeral} (proper : n.Proper) (rest : List Char) :
    ∃ c cs, n.chars ++ rest = c :: cs ∧ (c = '-' ∨ c.isDigit = true) := by
  obtain ⟨d, ds, hd⟩ := List.exists_cons_of_ne_nil proper.whole_ne_nil
  cases hn : n.negative with
  | true => exact ⟨'-', _, by simp only [Numeral.chars, hn]; rfl, .inl rfl⟩
  | false =>
    exact ⟨d, _, by simp only [Numeral.chars, hn, hd]; rfl,
      .inr (proper.whole_digits d (by simp [hd]))⟩

theorem length_lt_chars {n : Numeral} (proper : n.Proper) (rest : List Char) :
    rest.length < (n.chars ++ rest).length := by
  obtain ⟨c, cs, hc, -⟩ := exists_cons_chars proper []
  rw [List.append_nil] at hc
  simp only [hc, List.length_append, List.length_cons]
  omega

mutual

theorem length_lt_onto : (v : Value) → (rest : List Char) → rest.length < (v.onto rest).length
  | null, rest => by simp only [onto, List.length_cons]; omega
  | bool true, rest => by simp only [onto, List.length_cons]; omega
  | bool false, rest => by simp only [onto, List.length_cons]; omega
  | int n, rest => by
    rw [onto, ← Numeral.chars_ofInt]
    exact length_lt_chars (Numeral.proper_ofInt n) rest
  | float x, rest => by
    rw [onto, ← Binary64.chars_numeral]
    exact length_lt_chars x.proper_numeral rest
  | text s, rest => by
    have := length_textOnto s rest
    rw [onto]
    omega
  | list items, rest => by
    have := length_le_itemsOnto items (']' :: rest)
    simp only [onto, List.length_cons] at *
    omega
  | object fields, rest => by
    have := length_le_fieldsOnto fields ('\x7d' :: rest)
    simp only [onto, List.length_cons] at *
    omega

theorem length_le_itemsOnto :
    (items : List Value) → (rest : List Char) → rest.length ≤ (itemsOnto items rest).length
  | [], rest => Nat.le_refl _
  | [v], rest => Nat.le_of_lt (length_lt_onto v rest)
  | v :: w :: more, rest => by
    have hv := length_lt_onto v (',' :: itemsOnto (w :: more) rest)
    have hmore := length_le_itemsOnto (w :: more) rest
    simp only [itemsOnto, List.length_cons] at *
    omega

theorem length_le_fieldsOnto :
    (fields : List (String × Value)) → (rest : List Char) →
      rest.length ≤ (fieldsOnto fields rest).length
  | [], rest => Nat.le_refl _
  | [(k, v)], rest => by
    have hv := length_lt_onto v rest
    have hk := length_textOnto k (':' :: v.onto rest)
    simp only [fieldsOnto, List.length_cons] at *
    omega
  | (k, v) :: w :: more, rest => by
    have hmore := length_le_fieldsOnto (w :: more) rest
    have hv := length_lt_onto v (',' :: fieldsOnto (w :: more) rest)
    have hk := length_textOnto k (':' :: v.onto (',' :: fieldsOnto (w :: more) rest))
    simp only [fieldsOnto, List.length_cons] at *
    omega

end

end Value

namespace Node

open Value

variable {rest : List Char}

theorem endsNumeral_nil : EndsNumeral [] := by
  intro c hc
  cases hc

theorem endsNumeral_cons {c : Char} (h : c = ',' ∨ c = ']' ∨ c = '\x7d') (rest : List Char) :
    EndsNumeral (c :: rest) := by
  intro d hd
  cases hd
  rcases h with rfl | rfl | rfl <;> decide

theorem skipSpace_cons {c : Char} (h : isSpace c = false) (cs : List Char) :
    skipSpace (c :: cs) = c :: cs := by
  simp [skipSpace, h]

theorem hexValue?_digitChar : ∀ d < 16, hexValue? (Nat.digitChar d) = some d := by decide

/-- Every escape stands for the character it was written for. -/
theorem readText_escapeChar (fuel : Nat) (done : List Char) (c : Char) (more : List Char) :
    readText (fuel + 1) (some done) (escapeChar c ++ more) =
      readText fuel (some (c :: done)) more := by
  unfold escapeChar
  split_ifs with hquote hslash hb hf hn hr ht hcontrol
  · subst hquote; rfl
  · subst hslash; rfl
  · subst hb; rfl
  · subst hf; rfl
  · subst hn; rfl
  · subst hr; rfl
  · subst ht; rfl
  · have hhigh := hexValue?_digitChar (c.toNat / 16) (by omega)
    have hlow := hexValue?_digitChar (c.toNat % 16) (by omega)
    have hzero : hexValue? '0' = some 0 := rfl
    have hunit : c.toNat / 16 * 16 + c.toNat % 16 = c.toNat := by omega
    have hpair : readPair c.toNat more = (some c, more) := by
      unfold readPair
      rw [if_pos (.inl (by omega)), Char.ofNat_toNat]
    simp [readText, readEscape, readUnit, hhigh, hlow, hzero, hunit, hpair]
  · simp [readText, hquote, hslash, hcontrol]

theorem readText_textOnto (s : String) (rest : List Char) {fuel : Nat}
    (enough : s.toList.length < fuel) :
    readText fuel (some [])
      (s.toList.foldr (fun c more => escapeChar c ++ more) ('"' :: rest)) =
      some (some s, rest) := by
  have hread (cs : List Char) : ∀ (fuel : Nat) (done : List Char), cs.length < fuel →
      readText fuel (some done) (cs.foldr (fun c more => escapeChar c ++ more) ('"' :: rest)) =
        some (some (String.ofList (done.reverse ++ cs)), rest) := by
    induction cs with
    | nil =>
      intro fuel done enough
      obtain ⟨fuel, rfl⟩ := Nat.exists_eq_add_of_lt enough
      simp [readText]
    | cons c cs ih =>
      intro fuel done enough
      cases fuel with
      | zero => omega
      | succ fuel =>
        rw [List.foldr_cons, readText_escapeChar,
          ih fuel (c :: done) (by simp only [List.length_cons] at enough; omega)]
        simp
  simpa using hread s.toList fuel [] enough

theorem isSpace_eq_false {c : Char} (h : c = '-' ∨ c.isDigit = true) : isSpace c = false := by
  rcases h with rfl | h
  · rfl
  · cases hs : isSpace c with
    | false => rfl
    | true =>
      simp only [isSpace, Bool.or_eq_true, beq_iff_eq] at hs
      rcases hs with ((rfl | rfl) | rfl) | rfl <;> exact absurd h (by decide)

theorem readNode_numeral {n : Numeral} (proper : n.Proper) (stop : EndsNumeral rest)
    (fuel : Nat) : readNode (fuel + 1) (n.chars ++ rest) = some (number n, rest) := by
  have hread := readNumber_append proper stop
  obtain ⟨c, cs, hc, hbegins⟩ := exists_cons_chars proper rest
  rw [hc] at hread ⊢
  unfold readNode
  rw [skipSpace_cons (isSpace_eq_false hbegins)]
  split
  case h_7 => rw [hread]; rfl
  all_goals
    rename_i heq
    cases heq
    exact absurd hbegins (by decide)

theorem exists_cons_onto (v : Value) (rest : List Char) :
    ∃ c cs, v.onto rest = c :: cs ∧ isSpace c = false ∧ c ≠ ']' := by
  have hnumeral {n : Numeral} (proper : n.Proper) :
      ∃ c cs, n.chars ++ rest = c :: cs ∧ isSpace c = false ∧ c ≠ ']' := by
    obtain ⟨c, cs, hc, hbegins⟩ := exists_cons_chars proper rest
    refine ⟨c, cs, hc, isSpace_eq_false hbegins, ?_⟩
    rintro rfl
    exact absurd hbegins (by decide)
  cases v with
  | null => exact ⟨_, _, rfl, rfl, by decide⟩
  | bool b => cases b <;> exact ⟨_, _, rfl, rfl, by decide⟩
  | int n =>
    rw [onto, ← Numeral.chars_ofInt]
    exact hnumeral (Numeral.proper_ofInt n)
  | float x =>
    rw [onto, ← Binary64.chars_numeral]
    exact hnumeral x.proper_numeral
  | text s => exact ⟨_, _, rfl, rfl, by decide⟩
  | list items => exact ⟨_, _, rfl, rfl, by decide⟩
  | object fields => exact ⟨_, _, rfl, rfl, by decide⟩

theorem exists_cons_itemsOnto (v : Value) (more : List Value) (rest : List Char) :
    ∃ c cs, itemsOnto (v :: more) rest = c :: cs ∧ isSpace c = false ∧ c ≠ ']' := by
  cases more with
  | nil => exact exists_cons_onto v rest
  | cons w more => exact exists_cons_onto v _

theorem exists_cons_fieldsOnto (field : String × Value) (more : List (String × Value))
    (rest : List Char) : ∃ cs, fieldsOnto (field :: more) rest = '"' :: cs := by
  cases more <;> exact ⟨_, rfl⟩

mutual

theorem readNode_onto : (v : Value) → (rest : List Char) → EndsNumeral rest → (fuel : Nat) →
    (v.onto rest).length ≤ fuel + rest.length → readNode fuel (v.onto rest) = some (v.toNode, rest)
  | v, rest, _, 0, enough => by
    have := length_lt_onto v rest
    omega
  | .null, rest, _, fuel + 1, _ => rfl
  | .bool true, rest, _, fuel + 1, _ => rfl
  | .bool false, rest, _, fuel + 1, _ => rfl
  | int n, rest, stop, fuel + 1, _ => by
    rw [onto, ← Numeral.chars_ofInt]
    exact readNode_numeral (Numeral.proper_ofInt n) stop fuel
  | float x, rest, stop, fuel + 1, _ => by
    rw [onto, ← Binary64.chars_numeral]
    exact readNode_numeral x.proper_numeral stop fuel
  | .text s, rest, _, fuel + 1, enough => by
    have hlength := length_textOnto s rest
    have hread := readText_textOnto s rest
      (show s.toList.length < fuel by rw [onto] at enough; omega)
    simp only [onto, textOnto, readNode, skipSpace_cons (show isSpace '"' = false from rfl), hread]
    rfl
  | .list [], rest, _, fuel + 1, _ => rfl
  | .list (v :: more), rest, stop, fuel + 1, enough => by
    have hread := readItems_onto (v :: more) (by simp) rest fuel
      (by simp only [onto, List.length_cons] at enough; omega)
    obtain ⟨c, cs, hc, hspace, hne⟩ := exists_cons_itemsOnto v more (']' :: rest)
    simp only [onto, readNode, skipSpace_cons (show isSpace '[' = false from rfl)]
    rw [hc] at hread ⊢
    rw [skipSpace_cons hspace]
    split
    · rename_i heq
      cases heq
      exact absurd rfl hne
    · rw [hread]
      rfl
  | .object [], rest, _, fuel + 1, _ => rfl
  | .object (field :: more), rest, stop, fuel + 1, enough => by
    have hread := readFields_onto (field :: more) (by simp) rest fuel
      (by simp only [onto, List.length_cons] at enough; omega)
    obtain ⟨cs, hc⟩ := exists_cons_fieldsOnto field more ('\x7d' :: rest)
    simp only [onto, readNode, skipSpace_cons (show isSpace '\x7b' = false from rfl)]
    rw [hc] at hread ⊢
    rw [skipSpace_cons (show isSpace '"' = false from rfl)]
    split
    · rename_i heq
      cases heq
    · rw [hread]
      rfl

theorem readItems_onto : (items : List Value) → items ≠ [] → (rest : List Char) → (fuel : Nat) →
    (itemsOnto items (']' :: rest)).length ≤ fuel + rest.length →
    readItems fuel (itemsOnto items (']' :: rest)) = some (itemNodes items, rest)
  | [], ne, _, _, _ => absurd rfl ne
  | items, _, rest, 0, enough => by
    have := length_le_itemsOnto items (']' :: rest)
    simp only [List.length_cons] at this
    omega
  | [v], _, rest, fuel + 1, enough => by
    have hread := readNode_onto v (']' :: rest) (endsNumeral_cons (by decide) rest) fuel
      (by simp only [itemsOnto, List.length_cons] at *; omega)
    simp only [itemsOnto, readItems, hread, skipSpace_cons (show isSpace ']' = false from rfl)]
    rfl
  | v :: w :: more, _, rest, fuel + 1, enough => by
    have hlength := length_lt_onto v (',' :: itemsOnto (w :: more) (']' :: rest))
    have hmore := length_le_itemsOnto (w :: more) (']' :: rest)
    have hread := readNode_onto v (',' :: itemsOnto (w :: more) (']' :: rest))
      (endsNumeral_cons (by decide) _) fuel
      (by simp only [itemsOnto, List.length_cons] at *; omega)
    have hrest := readItems_onto (w :: more) (by simp) rest fuel
      (by simp only [itemsOnto, List.length_cons] at *; omega)
    simp only [itemsOnto, readItems, hread, skipSpace_cons (show isSpace ',' = false from rfl),
      hrest]
    rfl

theorem readFields_onto : (fields : List (String × Value)) → fields ≠ [] → (rest : List Char) →
    (fuel : Nat) → (fieldsOnto fields ('\x7d' :: rest)).length ≤ fuel + rest.length →
    readFields fuel (fieldsOnto fields ('\x7d' :: rest)) = some (fieldNodes fields, rest)
  | [], ne, _, _, _ => absurd rfl ne
  | fields, _, rest, 0, enough => by
    have := length_le_fieldsOnto fields ('\x7d' :: rest)
    simp only [List.length_cons] at this
    omega
  | [(k, v)], _, rest, fuel + 1, enough => by
    have hlength := length_textOnto k (':' :: v.onto ('\x7d' :: rest))
    have hv := length_lt_onto v ('\x7d' :: rest)
    simp only [fieldsOnto, List.length_cons] at enough hlength hv
    have hkey := readText_textOnto k (':' :: v.onto ('\x7d' :: rest))
      (show k.toList.length < fuel by omega)
    have hread := readNode_onto v ('\x7d' :: rest) (endsNumeral_cons (by decide) rest) fuel
      (by simp only [List.length_cons]; omega)
    simp only [fieldsOnto, textOnto, readFields,
      skipSpace_cons (show isSpace '"' = false from rfl), hkey,
      skipSpace_cons (show isSpace ':' = false from rfl), hread,
      skipSpace_cons (show isSpace '\x7d' = false from rfl)]
    rfl
  | (k, v) :: w :: more, _, rest, fuel + 1, enough => by
    have hlength := length_textOnto k
      (':' :: v.onto (',' :: fieldsOnto (w :: more) ('\x7d' :: rest)))
    have hv := length_lt_onto v (',' :: fieldsOnto (w :: more) ('\x7d' :: rest))
    have hmore := length_le_fieldsOnto (w :: more) ('\x7d' :: rest)
    simp only [fieldsOnto, List.length_cons] at enough hlength hv hmore
    have hkey := readText_textOnto k
      (':' :: v.onto (',' :: fieldsOnto (w :: more) ('\x7d' :: rest)))
      (show k.toList.length < fuel by omega)
    have hread := readNode_onto v (',' :: fieldsOnto (w :: more) ('\x7d' :: rest))
      (endsNumeral_cons (by decide) _) fuel (by simp only [List.length_cons]; omega)
    have hrest := readFields_onto (w :: more) (by simp) rest fuel (by omega)
    simp only [fieldsOnto, textOnto, readFields,
      skipSpace_cons (show isSpace '"' = false from rfl), hkey,
      skipSpace_cons (show isSpace ':' = false from rfl), hread,
      skipSpace_cons (show isSpace ',' = false from rfl), hrest]
    rfl

end

/-- The text of a value is read as the node of the value. -/
theorem read?_chars (v : Value) : read? v.chars = some v.toNode := by
  have hread := readNode_onto v [] endsNumeral_nil (v.chars.length + 1) (by simp [chars])
  rw [chars] at hread
  simp [read?, chars, hread, skipSpace]

end Node
end Json
end Lectern
