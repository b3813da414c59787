import Lectern.Json.Node
import Lectern.Text.Utf8
import Mathlib.Algebra.Order.BigOperators.Group.List
import Mathlib.Algebra.Order.Group.Nat
import Mathlib.Algebra.Ring.Nat
import Mathlib.Tactic.SplitIfs

/-!
# How much text a document holds

The span of a text is the number of bytes that it takes between its quotes. No escape is
shorter than what is written for the character it stands for, so all texts of a document
together span no more bytes than the document has.
-/

namespace Lectern

namespace Text

/-- The number of bytes of some characters. -/
def width (cs : List Char) : Nat := (toBytes cs).length

@[simp] theorem width_nil : width [] = 0 := rfl

@[simp] theorem width_cons (c : Char) (cs : List Char) :
    width (c :: cs) = c.utf8Size + width cs := by
  simp [width, toBytes]

@[simp] theorem width_append (cs ds : List Char) : width (cs ++ ds) = width cs + width ds := by
  simp [width, toBytes_append]

theorem width_le_of_suffix {cs ds : List Char} (h : cs <:+ ds) : width cs ≤ width ds := by
  obtain ⟨before, rfl⟩ := h
  rw [width_append]
  exact Nat.le_add_left _ _

theorem toBytes_of_ofBytes? {bytes : List UInt8} {cs : List Char} (h : ofBytes? bytes = some cs) :
    toBytes cs = bytes := by
  obtain ⟨array, harray, rfl⟩ := Option.map_eq_some_iff.mp h
  have hsome : bytes.toByteArray.utf8Decode?.isSome = true := by
    rw [harray]
    rfl
  have hencode := ByteArray.utf8Encode_get_utf8Decode? (h := hsome)
  have hget : bytes.toByteArray.utf8Decode?.get hsome = array := by simp [harray]
  rw [hget, List.utf8Encode] at hencode
  have hlist := congrArg (fun b : ByteArray => b.data.toList) hencode
  simpa [toBytes] using hlist

end Text

namespace Json

open Text

/-- A measure of what may be absent. -/
def spanIf {α : Type} (measure : α → Nat) : Option α → Nat
  | none => 0
  | some a => measure a

@[simp] theorem spanIf_none {α : Type} (measure : α → Nat) : spanIf measure none = 0 := rfl

@[simp] theorem spanIf_some {α : Type} (measure : α → Nat) (a : α) :
    spanIf measure (some a) = measure a := rfl

/-- The bytes that a character takes within quotes. -/
def charSpan (c : Char) : Nat := width (Value.escapeChar c)

def charsSpan (cs : List Char) : Nat := (cs.map charSpan).sum

/-- The bytes that a text takes between its quotes. -/
def span (s : String) : Nat := charsSpan s.toList

@[simp] theorem span_append (s t : String) : span (s ++ t) = span s + span t := by
  simp [span, charsSpan]

theorem span_ofList_reverse (cs : List Char) : span (String.ofList cs.reverse) = charsSpan cs := by
  simp [span, charsSpan, List.sum_reverse]

theorem charsSpan_le_of_sublist {cs ds : List Char} (h : cs.Sublist ds) :
    charsSpan cs ≤ charsSpan ds := (h.map charSpan).sum_le_sum fun _ _ => Nat.zero_le _

theorem width_digitChar {d : Nat} (h : d < 16) : (Nat.digitChar d).utf8Size = 1 := by
  revert h
  revert d
  decide

theorem charSpan_le (c : Char) : charSpan c ≤ 6 := by
  unfold charSpan Value.escapeChar
  split_ifs with _ _ _ _ _ _ _ hcontrol
  any_goals decide
  · have hhigh := width_digitChar (d := c.toNat / 16) (by omega)
    have hlow := width_digitChar (d := c.toNat % 16) (by omega)
    have hprefix : width ['\\', 'u', '0', '0'] = 4 := by decide
    simp only [width_cons, width_nil] at hprefix ⊢
    omega
  · have := c.utf8Size_le_four
    simp only [width_cons, width_nil]
    omega

/-- Most characters stand for themselves. -/
theorem charSpan_of_plain {c : Char} (quote : c ≠ '"') (slash : c ≠ '\\')
    (shown : ¬ c.toNat < 0x20) : charSpan c = c.utf8Size := by
  have hcontrol (d : Char) (hd : d.toNat < 0x20) : c ≠ d := by
    rintro rfl
    exact shown hd
  simp [charSpan, Value.escapeChar, quote, slash, shown,
    hcontrol _ (by decide : '\x08'.toNat < 0x20),
    hcontrol _ (by decide : '\x0c'.toNat < 0x20), hcontrol _ (by decide : '\n'.toNat < 0x20),
    hcontrol _ (by decide : '\r'.toNat < 0x20), hcontrol _ (by decide : '\t'.toNat < 0x20)]

/-- A quoted text is its span, and the quotes around it. -/
theorem width_textOnto (s : String) (rest : List Char) :
    width (Value.textOnto s rest) = span s + 2 + width rest := by
  have hbody (cs : List Char) : width
      (cs.foldr (fun c more => Value.escapeChar c ++ more) ('"' :: rest)) =
      charsSpan cs + 1 + width rest := by
    induction cs with
    | nil => simp [charsSpan, Char.utf8Size]
    | cons c cs ih =>
      rw [List.foldr_cons, width_append, ih]
      simp only [charsSpan, charSpan, List.map_cons, List.sum_cons]
      omega
  rw [Value.textOnto, width_cons, hbody, span]
  have hquote : '"'.utf8Size = 1 := by decide
  omega

namespace Node

variable {cs rest : List Char}

theorem width_readUnit {unit : Nat} (h : readUnit cs = some (unit, rest)) :
    width rest + 4 ≤ width cs := by
  unfold readUnit at h
  split at h
  · rename_i a b c d more
    simp only [Option.bind_eq_bind, Option.bind_eq_some_iff, Option.pure_def, Option.some.injEq,
      Prod.mk.injEq] at h
    obtain ⟨_, _, _, _, _, _, _, _, _, rfl⟩ := h
    have ha := a.utf8Size_pos
    have hb := b.utf8Size_pos
    have hc := c.utf8Size_pos
    have hd := d.utf8Size_pos
    simp only [width_cons]
    omega
  · cases h

theorem width_readPair (unit : Nat) (cs : List Char) : width (readPair unit cs).2 ≤ width cs := by
  unfold readPair
  split_ifs
  · exact Nat.le_refl _
  · exact Nat.le_refl _
  · split
    · rename_i more
      split
      · rename_i low rest hunit
        have := width_readUnit hunit
        split_ifs
        · simp only [width_cons]
          omega
        · exact Nat.le_refl _
      · exact Nat.le_refl _
    · exact Nat.le_refl _

/-- An escape, with its backslash, is no shorter than what is written for its character. -/
theorem charSpan_readEscape {e : Option Char} (h : readEscape cs = some (e, rest)) :
    spanIf charSpan e + width rest ≤ width cs + 1 := by
  have short {c : Char} (hc : charSpan c ≤ 2) (letter : Char) (rest : List Char) :
      charSpan c + width rest ≤ width (letter :: rest) + 1 := by
    have := letter.utf8Size_pos
    rw [width_cons]
    omega
  unfold readEscape at h
  split at h
  case h_9 more =>
    obtain ⟨⟨unit, after⟩, hunit, hpair⟩ := Option.map_eq_some_iff.mp h
    have hwidth := width_readUnit hunit
    have hrest := width_readPair unit after
    dsimp only at hpair
    simp only [hpair] at hrest
    have hescape : spanIf charSpan e ≤ 6 := by
      cases e with
      | none => exact Nat.zero_le _
      | some c => exact charSpan_le c
    have hu : 'u'.utf8Size = 1 := by decide
    simp only [width_cons, hu]
    omega
  case h_10 => cases h
  all_goals
    cases h
    exact short (by decide) _ _

theorem span_readText {fuel : Nat} {done : Option (List Char)} {s : Option String}
    (h : readText fuel done cs = some (s, rest)) :
    spanIf Json.span s + width rest + 1 ≤ spanIf charsSpan done + width cs := by
  induction fuel generalizing done cs with
  | zero => cases h
  | succ fuel ih =>
    cases cs with
    | nil => cases h
    | cons c more =>
      simp only [readText] at h
      split_ifs at h with hquote hslash hcontrol
      · subst hquote
        cases h
        have hwidth : '"'.utf8Size = 1 := by decide
        cases done with
        | none =>
          simp only [Option.map_none, spanIf_none, width_cons, hwidth]
          omega
        | some ds =>
          simp only [Option.map_some, spanIf_some, span_ofList_reverse, width_cons, hwidth]
          omega
      · subst hslash
        have hwidth : '\\'.utf8Size = 1 := by decide
        rw [width_cons, hwidth]
        split at h
        · cases h
        · rename_i after hescape
          have hnext := ih h
          have hread := charSpan_readEscape hescape
          simp only [spanIf_none] at hnext hread
          omega
        · rename_i after e hescape
          have hnext := ih h
          have hread := charSpan_readEscape hescape
          cases done with
          | none =>
            simp only [Option.map_none, spanIf_none, spanIf_some] at hnext hread ⊢
            omega
          | some ds =>
            simp only [Option.map_some, spanIf_some, charsSpan, List.map_cons, List.sum_cons]
              at hnext hread ⊢
            omega
      · have hnext := ih h
        have hplain := charSpan_of_plain hquote hslash hcontrol
        rw [width_cons]
        cases done with
        | none =>
          simp only [Option.map_none, spanIf_none] at hnext ⊢
          omega
        | some ds =>
          simp only [Option.map_some, spanIf_some, charsSpan, List.map_cons, List.sum_cons]
            at hnext ⊢
          omega

theorem suffix_skipSpace (cs : List Char) : skipSpace cs <:+ cs := List.dropWhile_suffix _

theorem suffix_readDigits {ds : List Char} (h : readDigits cs = some (ds, rest)) :
    rest <:+ cs := by
  unfold readDigits at h
  split at h
  · cases h
  · cases h
    exact List.dropWhile_suffix _

theorem suffix_readWhole {ds : List Char} (h : readWhole cs = some (ds, rest)) : rest <:+ cs := by
  unfold readWhole at h
  split at h
  · cases h
    exact List.suffix_cons _ _
  · exact suffix_readDigits h

theorem suffix_readFraction {ds : List Char} (h : readFraction cs = some (ds, rest)) :
    rest <:+ cs := by
  unfold readFraction at h
  split at h
  · exact (suffix_readDigits h).trans (List.suffix_cons _ _)
  · cases h
    exact List.suffix_refl _

theorem suffix_readExponent {e : Option Int} (h : readExponent cs = some (e, rest)) :
    rest <:+ cs := by
  have digits {f : List Char × List Char → Option Int × List Char} {ds : List Char}
      (keeps : ∀ p, (f p).2 = p.2) (h : (readDigits ds).map f = some (e, rest)) : rest <:+ ds := by
    obtain ⟨p, hread, heq⟩ := Option.map_eq_some_iff.mp h
    have hrest : p.2 = rest := by rw [← keeps p, heq]
    exact hrest ▸ suffix_readDigits hread
  unfold readExponent at h
  split at h
  · split at h
    · split at h
      · exact (digits (fun _ => rfl) h).trans ((List.suffix_cons _ _).trans (List.suffix_cons _ _))
      · exact (digits (fun _ => rfl) h).trans ((List.suffix_cons _ _).trans (List.suffix_cons _ _))
      · exact (digits (fun _ => rfl) h).trans (List.suffix_cons _ _)
    · cases h
      exact List.suffix_refl _
  · cases h
    exact List.suffix_refl _

theorem suffix_readNumber {n : Numeral} (h : readNumber cs = some (n, rest)) : rest <:+ cs := by
  have unsigned {negative : Bool} {cs : List Char}
      (h : readUnsigned negative cs = some (n, rest)) : rest <:+ cs := by
    simp only [readUnsigned, Option.bind_eq_bind, Option.bind_eq_some_iff, Option.pure_def,
      Option.some.injEq, Prod.mk.injEq] at h
    obtain ⟨⟨_, _⟩, hwhole, ⟨_, _⟩, hfraction, ⟨_, _⟩, hexponent, -, rfl⟩ := h
    exact ((suffix_readExponent hexponent).trans (suffix_readFraction hfraction)).trans
      (suffix_readWhole hwhole)
  unfold readNumber at h
  split at h
  · exact (unsigned h).trans (List.suffix_cons _ _)
  · exact unsigned h

mutual

/-- The bytes that the texts of a node take; its keys are not counted. -/
def span : Node → Nat
  | null => 0
  | bool _ => 0
  | number _ => 0
  | text s => spanIf Json.span s
  | list items => itemsSpan items
  | object fields => fieldsSpan fields

def itemsSpan : List Node → Nat
  | [] => 0
  | n :: rest => n.span + itemsSpan rest

def fieldsSpan : List (Option String × Node) → Nat
  | [] => 0
  | (_, n) :: rest => n.span + fieldsSpan rest

end

theorem itemsSpan_eq (items : List Node) : itemsSpan items = (items.map span).sum := by
  induction items with
  | nil => rfl
  | cons n rest ih => simp [itemsSpan, ih]

theorem fieldsSpan_eq (fields : List (Option String × Node)) :
    fieldsSpan fields = (fields.map fun field => field.2.span).sum := by
  induction fields with
  | nil => rfl
  | cons field rest ih => simp [fieldsSpan, ih]

/-- What is left behind the blanks is no longer. -/
theorem width_of_skipSpace {ds : List Char} (h : skipSpace cs = ds) : width ds ≤ width cs :=
  h ▸ width_le_of_suffix (suffix_skipSpace cs)

/-- What stands behind a word is left of the text. -/
theorem suffix_of_word (word : List Char) (h : skipSpace cs = word ++ rest) : rest <:+ cs :=
  (List.suffix_append word rest).trans (h ▸ suffix_skipSpace cs)

mutual

theorem span_readNode : (fuel : Nat) → {cs rest : List Char} → {n : Node} →
    readNode fuel cs = some (n, rest) → n.span + width rest ≤ width cs
  | 0, _, _, _, h => by cases h
  | fuel + 1, cs, rest, n, h => by
    simp only [readNode] at h
    split at h
    · rename_i heq
      cases h
      rw [span, Nat.zero_add]
      exact width_le_of_suffix (suffix_of_word ['n', 'u', 'l', 'l'] heq)
    · rename_i heq
      cases h
      rw [span, Nat.zero_add]
      exact width_le_of_suffix (suffix_of_word ['t', 'r', 'u', 'e'] heq)
    · rename_i heq
      cases h
      rw [span, Nat.zero_add]
      exact width_le_of_suffix (suffix_of_word ['f', 'a', 'l', 's', 'e'] heq)
    · rename_i heq
      obtain ⟨⟨s, more⟩, hread, heq'⟩ := Option.map_eq_some_iff.mp h
      cases heq'
      have hwidth := width_of_skipSpace heq
      have hspan := span_readText hread
      simp only [span, spanIf_some, charsSpan, List.map_nil, List.sum_nil, width_cons]
        at hwidth hspan ⊢
      omega
    · rename_i more heq
      have hopen := suffix_of_word ['['] heq
      split at h
      · rename_i heq'
        cases h
        rw [span, itemsSpan, Nat.zero_add]
        exact width_le_of_suffix ((suffix_of_word [']'] heq').trans hopen)
      · obtain ⟨⟨items, after⟩, hread, heq'⟩ := Option.map_eq_some_iff.mp h
        cases heq'
        exact Nat.le_trans (span_readItems fuel hread)
          (width_le_of_suffix ((suffix_skipSpace more).trans hopen))
    · rename_i more heq
      have hopen := suffix_of_word ['\x7b'] heq
      split at h
      · rename_i heq'
        cases h
        rw [span, fieldsSpan, Nat.zero_add]
        exact width_le_of_suffix ((suffix_of_word ['\x7d'] heq').trans hopen)
      · obtain ⟨⟨fields, after⟩, hread, heq'⟩ := Option.map_eq_some_iff.mp h
        cases heq'
        exact Nat.le_trans (span_readFields fuel hread)
          (width_le_of_suffix ((suffix_skipSpace more).trans hopen))
    · obtain ⟨⟨m, more⟩, hread, heq'⟩ := Option.map_eq_some_iff.mp h
      cases heq'
      have hsuffix := (suffix_readNumber hread).trans (suffix_skipSpace cs)
      rw [span, Nat.zero_add]
      exact width_le_of_suffix hsuffix

theorem span_readItems : (fuel : Nat) → {cs rest : List Char} → {items : List Node} →
    readItems fuel cs = some (items, rest) → itemsSpan items + width rest ≤ width cs
  | 0, _, _, _, h => by cases h
  | fuel + 1, cs, rest, items, h => by
    simp only [readItems] at h
    split at h
    · cases h
    · rename_i item more hitem
      have hspan := span_readNode fuel hitem
      split at h
      · rename_i heq
        cases h
        have hmore := width_of_skipSpace heq
        simp only [itemsSpan, width_cons] at hmore ⊢
        omega
      · rename_i heq
        obtain ⟨⟨later, after⟩, hread, heq'⟩ := Option.map_eq_some_iff.mp h
        cases heq'
        have hmore := width_of_skipSpace heq
        have hlater := span_readItems fuel hread
        simp only [itemsSpan, width_cons] at hmore ⊢
        omega
      · cases h

theorem span_readFields : (fuel : Nat) → {cs rest : List Char} →
    {fields : List (Option String × Node)} →
    readFields fuel cs = some (fields, rest) → fieldsSpan fields + width rest ≤ width cs
  | 0, _, _, _, h => by cases h
  | fuel + 1, cs, rest, fields, h => by
    simp only [readFields] at h
    split at h
    · rename_i heq
      have hwidth := width_of_skipSpace heq
      rw [width_cons] at hwidth
      split at h
      · cases h
      · rename_i key more hkey
        have hspan := span_readText hkey
        simp only [spanIf_some, charsSpan, List.map_nil, List.sum_nil] at hspan
        split at h
        · rename_i heq'
          have hmore := width_of_skipSpace heq'
          rw [width_cons] at hmore
          split at h
          · cases h
          · rename_i node after hnode
            have hnodespan := span_readNode fuel hnode
            split at h
            · rename_i heq''
              cases h
              have hafter := width_of_skipSpace heq''
              simp only [fieldsSpan, width_cons] at hafter ⊢
              omega
            · rename_i heq''
              obtain ⟨⟨later, end_⟩, hread, hlast⟩ := Option.map_eq_some_iff.mp h
              cases hlast
              have hafter := width_of_skipSpace heq''
              have hlater := span_readFields fuel hread
              simp only [fieldsSpan, width_cons] at hafter ⊢
              omega
            · cases h
        · cases h
    · cases h

end

/-- The texts of a document take no more bytes than the document. -/
theorem span_read? {n : Node} (h : read? cs = some n) : n.span ≤ width cs := by
  unfold read? at h
  split at h
  · rename_i node rest hread
    split_ifs at h
    cases h
    have := span_readNode _ hread
    omega
  · cases h

end Node
end Json
end Lectern
