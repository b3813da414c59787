import Lectern.Proofs.Json.Numerals
import Lectern.Proofs.Json.Spans

/-!
# How long a value is when it is written

A value is allowed the bytes of its texts and its numbers, and some for the punctuation around
them. Its compact text takes no more than that. However many digits the exact decimal of a
double has, it is written with fewer than eight hundred characters.
-/

namespace Lectern

namespace Binary64

variable {magnitude digits : Nat} {scale : Int}

/-- No double has more digits than this. -/
def mostDigits : Nat := 767

theorem shiftRight_le_of_lt (finite : magnitude < infinity) : magnitude >>> 52 ≤ 2046 := by
  have hinfinity : infinity = 2047 * 2 ^ 52 := Nat.shiftLeft_eq _ _
  rw [hinfinity] at finite
  rw [Nat.shiftRight_eq_div_pow]
  exact Nat.le_of_lt_succ (Nat.div_lt_of_lt_mul (by omega))

theorem significand_lt (magnitude : Nat) : significand magnitude < 2 ^ 53 := by
  unfold significand
  split
  · rename_i h
    rw [Nat.shiftRight_eq_div_pow] at h
    omega
  · rw [Nat.one_shiftLeft]
    omega

theorem exponent_bounds (finite : magnitude < infinity) :
    -1074 ≤ exponent magnitude ∧ exponent magnitude ≤ 971 := by
  have := shiftRight_le_of_lt finite
  unfold exponent
  split <;> omega

theorem exactDecimal_bounds (finite : magnitude < infinity) :
    (exactDecimal magnitude).1 < 10 ^ mostDigits ∧
      -1074 ≤ (exactDecimal magnitude).2 ∧ (exactDecimal magnitude).2 ≤ 0 := by
  have hsignificand := significand_lt magnitude
  obtain ⟨hlow, hhigh⟩ := exponent_bounds finite
  unfold exactDecimal
  dsimp only
  split
  · refine ⟨?_, by dsimp only; omega, by dsimp only; omega⟩
    rw [Nat.shiftLeft_eq]
    calc significand magnitude * 2 ^ (exponent magnitude).toNat
        ≤ 2 ^ 53 * 2 ^ 971 :=
          Nat.mul_le_mul (Nat.le_of_lt hsignificand)
            (Nat.pow_le_pow_right (by decide) (by omega))
      _ < 10 ^ mostDigits := by decide +kernel
  · refine ⟨?_, by dsimp only; omega, by dsimp only; omega⟩
    calc significand magnitude * 5 ^ (-exponent magnitude).toNat
        ≤ 2 ^ 53 * 5 ^ 1074 :=
          Nat.mul_le_mul (Nat.le_of_lt hsignificand)
            (Nat.pow_le_pow_right (by decide) (by omega))
      _ < 10 ^ mostDigits := by decide +kernel

theorem nearestCut_le {cut rest unit : Nat}
    (h : nearestCut magnitude cut scale rest unit = some digits) : digits ≤ cut + 1 := by
  simp only [nearestCut] at h
  split at h
  · cases h
    split <;> omega
  · split at h
    · cases h
      omega
    · split at h
      · cases h
        exact Nat.le_refl _
      · cases h

theorem stripZeros_bounds (fuel digits : Nat) (scale : Int) :
    (stripZeros fuel digits scale).1 ≤ digits ∧ scale ≤ (stripZeros fuel digits scale).2 ∧
      (stripZeros fuel digits scale).2 ≤ scale + fuel := by
  induction fuel generalizing digits scale with
  | zero => exact ⟨Nat.le_refl _, Int.le_refl _, by simp [stripZeros]⟩
  | succ fuel ih =>
    unfold stripZeros
    split
    · obtain ⟨hdigits, hlow, hhigh⟩ := ih (digits / 10) (scale + 1)
      omega
    · exact ⟨Nat.le_refl _, Int.le_refl _, by dsimp only; omega⟩

/-- The shortest decimal has no more digits than the exact one, but for a carry. -/
theorem shortest_bounds (finite : magnitude < infinity) :
    (Nat.toDigits 10 (shortest magnitude).1).length ≤ mostDigits + 1 ∧
      -1074 ≤ (shortest magnitude).2 ∧ (shortest magnitude).2 ≤ 2 * mostDigits + 1 := by
  obtain ⟨hexact, hlow, hhigh⟩ := exactDecimal_bounds finite
  have hcount : (Nat.toDigits 10 (exactDecimal magnitude).1).length ≤ mostDigits :=
    (Nat.length_toDigits_le_iff (by decide) (by decide)).mpr hexact
  have hlength {digits : Nat} (h : digits ≤ 10 ^ mostDigits) :
      (Nat.toDigits 10 digits).length ≤ mostDigits + 1 :=
    (Nat.length_toDigits_le_iff (by decide) (by decide)).mpr
      (Nat.lt_of_le_of_lt h (Nat.pow_lt_pow_right (by decide) (Nat.lt_succ_self _)))
  have hstrip {digits : Nat} {scale : Int} (hd : digits ≤ 10 ^ mostDigits)
      (hl : -1074 ≤ scale) (hh : scale ≤ mostDigits) :
      (Nat.toDigits 10
          (stripZeros (Nat.toDigits 10 digits).length digits scale).1).length ≤ mostDigits + 1 ∧
        -1074 ≤ (stripZeros (Nat.toDigits 10 digits).length digits scale).2 ∧
        (stripZeros (Nat.toDigits 10 digits).length digits scale).2 ≤ 2 * mostDigits + 1 := by
    obtain ⟨hless, hfrom, hto⟩ := stripZeros_bounds (Nat.toDigits 10 digits).length digits scale
    have hdigits := hlength hd
    exact ⟨hlength (Nat.le_trans hless hd), by omega, by omega⟩
  simp only [shortest]
  cases hfound : List.findSome? _ _ with
  | none =>
    simp only [Option.getD_none]
    exact hstrip (Nat.le_of_lt hexact) hlow (by omega)
  | some found =>
    obtain ⟨i, -, hi⟩ := List.exists_of_findSome?_eq_some hfound
    obtain ⟨cut, hcut, rfl⟩ := Option.map_eq_some_iff.mp hi
    have hcutLe : cut ≤ (exactDecimal magnitude).1 + 1 :=
      Nat.le_trans (nearestCut_le hcut) (Nat.succ_le_succ (Nat.div_le_self _ _))
    simp only [Option.getD_some]
    exact hstrip (Nat.le_trans hcutLe hexact) (by omega) (by omega)

theorem length_layout_le (hlength : (Nat.toDigits 10 digits).length ≤ mostDigits + 1)
    (hlow : -1074 ≤ scale) (hhigh : scale ≤ 2 * mostDigits + 1) :
    (layout digits scale).length < 790 := by
  have hmost : mostDigits = 767 := rfl
  unfold layout
  dsimp only
  split
  · simp only [List.length_append, List.length_replicate, List.length_cons, List.length_nil]
    omega
  · split
    · simp only [List.length_append, List.length_cons, List.length_take, List.length_drop]
      omega
    · split
      · simp only [List.length_append, List.length_cons, List.length_replicate]
        omega
      · have hexponent : (Nat.toDigits 10
            ((Nat.toDigits 10 digits).length + scale - 1).natAbs).length ≤ 4 :=
          (Nat.length_toDigits_le_iff (by decide) (by decide)).mpr (by omega)
        split
        · simp only [List.length_cons]
          omega
        · rename_i heq
          rw [heq, List.length_cons] at hlength
          simp only [List.length_append, List.length_cons]
          omega
        · simp only [List.length_cons]
          omega

theorem length_chars_lt {x : Binary64} (finite : x.isFinite = true) : x.chars.length < 800 := by
  obtain ⟨hdigits, hlow, hhigh⟩ := shortest_bounds (of_decide_eq_true finite)
  have hlayout := length_layout_le hdigits hlow hhigh
  have hsign : (if x.negative then ['-'] else []).length ≤ 1 := by split <;> simp
  simp only [chars]
  by_cases hzero : x.magnitude = 0
  · simp only [hzero, if_true, List.length_append, List.length_cons, List.length_nil]
    omega
  · simp only [hzero, if_false, List.length_append]
    omega

end Binary64

namespace Json

open Text

/-- A text of digits, signs, points and exponents has one byte for each character. -/
theorem width_of_ascii {cs : List Char} (ascii : ∀ c ∈ cs, c.utf8Size = 1) :
    width cs = cs.length := by
  induction cs with
  | nil => rfl
  | cons c cs ih =>
    rw [width_cons, ascii c List.mem_cons_self, ih fun d hd => ascii d (List.mem_cons_of_mem c hd),
      List.length_cons]
    omega

theorem utf8Size_of_isDigit {c : Char} (h : c.isDigit = true) : c.utf8Size = 1 := by
  have hbound : c.val ≤ 57 := by
    simp only [Char.isDigit, Bool.and_eq_true, decide_eq_true_eq] at h
    exact h.2
  exact Char.utf8Size_eq_one_iff.mpr (Nat.le_trans hbound (by decide))

theorem Numeral.width_chars {n : Numeral} (proper : n.Proper) :
    width n.chars = n.chars.length := by
  refine width_of_ascii fun c hc => ?_
  have hdigit := @utf8Size_of_isDigit c
  simp only [Numeral.chars, List.mem_append] at hc
  rcases hc with hc | hc | hc | hc
  · split at hc
    · rw [List.mem_singleton.mp hc]
      decide
    · cases hc
  · exact hdigit (proper.whole_digits c hc)
  · cases hfraction : n.fraction with
    | nil => simp [hfraction, Numeral.fractionChars] at hc
    | cons d ds =>
      rw [hfraction] at hc
      rcases List.mem_cons.mp (show c ∈ '.' :: d :: ds from hc) with rfl | hc
      · decide
      · exact hdigit (proper.fraction_digits c (hfraction ▸ hc))
  · cases hexponent : n.exponent with
    | none => simp [hexponent, Numeral.exponentChars] at hc
    | some e =>
      rw [hexponent, Numeral.exponentChars] at hc
      rcases List.mem_cons.mp hc with rfl | hc
      · decide
      · rcases List.mem_cons.mp hc with rfl | hc
        · split <;> decide
        · exact hdigit (isDigit_of_mem_toDigits hc)

namespace Value

theorem width_intChars (n : Int) : width (intChars n) = (intChars n).length := by
  rw [← Numeral.chars_ofInt]
  exact Numeral.width_chars (Numeral.proper_ofInt n)

/-- An integer of sixty-four bits, or so, takes at most its sign and twenty digits. -/
theorem length_intChars_le {n : Int} (h : n.natAbs ≤ UInt64.size) : (intChars n).length ≤ 21 := by
  have hdigits : (Nat.toDigits 10 n.natAbs).length ≤ 20 :=
    (Nat.length_toDigits_le_iff (by decide) (by decide)).mpr
      (Nat.lt_of_le_of_lt h (by decide))
  have hsign : (if n < 0 then ['-'] else []).length ≤ 1 := by split <;> simp
  rw [intChars, List.length_append]
  omega

mutual

/-- So many bytes are enough for the compact text of a value. -/
def allowance : Value → Nat
  | null => 4
  | bool _ => 5
  | int n => (intChars n).length
  | float x => x.chars.length
  | text s => span s + 2
  | list items => itemsAllowance items + 2
  | object fields => fieldsAllowance fields + 2

def itemsAllowance : List Value → Nat
  | [] => 0
  | v :: rest => v.allowance + 1 + itemsAllowance rest

def fieldsAllowance : List (String × Value) → Nat
  | [] => 0
  | (k, v) :: rest => span k + v.allowance + 4 + fieldsAllowance rest

end

mutual

theorem width_onto_le : (v : Value) → (rest : List Char) →
    width (v.onto rest) ≤ v.allowance + width rest
  | null, rest => Nat.le_of_eq (width_append ['n', 'u', 'l', 'l'] rest)
  | bool true, rest => by
    have h := width_append ['t', 'r', 'u', 'e'] rest
    have htrue : width ['t', 'r', 'u', 'e'] = 4 := by decide
    simp only [onto, allowance, List.cons_append, List.nil_append] at h ⊢
    omega
  | bool false, rest => Nat.le_of_eq (width_append ['f', 'a', 'l', 's', 'e'] rest)
  | int n, rest => by
    refine Nat.le_of_eq ?_
    rw [onto, width_append, width_intChars, allowance]
  | float x, rest => by
    refine Nat.le_of_eq ?_
    rw [onto, width_append, ← Binary64.chars_numeral, Numeral.width_chars x.proper_numeral,
      allowance, Binary64.chars_numeral]
  | text s, rest => by
    refine Nat.le_of_eq ?_
    rw [onto, width_textOnto, allowance]
  | list items, rest => by
    have hitems := width_itemsOnto_le items (']' :: rest)
    have hopen : '['.utf8Size = 1 := by decide
    have hclose : ']'.utf8Size = 1 := by decide
    simp only [onto, allowance, width_cons, hopen, hclose] at hitems ⊢
    omega
  | object fields, rest => by
    have hfields := width_fieldsOnto_le fields ('\x7d' :: rest)
    have hopen : '\x7b'.utf8Size = 1 := by decide
    have hclose : '\x7d'.utf8Size = 1 := by decide
    simp only [onto, allowance, width_cons, hopen, hclose] at hfields ⊢
    omega

theorem width_itemsOnto_le : (items : List Value) → (rest : List Char) →
    width (itemsOnto items rest) ≤ itemsAllowance items + width rest
  | [], rest => by simp [itemsOnto, itemsAllowance]
  | [v], rest => by
    have hv := width_onto_le v rest
    simp only [itemsOnto, itemsAllowance]
    omega
  | v :: w :: more, rest => by
    have hv := width_onto_le v (',' :: itemsOnto (w :: more) rest)
    have hmore := width_itemsOnto_le (w :: more) rest
    have hcomma : ','.utf8Size = 1 := by decide
    rw [width_cons, hcomma] at hv
    rw [itemsOnto, itemsAllowance]
    omega

theorem width_fieldsOnto_le : (fields : List (String × Value)) → (rest : List Char) →
    width (fieldsOnto fields rest) ≤ fieldsAllowance fields + width rest
  | [], rest => by simp [fieldsOnto, fieldsAllowance]
  | [(k, v)], rest => by
    have hv := width_onto_le v rest
    have hcolon : ':'.utf8Size = 1 := by decide
    simp only [fieldsOnto, fieldsAllowance, width_textOnto, width_cons, hcolon]
    omega
  | (k, v) :: w :: more, rest => by
    have hv := width_onto_le v (',' :: fieldsOnto (w :: more) rest)
    have hmore := width_fieldsOnto_le (w :: more) rest
    have hcomma : ','.utf8Size = 1 := by decide
    have hcolon : ':'.utf8Size = 1 := by decide
    rw [width_cons, hcomma] at hv
    rw [fieldsOnto, fieldsAllowance, width_textOnto, width_cons, hcolon]
    omega

end

/-- The text of a value takes no more than what it is allowed. -/
theorem length_toBytes_chars_le (v : Value) : (toBytes v.chars).length ≤ v.allowance := by
  have h := width_onto_le v []
  rwa [width_nil, Nat.add_zero] at h

mutual

/-- So many bytes are taken by the texts of a value alone, keys among them. -/
def need : Value → Nat
  | null => 0
  | bool _ => 0
  | int _ => 0
  | float _ => 0
  | text s => span s
  | list items => itemsNeed items
  | object fields => fieldsNeed fields

def itemsNeed : List Value → Nat
  | [] => 0
  | v :: rest => v.need + itemsNeed rest

def fieldsNeed : List (String × Value) → Nat
  | [] => 0
  | (k, v) :: rest => span k + v.need + fieldsNeed rest

end

mutual

theorem need_le_width_onto : (v : Value) → (rest : List Char) →
    v.need + width rest ≤ width (v.onto rest)
  | null, rest | bool true, rest | bool false, rest => by
    simp only [onto, need, width_cons]
    omega
  | int n, rest => by
    rw [onto, width_append, need]
    omega
  | float x, rest => by
    rw [onto, width_append, need]
    omega
  | text s, rest => by
    rw [onto, width_textOnto, need]
    omega
  | list items, rest => by
    have hitems := need_le_width_itemsOnto items (']' :: rest)
    simp only [onto, need, width_cons] at hitems ⊢
    omega
  | object fields, rest => by
    have hfields := need_le_width_fieldsOnto fields ('\x7d' :: rest)
    simp only [onto, need, width_cons] at hfields ⊢
    omega

theorem need_le_width_itemsOnto : (items : List Value) → (rest : List Char) →
    itemsNeed items + width rest ≤ width (itemsOnto items rest)
  | [], rest => by simp [itemsOnto, itemsNeed]
  | [v], rest => by
    have hv := need_le_width_onto v rest
    simp only [itemsOnto, itemsNeed]
    omega
  | v :: w :: more, rest => by
    have hv := need_le_width_onto v (',' :: itemsOnto (w :: more) rest)
    have hmore := need_le_width_itemsOnto (w :: more) rest
    rw [width_cons] at hv
    rw [itemsOnto, itemsNeed]
    omega

theorem need_le_width_fieldsOnto : (fields : List (String × Value)) → (rest : List Char) →
    fieldsNeed fields + width rest ≤ width (fieldsOnto fields rest)
  | [], rest => by simp [fieldsOnto, fieldsNeed]
  | [(k, v)], rest => by
    have hv := need_le_width_onto v rest
    simp only [fieldsOnto, fieldsNeed, width_textOnto, width_cons]
    omega
  | (k, v) :: w :: more, rest => by
    have hv := need_le_width_onto v (',' :: fieldsOnto (w :: more) rest)
    have hmore := need_le_width_fieldsOnto (w :: more) rest
    rw [width_cons] at hv
    rw [fieldsOnto, fieldsNeed, width_textOnto, width_cons]
    omega

end

theorem need_le_length_toBytes_chars (v : Value) : v.need ≤ (toBytes v.chars).length := by
  have h := need_le_width_onto v []
  rwa [width_nil, Nat.add_zero] at h

theorem fieldsAllowance_append (fields more : List (String × Value)) :
    fieldsAllowance (fields ++ more) = fieldsAllowance fields + fieldsAllowance more := by
  induction fields with
  | nil => simp [fieldsAllowance]
  | cons field rest ih =>
    rw [List.cons_append, fieldsAllowance, fieldsAllowance, ih]
    omega

section Optional

variable {α : Type} {measure : α → Nat} {extra : Nat} {o : Option α}

theorem fieldsAllowance_present_le (key : String) (encode : α → Value)
    (le : ∀ a, o = some a → (encode a).allowance ≤ measure a + extra) :
    fieldsAllowance (present key encode o) ≤ spanIf measure o + extra + span key + 4 := by
  cases o with
  | none => exact Nat.zero_le _
  | some a =>
    have := le a rfl
    simp only [present, fieldsAllowance, spanIf_some]
    omega

/-- An optional field of a bounded value. -/
theorem fieldsAllowance_present_le_of_le (key : String) (encode : α → Value)
    (le : ∀ a, o = some a → (encode a).allowance ≤ extra) :
    fieldsAllowance (present key encode o) ≤ extra + span key + 4 := by
  cases o with
  | none => exact Nat.zero_le _
  | some a =>
    have := le a rfl
    simp only [present, fieldsAllowance]
    omega

theorem allowance_ofOption_le (encode : α → Value) (null : 4 ≤ extra)
    (le : ∀ a, o = some a → (encode a).allowance ≤ measure a + extra) :
    (ofOption encode o).allowance ≤ spanIf measure o + extra := by
  cases o with
  | none => simpa [ofOption, allowance] using null
  | some a => exact le a rfl

end Optional

theorem allowance_ofBinary64_le (x : Binary64) : (ofBinary64 x).allowance ≤ 800 := by
  unfold ofBinary64
  split
  · rename_i finite
    exact Nat.le_of_lt (Binary64.length_chars_lt finite)
  · decide

end Value
end Json
end Lectern
