import Lectern.Json.Node

/-!
# Numerals and their texts

Every integer and every double is written as the text of a numeral without superfluous
zeros in front. Such a text is read as that numeral again, whatever follows that could not
be part of it.
-/

namespace Lectern
namespace Json

section Digits

theorem head?_append_of_ne_nil {ds : List Char} (h : ds ≠ []) (rest : List Char) :
    (ds ++ rest).head? = ds.head? := by
  cases ds with
  | nil => exact absurd rfl h
  | cons d ds => rfl

/-- The digits of a number other than zero do not begin with a zero. -/
theorem head?_toDigits_ne_zero {n : Nat} (h : n ≠ 0) : (Nat.toDigits 10 n).head? ≠ some '0' := by
  induction n using Nat.strongRecOn with
  | ind n ih =>
    by_cases hn : n < 10
    · rw [Nat.toDigits_of_lt_base hn]
      simp [Nat.digitChar_eq_zero, h]
    · rw [Nat.toDigits_of_base_le (by decide) (by omega),
        head?_append_of_ne_nil Nat.toDigits_ne_nil]
      exact ih (n / 10) (by omega) (by omega)

theorem isDigit_of_mem_toDigits {n : Nat} {c : Char} (h : c ∈ Nat.toDigits 10 n) :
    c.isDigit = true := Nat.isDigit_of_mem_toDigits (by decide) (by decide) h

theorem isDigit_of_mem_replicate {k : Nat} {c : Char} (h : c ∈ List.replicate k '0') :
    c.isDigit = true := by
  rw [List.eq_of_mem_replicate h]
  rfl

end Digits

/-- What follows is not part of a numeral. -/
def EndsNumeral (rest : List Char) : Prop :=
  ∀ c, rest.head? = some c → c.isDigit = false ∧ c ≠ '.' ∧ c ≠ 'e' ∧ c ≠ 'E'

namespace Numeral

def fractionChars : List Char → List Char
  | [] => []
  | ds => '.' :: ds

def exponentChars : Option Int → List Char
  | none => []
  | some e => 'e' :: (if e < 0 then '-' else '+') :: Nat.toDigits 10 e.natAbs

def chars (n : Numeral) : List Char :=
  (if n.negative then ['-'] else []) ++
    (n.whole ++ (fractionChars n.fraction ++ exponentChars n.exponent))

/-- There are digits before the point, and a zero in front of them stands alone. -/
structure Proper (n : Numeral) : Prop where
  whole_ne_nil : n.whole ≠ []
  whole_digits : ∀ c ∈ n.whole, c.isDigit = true
  whole_zero : n.whole.head? = some '0' → n.whole = ['0']
  fraction_digits : ∀ c ∈ n.fraction, c.isDigit = true

def ofInt (n : Int) : Numeral := ⟨decide (n < 0), Nat.toDigits 10 n.natAbs, [], none⟩

theorem proper_ofInt (n : Int) : (ofInt n).Proper where
  whole_ne_nil := Nat.toDigits_ne_nil
  whole_digits _ hc := isDigit_of_mem_toDigits hc
  whole_zero hzero := by
    by_cases hn : n.natAbs = 0
    · simp [ofInt, hn]
    · exact absurd hzero (head?_toDigits_ne_zero hn)
  fraction_digits := by simp [ofInt]

theorem chars_ofInt (n : Int) : (ofInt n).chars = Value.intChars n := by
  simp [chars, ofInt, Value.intChars, fractionChars, exponentChars]

/-- Integers of sixty-four bits, signed or unsigned, keep their value. -/
theorem value?_ofInt {n : Int} (least : -(1 <<< 63 : Nat) ≤ n) (greatest : n < UInt64.size) :
    (ofInt n).value? = some (.int n) := by
  have hdigits : (ofInt n).digits = n.natAbs := by
    simp [digits, ofInt, Nat.ofDigitChars_toDigits]
  have hwhole : (ofInt n).isWhole = true := rfl
  have hnegative : (ofInt n).negative = decide (n < 0) := rfl
  have hshift : (1 <<< 63 : Nat) = 2 ^ 63 := by decide
  unfold value?
  simp only [hdigits, hwhole, hnegative, UInt64.size] at *
  by_cases hn : n < 0
  · rw [if_neg (by simp [hn]), if_pos (by simp [hn]; omega)]
    congr 2
    omega
  · rw [if_pos (by simp [hn]; omega)]
    congr 2
    omega

end Numeral

namespace Node

section Read

variable {ds rest : List Char}

theorem takeWhile_digits (digits : ∀ c ∈ ds, c.isDigit = true)
    (stop : ∀ c, rest.head? = some c → c.isDigit = false) :
    (ds ++ rest).takeWhile Char.isDigit = ds := by
  rw [List.takeWhile_append_of_pos digits]
  cases rest with
  | nil => simp
  | cons c rest => simp [stop c rfl]

theorem dropWhile_digits (digits : ∀ c ∈ ds, c.isDigit = true)
    (stop : ∀ c, rest.head? = some c → c.isDigit = false) :
    (ds ++ rest).dropWhile Char.isDigit = rest := by
  rw [List.dropWhile_append_of_pos digits]
  cases rest with
  | nil => simp
  | cons c rest => simp [stop c rfl]

theorem readDigits_append (ne : ds ≠ []) (digits : ∀ c ∈ ds, c.isDigit = true)
    (stop : ∀ c, rest.head? = some c → c.isDigit = false) :
    readDigits (ds ++ rest) = some (ds, rest) := by
  unfold readDigits
  rw [takeWhile_digits digits stop, dropWhile_digits digits stop]
  cases ds with
  | nil => exact absurd rfl ne
  | cons d ds => rfl

theorem readWhole_append {n : Numeral} (proper : n.Proper)
    (stop : ∀ c, rest.head? = some c → c.isDigit = false) :
    readWhole (n.whole ++ rest) = some (n.whole, rest) := by
  by_cases hzero : n.whole = ['0']
  · rw [hzero]
    rfl
  · obtain ⟨d, ds, hd⟩ := List.exists_cons_of_ne_nil proper.whole_ne_nil
    have hne : d ≠ '0' := fun h => hzero (proper.whole_zero (by rw [hd, h]; rfl))
    have hread := readDigits_append proper.whole_ne_nil proper.whole_digits stop
    rw [hd, List.cons_append] at hread ⊢
    unfold readWhole
    split
    · rename_i heq
      cases heq
      exact absurd rfl hne
    · exact hread

theorem head?_fractionChars (ds rest : List Char) :
    (Numeral.fractionChars ds ++ rest).head? = if ds = [] then rest.head? else some '.' := by
  cases ds <;> simp [Numeral.fractionChars]

theorem head?_exponentChars (e : Option Int) (rest : List Char) :
    (Numeral.exponentChars e ++ rest).head? = if e.isSome then some 'e' else rest.head? := by
  cases e <;> simp [Numeral.exponentChars]

theorem readFraction_append (digits : ∀ c ∈ ds, c.isDigit = true)
    (stop : ∀ c, rest.head? = some c → c.isDigit = false ∧ c ≠ '.') :
    readFraction (Numeral.fractionChars ds ++ rest) = some (ds, rest) := by
  cases ds with
  | nil =>
    cases rest with
    | nil => rfl
    | cons c rest =>
      have hne := (stop c rfl).2
      simp only [Numeral.fractionChars, List.nil_append]
      unfold readFraction
      split
      · rename_i heq
        cases heq
        exact absurd rfl hne
      · rfl
  | cons d ds =>
    have hread := readDigits_append (List.cons_ne_nil d ds) digits fun c hc => (stop c hc).1
    simpa [Numeral.fractionChars, readFraction] using hread

theorem readExponent_append (e : Option Int) (stop : EndsNumeral rest) :
    readExponent (Numeral.exponentChars e ++ rest) = some (e, rest) := by
  cases e with
  | none =>
    cases rest with
    | nil => rfl
    | cons c rest =>
      obtain ⟨-, -, he, hE⟩ := stop c rfl
      simp [Numeral.exponentChars, readExponent, he, hE]
  | some e =>
    have hread := readDigits_append (Nat.toDigits_ne_nil (b := 10) (n := e.natAbs))
      (fun c hc => isDigit_of_mem_toDigits hc) fun c hc => (stop c hc).1
    have hvalue : digitsValue (Nat.toDigits 10 e.natAbs) = e.natAbs := by
      simp [digitsValue, Nat.ofDigitChars_toDigits]
    by_cases he : e < 0
    · have hsigned : -(digitsValue (Nat.toDigits 10 e.natAbs) : Int) = e := by
        rw [hvalue]
        omega
      simp [Numeral.exponentChars, readExponent, he, hread, hsigned]
    · have hsigned : (digitsValue (Nat.toDigits 10 e.natAbs) : Int) = e := by
        rw [hvalue]
        omega
      simp [Numeral.exponentChars, readExponent, he, hread, hsigned]

/-- The text of a proper numeral is read as that numeral. -/
theorem readNumber_append {n : Numeral} (proper : n.Proper) (stop : EndsNumeral rest) :
    readNumber (n.chars ++ rest) = some (n, rest) := by
  have hexponent := readExponent_append n.exponent stop
  have hfraction : readFraction (Numeral.fractionChars n.fraction ++
      (Numeral.exponentChars n.exponent ++ rest)) =
      some (n.fraction, Numeral.exponentChars n.exponent ++ rest) := by
    refine readFraction_append proper.fraction_digits ?_
    intro c hc
    rw [head?_exponentChars] at hc
    split at hc
    · cases hc
      decide
    · exact ⟨(stop c hc).1, (stop c hc).2.1⟩
  have hwhole : readWhole (n.whole ++ (Numeral.fractionChars n.fraction ++
      (Numeral.exponentChars n.exponent ++ rest))) =
      some (n.whole, Numeral.fractionChars n.fraction ++
        (Numeral.exponentChars n.exponent ++ rest)) := by
    refine readWhole_append proper ?_
    intro c hc
    rw [head?_fractionChars, head?_exponentChars] at hc
    split at hc
    · split at hc
      · cases hc
        decide
      · exact (stop c hc).1
    · cases hc
      decide
  have hunsigned (negative : Bool) :
      readUnsigned negative (n.whole ++
        (Numeral.fractionChars n.fraction ++ (Numeral.exponentChars n.exponent ++ rest))) =
        some ({ n with negative }, rest) := by
    simp [readUnsigned, hwhole, hfraction, hexponent]
  obtain ⟨d, ds, hd⟩ := List.exists_cons_of_ne_nil proper.whole_ne_nil
  have hsign : d ≠ '-' := by
    rintro rfl
    have := proper.whole_digits '-' (by simp [hd])
    revert this
    decide
  cases hn : n.negative with
  | true =>
    have := hunsigned true
    simp only [Numeral.chars, hn, if_true, List.append_assoc, List.cons_append, List.nil_append]
    rw [readNumber, this, ← hn]
  | false =>
    have := hunsigned false
    simp only [Numeral.chars, hn, Bool.false_eq_true, if_false, List.append_assoc,
      List.nil_append]
    rw [hd, List.cons_append] at this ⊢
    unfold readNumber
    split
    · rename_i heq
      cases heq
      exact absurd rfl hsign
    · rw [this, ← hd, ← hn]

end Read

end Node
end Json

namespace Binary64

open Json

theorem significand_ne_zero {magnitude : Nat} (h : magnitude ≠ 0) : significand magnitude ≠ 0 := by
  unfold significand
  split
  · exact h
  · simp only [Nat.shiftLeft_eq]
    omega

theorem exactDecimal_ne_zero {magnitude : Nat} (h : magnitude ≠ 0) :
    (exactDecimal magnitude).1 ≠ 0 := by
  have hs := significand_ne_zero h
  simp only [exactDecimal]
  split
  · rw [Nat.shiftLeft_eq]
    exact Nat.mul_ne_zero hs (Nat.ne_of_gt (Nat.two_pow_pos _))
  · exact Nat.mul_ne_zero hs (Nat.ne_of_gt (Nat.pow_pos (by decide)))

theorem ne_zero_of_nearestCut {magnitude cut rest unit digits : Nat} {scale : Int}
    (h : magnitude ≠ 0) (found : nearestCut magnitude cut scale rest unit = some digits) :
    digits ≠ 0 := by
  have hzero : cut = 0 → decimalMagnitude cut scale ≠ magnitude := by
    rintro rfl
    simpa [decimalMagnitude] using h.symm
  simp only [nearestCut] at found
  split at found
  · rename_i hboth
    simp only [Bool.and_eq_true, beq_iff_eq] at hboth
    have hcut : cut ≠ 0 := fun h0 => hzero h0 hboth.1
    cases found
    split <;> omega
  · split at found
    · rename_i hdown
      cases found
      exact fun h0 => hzero h0 (by simpa using hdown)
    · split at found
      · cases found
        omega
      · cases found

theorem stripZeros_ne_zero (fuel : Nat) {digits : Nat} (scale : Int) (h : digits ≠ 0) :
    (stripZeros fuel digits scale).1 ≠ 0 := by
  induction fuel generalizing digits scale with
  | zero => exact h
  | succ fuel ih =>
    unfold stripZeros
    split
    · exact ih _ (by omega)
    · exact h

theorem shortest_ne_zero {magnitude : Nat} (h : magnitude ≠ 0) : (shortest magnitude).1 ≠ 0 := by
  simp only [shortest]
  refine stripZeros_ne_zero _ _ ?_
  cases hfound : List.findSome? _ _ with
  | none => exact exactDecimal_ne_zero h
  | some found =>
    obtain ⟨i, -, hi⟩ := List.exists_of_findSome?_eq_some hfound
    obtain ⟨cut, hcut, rfl⟩ := Option.map_eq_some_iff.mp hi
    exact ne_zero_of_nearestCut h hcut

/-- The numeral of a decimal, with the point where the text has it. -/
def numeralOf (negative : Bool) (digits : Nat) (scale : Int) : Numeral :=
  let ds := Nat.toDigits 10 digits
  let point : Int := ds.length + scale
  if 0 ≤ scale ∧ point ≤ 16 then
    ⟨negative, ds ++ List.replicate scale.toNat '0', ['0'], none⟩
  else if 0 < point ∧ point ≤ 16 then ⟨negative, ds.take point.toNat, ds.drop point.toNat, none⟩
  else if -5 < point ∧ point ≤ 0 then
    ⟨negative, ['0'], List.replicate (-point).toNat '0' ++ ds, none⟩
  else ⟨negative, ds.take 1, ds.drop 1, some (point - 1)⟩

/-- The numeral that a double is written as. -/
def numeral (x : Binary64) : Numeral :=
  if x.magnitude = 0 then ⟨x.negative, ['0'], ['0'], none⟩
  else numeralOf x.negative (shortest x.magnitude).1 (shortest x.magnitude).2

theorem chars_numeralOf (negative : Bool) (digits : Nat) (scale : Int) :
    (numeralOf negative digits scale).chars =
      (if negative then ['-'] else []) ++ layout digits scale := by
  have hne : Nat.toDigits 10 digits ≠ [] := Nat.toDigits_ne_nil
  unfold numeralOf layout Numeral.chars
  simp only
  split
  · simp [Numeral.fractionChars, Numeral.exponentChars]
  · split
    · rename_i hscale hpoint
      have hdrop : (Nat.toDigits 10 digits).drop
          ((Nat.toDigits 10 digits).length + scale).toNat ≠ [] := by
        rw [ne_eq, List.drop_eq_nil_iff]
        omega
      obtain ⟨d, ds, hd⟩ := List.exists_cons_of_ne_nil hdrop
      simp [hd, Numeral.fractionChars, Numeral.exponentChars]
    · split
      · simp [Numeral.fractionChars, Numeral.exponentChars]
      · match hds : Nat.toDigits 10 digits with
        | [] => exact absurd hds hne
        | [d] => simp [Numeral.fractionChars, Numeral.exponentChars]
        | d :: d' :: ds => simp [Numeral.fractionChars, Numeral.exponentChars]

theorem chars_numeral (x : Binary64) : x.numeral.chars = x.chars := by
  unfold numeral chars
  split
  · simp [Numeral.chars, Numeral.fractionChars, Numeral.exponentChars]
  · exact chars_numeralOf _ _ _

theorem proper_numeralOf (negative : Bool) {digits : Nat} (scale : Int) (h : digits ≠ 0) :
    (numeralOf negative digits scale).Proper := by
  have hne : Nat.toDigits 10 digits ≠ [] := Nat.toDigits_ne_nil
  have hzero := head?_toDigits_ne_zero h
  have hdigits (c : Char) : c ∈ Nat.toDigits 10 digits → c.isDigit = true :=
    isDigit_of_mem_toDigits
  unfold numeralOf
  simp only
  split
  · refine ⟨by simp [hne], ?_, ?_, by simp⟩
    · intro c hc
      rcases List.mem_append.mp hc with hc | hc
      · exact hdigits c hc
      · exact isDigit_of_mem_replicate hc
    · intro hhead
      rw [head?_append_of_ne_nil hne] at hhead
      exact absurd hhead hzero
  · split
    · rename_i hpoint
      have htake : 0 < ((Nat.toDigits 10 digits).length + scale).toNat := by omega
      refine ⟨?_, fun c hc => hdigits c (List.mem_of_mem_take hc), ?_,
        fun c hc => hdigits c (List.mem_of_mem_drop hc)⟩
      · simp only [ne_eq, List.take_eq_nil_iff, not_or]
        exact ⟨by omega, hne⟩
      · intro hhead
        rw [List.head?_take, if_neg (by omega)] at hhead
        exact absurd hhead hzero
    · split
      · refine ⟨by simp, by simp, fun _ => rfl, ?_⟩
        intro c hc
        rcases List.mem_append.mp hc with hc | hc
        · exact isDigit_of_mem_replicate hc
        · exact hdigits c hc
      · refine ⟨by simp [hne], fun c hc => hdigits c (List.mem_of_mem_take hc), ?_,
          fun c hc => hdigits c (List.mem_of_mem_drop hc)⟩
        intro hhead
        rw [List.head?_take, if_neg (by omega)] at hhead
        exact absurd hhead hzero

theorem proper_numeral (x : Binary64) : x.numeral.Proper := by
  unfold numeral
  split
  · exact ⟨by simp, by simp, fun _ => rfl, by simp⟩
  · rename_i h
    exact proper_numeralOf _ _ (shortest_ne_zero h)

/-- The text of a double has a point or an exponent. -/
theorem isWhole_numeral (x : Binary64) : x.numeral.isWhole = false := by
  unfold numeral numeralOf Numeral.isWhole
  simp only
  split
  · rfl
  · split
    · rfl
    · split
      · simp only [Option.isNone_none, Bool.and_true, List.isEmpty_eq_false_iff, ne_eq,
          List.drop_eq_nil_iff]
        omega
      · split
        · simp [Nat.toDigits_ne_nil]
        · simp

end Binary64
end Lectern
