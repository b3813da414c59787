import Lectern.Proofs.Json.Decoding

/-!
# What decoders accept

Whatever a decoder makes of a node, the type it decodes can hold: whole numbers are within
their bounds, doubles are finite, also those written without a point, and a variant is one
of the known ones.
-/

namespace Lectern

namespace Binary64

theorem roundDiv_le (n d : Nat) : roundDiv n d ≤ n / d + 1 := by
  simp only [roundDiv]
  split <;> omega

/-- Whole numbers of sixty-four bits are far below infinity. -/
theorem nearestMagnitude_lt {num : Nat} (h : num < UInt64.size) :
    nearestMagnitude num 1 < infinity := by
  unfold nearestMagnitude
  split
  · decide
  · rename_i hne
    have hlog : num < 2 ^ (num.log2 + 1) := Nat.lt_log2_self
    have hlog64 : num.log2 < 64 := (Nat.log2_lt hne).mpr h
    obtain ⟨e, he, hlow, hhigh⟩ : ∃ e, scaleOf num 1 = e ∧ (num.log2 : Int) - 53 ≤ e ∧
        e ≤ num.log2 - 52 := by
      refine ⟨_, rfl, ?_, ?_⟩
      all_goals
        have hone : Nat.log2 1 = 0 := by decide
        simp only [scaleOf, hone]
        split <;> omega
    have hquot : (num <<< (-e).toNat) / (1 <<< e.toNat) < 2 ^ 54 := by
      rw [Nat.shiftLeft_eq, Nat.one_shiftLeft]
      refine Nat.div_lt_of_lt_mul ?_
      rcases Int.le_total 0 e with h0 | h0
      · have hzero : (-e).toNat = 0 := by omega
        rw [hzero, Nat.pow_zero, Nat.mul_one, ← Nat.pow_add]
        exact Nat.lt_of_lt_of_le hlog (Nat.pow_le_pow_right (by decide) (by omega))
      · have hzero : e.toNat = 0 := by omega
        rw [hzero, Nat.pow_zero, Nat.one_mul]
        calc num * 2 ^ (-e).toNat < 2 ^ (num.log2 + 1) * 2 ^ (-e).toNat :=
              Nat.mul_lt_mul_of_pos_right hlog (Nat.two_pow_pos _)
          _ = 2 ^ (num.log2 + 1 + (-e).toNat) := (Nat.pow_add _ _ _).symm
          _ ≤ 2 ^ 54 := Nat.pow_le_pow_right (by decide) (by omega)
    have hround := roundDiv_le (num <<< (-e).toNat) (1 <<< e.toNat)
    have hshift : (e + 1074).toNat <<< 52 ≤ 1085 <<< 52 := by
      rw [Nat.shiftLeft_eq, Nat.shiftLeft_eq]
      exact Nat.mul_le_mul_right _ (by omega)
    have hsum : (1085 <<< 52 : Nat) + 2 ^ 54 + 1 < infinity := by decide
    simp only [he]
    omega

theorem isFinite_ofInt {n : Int} (h : n.natAbs < UInt64.size) : (ofInt n).isFinite = true := by
  have hmagnitude : decimalMagnitude n.natAbs 0 < infinity := by
    unfold decimalMagnitude
    split
    · decide
    · rw [if_neg (by decide), if_neg (by omega)]
      have hone : n.natAbs * Nat.pow 10 (0 : Int).toNat = n.natAbs := Nat.mul_one _
      rw [hone]
      exact nearestMagnitude_lt h
  exact decide_eq_true hmagnitude

end Binary64

namespace Json

variable {α β : Type} {a : Access} {n : Node}

theorem Numeral.value?_cases {m : Numeral} {v : Value} (h : m.value? = some v) :
    (∃ i, v = .int i ∧ i.natAbs < UInt64.size) ∨ ∃ x, v = .float x ∧ x.isFinite = true := by
  have hbound : (1 <<< 63 : Nat) < UInt64.size := by decide
  simp only [value?] at h
  split at h
  · rename_i hwhole
    simp only [Bool.and_eq_true, decide_eq_true_eq] at hwhole
    cases h
    exact .inl ⟨_, rfl, by simpa using hwhole.2⟩
  · split at h
    · rename_i hwhole
      simp only [Bool.and_eq_true, decide_eq_true_eq] at hwhole
      cases h
      exact .inl ⟨_, rfl, by simpa using Nat.lt_of_le_of_lt hwhole.2 hbound⟩
    · split at h
      · rename_i hfinite
        cases h
        exact .inr ⟨_, rfl, hfinite⟩
      · cases h

namespace Decoder

theorem map_eq_some {f : α → β} {d : Decoder α} {y : β} (h : map f d a n = some y) :
    ∃ x, d a n = some x ∧ f x = y := Option.map_eq_some_iff.mp h

theorem int_bounds {least greatest i : Int} (h : int least greatest a n = some i) :
    least ≤ i ∧ i ≤ greatest := by
  unfold int at h
  split at h
  · split at h
    · split at h
      · rename_i bounds
        cases h
        exact bounds
      · cases h
    · cases h
  · cases h

theorem isInt64_of_int64 {i : Int} (h : int64 a n = some i) : IsInt64 i := int_bounds h

theorem lt_size_of_nat {k : Nat} (h : nat 64 a n = some k) : k < UInt64.size := by
  obtain ⟨i, hi, rfl⟩ := map_eq_some h
  have hsize : ((1 <<< 64 : Nat) : Int) = UInt64.size := rfl
  obtain ⟨least, greatest⟩ := int_bounds hi
  omega

theorem isFinite_of_float {x : Binary64} (h : float a n = some x) : x.isFinite = true := by
  unfold float at h
  split at h
  · rename_i m
    cases hv : m.value? with
    | none => simp [hv] at h
    | some v =>
      rcases Numeral.value?_cases hv with ⟨i, rfl, hi⟩ | ⟨y, rfl, hy⟩
      · simp only [hv, Option.some.injEq] at h
        exact h ▸ Binary64.isFinite_ofInt hi
      · simp only [hv, Option.some.injEq] at h
        exact h ▸ hy
  · cases h

theorem optional_eq_some {d : Decoder α} {x : α} (h : optional d a n = some (some x)) :
    d a n = some x := by
  cases n <;> simp_all [optional]

theorem choice_mem {names : List (String × α)} {x : α} (h : choice names a n = some x) :
    ∃ name, (name, x) ∈ names := by
  have hlookup {s : Option String} (h : (s.bind (List.lookup · names)) = some x) :
      ∃ name, (name, x) ∈ names := by
    obtain ⟨name, -, hname⟩ := Option.bind_eq_some_iff.mp h
    obtain ⟨before, after, rfl, -⟩ := List.lookup_eq_some_iff.mp hname
    exact ⟨name, by simp⟩
  unfold choice at h
  split at h
  · exact hlookup h
  · obtain ⟨b, -, h⟩ := Option.bind_eq_some_iff.mp h
    exact hlookup h
  · split at h
    · exact hlookup h
    · cases h
  · cases h

end Decoder

namespace Fields

variable {f : Fields} {name : String} {d : Decoder α} {x : α}

theorem required_eq_some (h : f.required name d = some x) : ∃ a n, d a n = some x := by
  obtain ⟨n, -, h⟩ := Option.bind_eq_some_iff.mp h
  exact ⟨_, n, h⟩

theorem optional_eq_some (h : f.optional name d = some (some x)) : ∃ a n, d a n = some x := by
  unfold optional defaulted at h
  split at h
  · exact ⟨_, _, Decoder.optional_eq_some h⟩
  · cases h

theorem beside_mem {tag carried : String} {names : List (String × α)} {c : Option Carried}
    (h : f.beside tag carried names = some (x, c)) : ∃ name, (name, x) ∈ names := by
  simp only [beside, Option.bind_eq_bind] at h
  obtain ⟨g, -, h⟩ := Option.bind_eq_some_iff.mp h
  split at h
  · split at h
    · obtain ⟨y, hy, h⟩ := Option.bind_eq_some_iff.mp h
      cases h
      exact Decoder.choice_mem hy
    · cases h
  · split at h
    · obtain ⟨y, hy, h⟩ := Option.bind_eq_some_iff.mp h
      cases h
      exact Decoder.choice_mem hy
    · split at h
      · obtain ⟨y, hy, h⟩ := Option.bind_eq_some_iff.mp h
        cases h
        exact Decoder.choice_mem hy
      · cases h
  · cases h

end Fields
end Json
end Lectern
