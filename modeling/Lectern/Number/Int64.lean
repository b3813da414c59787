/-!
# Numbers of sixty-four bits

Times and cursors are signed numbers of sixty-four bits. They are written as integers here, and
what is counted up beyond the last of them goes on from the first: whoever relies on a sum has to
know that it fits.
-/

namespace Lectern

/-- A signed integer of sixty-four bits. -/
def IsInt64 (n : Int) : Prop := -(1 <<< 63 : Nat) ≤ n ∧ n ≤ (1 <<< 63 : Nat) - 1

instance (n : Int) : Decidable (IsInt64 n) := inferInstanceAs (Decidable (_ ∧ _))

/-- What sixty-four bits hold of a number. -/
def wrap64 (n : Int) : Int := (Int64.ofInt n).toInt

theorem isInt64_iff {n : Int} :
    IsInt64 n ↔ -9223372036854775808 ≤ n ∧ n < 9223372036854775808 := by
  unfold IsInt64
  omega

theorem isInt64_zero : IsInt64 0 := by decide

theorem isInt64_toInt (x : Int64) : IsInt64 x.toInt := isInt64_iff.mpr ⟨x.le_toInt, x.toInt_lt⟩

theorem isInt64_wrap64 (n : Int) : IsInt64 (wrap64 n) := isInt64_toInt _

/-- What fits is held as it is. -/
theorem wrap64_of_isInt64 {n : Int} (h : IsInt64 n) : wrap64 n = n := by
  obtain ⟨low, high⟩ := isInt64_iff.mp h
  exact Int64.toInt_ofInt_of_le low high

namespace IsInt64

variable {m n : Int}

theorem max (hm : IsInt64 m) (hn : IsInt64 n) : IsInt64 (max m n) := by
  rcases Int.le_total m n with h | h
  · rwa [Int.max_eq_right h]
  · rwa [Int.max_eq_left h]

theorem natAbs_le (h : IsInt64 n) : n.natAbs ≤ 9223372036854775808 := by
  have := isInt64_iff.mp h
  omega

end IsInt64
end Lectern
