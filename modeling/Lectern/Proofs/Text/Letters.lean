import Lectern.Proofs.Text.Trimming

/-!
# The case of letters

The letters are the fifty-two of ASCII, and only they have a case. It makes no difference to what
counts as blank, so a text in small letters is trimmed as the text is.
-/

namespace Lectern
namespace Text

variable {c d : Char} {cs : List Char} {p : Char → Bool} {f : Char → Char}

theorem isBlank_of_printable (least : 0x21 ≤ c.toNat) (greatest : c.toNat ≤ 0x7e) :
    isBlank c = false := by
  simp only [isBlank, Bool.or_eq_false_iff, Bool.and_eq_false_iff, decide_eq_false_iff_not,
    beq_eq_false_iff_ne]
  omega

theorem isAlpha_iff : c.isAlpha = true ↔
    (65 ≤ c.toNat ∧ c.toNat ≤ 90) ∨ (97 ≤ c.toNat ∧ c.toNat ≤ 122) := by
  change (decide ('A'.val ≤ c.val ∧ c.val ≤ 'Z'.val) ||
    (decide ('a'.val ≤ c.val) && decide (c.val ≤ 'z'.val))) = true ↔ _
  simp only [Bool.or_eq_true, Bool.and_eq_true, decide_eq_true_eq, UInt32.le_iff_toNat_le]
  rfl

/-- Only letters have a case. -/
theorem toLower_eq_or_isAlpha (c : Char) :
    c.toLower = c ∨ c.isAlpha = true ∧ c.toLower.isAlpha = true := by
  by_cases hupper : 'A'.val ≤ c.val ∧ c.val ≤ 'Z'.val
  · have hlower : c.toLower = _ := dif_pos hupper
    have least : 65 ≤ c.toNat := UInt32.le_iff_toNat_le.mp hupper.1
    have greatest : c.toNat ≤ 90 := UInt32.le_iff_toNat_le.mp hupper.2
    have hvalue : c.toLower.toNat = c.toNat + 32 := by
      rw [hlower]
      change (c.val + 32).toNat = _
      rw [UInt32.toNat_add]
      change (c.toNat + 32) % 2 ^ 32 = _
      omega
    rw [isAlpha_iff, isAlpha_iff, hvalue]
    omega
  · exact .inl (dif_neg hupper)

theorem isAlpha_toLower (c : Char) : c.toLower.isAlpha = c.isAlpha := by
  rcases toLower_eq_or_isAlpha c with hc | ⟨hc, hlower⟩
  · rw [hc]
  · rw [hc, hlower]

theorem toLower_of_not_isAlpha (h : c.isAlpha = false) : c.toLower = c := by
  rcases toLower_eq_or_isAlpha c with hc | ⟨hc, -⟩
  · exact hc
  · rw [h] at hc
    cases hc

theorem toLower_eq_iff (h : d.isAlpha = false) : c.toLower = d ↔ c = d := by
  constructor
  · rintro rfl
    exact (toLower_of_not_isAlpha (isAlpha_toLower c ▸ h)).symm
  · rintro rfl
    exact toLower_of_not_isAlpha h

theorem isBlank_of_isAlpha (h : c.isAlpha = true) : isBlank c = false := by
  rw [isAlpha_iff] at h
  exact isBlank_of_printable (by omega) (by omega)

theorem isBlank_toLower (c : Char) : isBlank c.toLower = isBlank c := by
  rcases toLower_eq_or_isAlpha c with hc | ⟨hc, hlower⟩
  · rw [hc]
  · rw [isBlank_of_isAlpha hc, isBlank_of_isAlpha hlower]

theorem strip_map (h : ∀ c, p (f c) = p c) : strip p (cs.map f) = (strip p cs).map f := by
  have hp : p ∘ f = p := funext h
  rw [strip, List.dropWhile_map, hp, ← List.map_reverse, List.dropWhile_map, hp,
    ← List.map_reverse, strip]

theorem trimChars_toLower (cs : List Char) :
    trimChars (cs.map Char.toLower) = (trimChars cs).map Char.toLower :=
  strip_map isBlank_toLower

theorem toList_toLower (s : String) : s.toLower.toList = s.toList.map Char.toLower :=
  String.toList_map

theorem content?_toLower (s : String) : content? s.toLower = (content? s).map String.toLower := by
  have htrim : trim s.toLower = (trim s).toLower := by
    rw [← String.toList_inj, toList_trim, toList_toLower, toList_toLower, toList_trim]
    exact strip_map isBlank_toLower
  have hempty : (trim s).toLower.isEmpty = (trim s).isEmpty := by
    rw [Bool.eq_iff_iff, String.isEmpty_iff, String.isEmpty_iff, ← String.toList_inj,
      toList_toLower]
    simp
  simp only [content?, htrim, hempty]
  split_ifs
  · rfl
  · rfl

end Text
end Lectern
