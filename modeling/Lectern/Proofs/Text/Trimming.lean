import Lectern.Text.Blank
import Mathlib.Data.List.DropRight

/-!
# Trimmed texts

Trimming leaves what stands between the blank characters at both ends of a text. There is only
one such part: it has nothing but blank characters on either side, and none of its own at an end.
-/

namespace Lectern
namespace Text

variable {s t : String}

/-- Nothing but blank characters. -/
def Blank (s : String) : Prop := ∀ c ∈ s.toList, isBlank c = true

/-- No blank character at either end. -/
structure Tidy (s : String) : Prop where
  first : ∀ c, s.toList.head? = some c → isBlank c = false
  last : ∀ c, s.toList.getLast? = some c → isBlank c = false

/-- `core` is the text without the blank characters at its ends. -/
structure Trims (s core : String) : Prop where
  tidy : Tidy core
  around : ∃ before after : List Char, s.toList = before ++ core.toList ++ after ∧
    (∀ c ∈ before, isBlank c = true) ∧ ∀ c ∈ after, isBlank c = true

section Strip

variable {p : Char → Bool} {before core after cs : List Char}

theorem dropWhile_of_head (first : ∀ c, cs.head? = some c → p c = false) :
    cs.dropWhile p = cs := by
  cases cs with
  | nil => rfl
  | cons c cs => simp [first c rfl]

theorem strip_eq_rdropWhile (p : Char → Bool) (cs : List Char) :
    strip p cs = (cs.dropWhile p).rdropWhile p := rfl

theorem first_strip (p : Char → Bool) (cs : List Char) (c : Char)
    (h : (strip p cs).head? = some c) : p c = false := by
  have hdrop := List.head?_dropWhile_not p cs
  obtain ⟨rest, hrest⟩ := List.rdropWhile_prefix p (cs.dropWhile p)
  rw [← hrest, List.head?_append, ← strip_eq_rdropWhile, h] at hdrop
  exact hdrop

theorem last_strip (p : Char → Bool) (cs : List Char) (c : Char)
    (h : (strip p cs).getLast? = some c) : p c = false := by
  have hdrop := List.head?_dropWhile_not p (cs.dropWhile p).reverse
  rw [strip, List.getLast?_reverse] at h
  rw [h] at hdrop
  exact hdrop

/-- What is stripped off has the property. -/
theorem exists_strip (p : Char → Bool) (cs : List Char) :
    ∃ before after, cs = before ++ strip p cs ++ after ∧ (∀ c ∈ before, p c = true) ∧
      ∀ c ∈ after, p c = true := by
  refine ⟨cs.takeWhile p, (cs.dropWhile p).rtakeWhile p, ?_, ?_, ?_⟩
  · rw [strip_eq_rdropWhile, List.append_assoc, List.rdropWhile_append_rtakeWhile,
      List.takeWhile_append_dropWhile]
  · exact fun c hc => List.mem_takeWhile_imp hc
  · exact fun c hc => List.mem_rtakeWhile_imp hc

theorem strip_around (first : ∀ c, core.head? = some c → p c = false)
    (last : ∀ c, core.getLast? = some c → p c = false)
    (hbefore : ∀ c ∈ before, p c = true) (hafter : ∀ c ∈ after, p c = true) :
    strip p (before ++ core ++ after) = core := by
  have hfront : (before ++ core ++ after).dropWhile p = (core ++ after).dropWhile p := by
    rw [List.append_assoc, List.dropWhile_append_of_pos hbefore]
  cases core with
  | nil =>
    have hnone : after.dropWhile p = [] := List.dropWhile_eq_nil_iff.mpr hafter
    rw [strip, hfront, List.nil_append, hnone]
    rfl
  | cons c cs =>
    have hback : ((c :: cs) ++ after).reverse.dropWhile p = (c :: cs).reverse := by
      rw [List.reverse_append, List.dropWhile_append_of_pos (by simpa using hafter)]
      exact dropWhile_of_head fun d hd => last d (by rwa [List.head?_reverse] at hd)
    have hkept : ((c :: cs) ++ after).dropWhile p = (c :: cs) ++ after :=
      dropWhile_of_head (by simpa using first)
    rw [strip, hfront, hkept, hback, List.reverse_reverse]

end Strip

theorem toList_trim (s : String) : (trim s).toList = strip isBlank s.toList := by
  simp [trim, trimChars]

theorem tidy_trim (s : String) : Tidy (trim s) where
  first c hc := first_strip _ _ c (by rwa [toList_trim] at hc)
  last c hc := last_strip _ _ c (by rwa [toList_trim] at hc)

theorem trims_trim (s : String) : Trims s (trim s) :=
  ⟨tidy_trim s, by rw [toList_trim]; exact exists_strip _ _⟩

theorem trims_iff : Trims s t ↔ trim s = t := by
  constructor
  · rintro ⟨⟨first, last⟩, before, after, hs, hbefore, hafter⟩
    refine String.toList_inj.mp ?_
    rw [toList_trim, hs, strip_around first last hbefore hafter]
  · rintro rfl
    exact trims_trim s

theorem Tidy.trims (tidy : Tidy s) : Trims s s := ⟨tidy, [], [], by simp⟩

theorem tidy_iff : Tidy s ↔ trim s = s :=
  ⟨fun tidy => trims_iff.mp tidy.trims, fun h => h ▸ tidy_trim s⟩

theorem trim_eq_empty_iff : trim s = "" ↔ Blank s := by
  constructor
  · intro h c hc
    obtain ⟨-, before, after, hs, hbefore, hafter⟩ := trims_iff.mpr h
    rw [hs] at hc
    rcases List.mem_append.mp hc with hc | hc
    · exact hbefore c (by simpa using hc)
    · exact hafter c hc
  · intro h
    exact trims_iff.mp ⟨⟨by simp, by simp⟩, s.toList, [], by simp, h, by simp⟩

theorem content?_eq_some_iff : content? s = some t ↔ Trims s t ∧ t ≠ "" := by
  rw [trims_iff]
  simp only [content?, String.isEmpty_iff]
  split_ifs with hempty
  · simp only [false_iff, not_and, not_not]
    rintro rfl
    exact hempty
  · simp only [Option.some.injEq]
    constructor
    · rintro rfl
      exact ⟨rfl, hempty⟩
    · exact And.left

theorem content?_eq_none_iff : content? s = none ↔ Blank s := by
  rw [← trim_eq_empty_iff]
  simp [content?]

/-- What trimming leaves of a text that may be missing: nothing of one that is missing or blank. -/
inductive Leaves : Option String → Option String → Prop
  | missing : Leaves none none
  | blank {s : String} : Blank s → Leaves (some s) none
  | trimmed {s t : String} : Trims s t → t ≠ "" → Leaves (some s) (some t)

theorem leaves_iff {o t : Option String} : Leaves o t ↔ o.bind content? = t := by
  constructor
  · intro h
    cases h with
    | missing => rfl
    | blank hblank => rw [Option.bind_some, content?_eq_none_iff.mpr hblank]
    | trimmed htrims hne => rw [Option.bind_some, content?_eq_some_iff.mpr ⟨htrims, hne⟩]
  · rintro rfl
    cases o with
    | none => exact .missing
    | some s =>
      rw [Option.bind_some]
      cases h : content? s with
      | none => exact .blank (content?_eq_none_iff.mp h)
      | some t =>
        obtain ⟨htrims, hne⟩ := content?_eq_some_iff.mp h
        exact .trimmed htrims hne

theorem leaves_some_iff {t : Option String} : Leaves (some s) t ↔ content? s = t := by
  rw [leaves_iff, Option.bind_some]

theorem Leaves.ne_empty {o : Option String} (h : Leaves o (some t)) : t ≠ "" := by
  cases h with
  | trimmed _ nonempty => exact nonempty

/-- What is left is left as it is. -/
theorem Leaves.again {o t : Option String} (h : Leaves o t) : Leaves t t := by
  cases h with
  | missing => exact .missing
  | blank _ => exact .missing
  | trimmed htrims nonempty => exact .trimmed htrims.tidy.trims nonempty

theorem Leaves.bind_content?_eq {o t : Option String} (h : Leaves o t) :
    t.bind content? = o.bind content? := by
  rw [leaves_iff.mp h, leaves_iff.mp h.again]

theorem Leaves.trim_getD_eq {o t : Option String} (h : Leaves o t) :
    trim (t.getD "") = trim (o.getD "") := by
  cases h with
  | missing => rfl
  | blank hblank =>
    rw [Option.getD_some, trim_eq_empty_iff.mpr hblank]
    rfl
  | trimmed htrims _ =>
    rw [Option.getD_some, Option.getD_some, trims_iff.mp htrims, tidy_iff.mp htrims.tidy]

end Text
end Lectern
