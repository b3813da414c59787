import Lectern.Live

/-!
# Merging field by field

A patch mentions some of the fields of the live state. Merging it is merging its fields one
after another, except for the blank colours: the later of two requests ought to win, but when a
patch asks for both colours at once, each of them clears the other.
-/

namespace Lectern.Live

open Projection

namespace Patch

/-- The patch that mentions one field, if that has a value. -/
def mention {α : Type} (field : Option α → Patch) (value : Option α) : List Patch :=
  (value.map fun a => field (some a)).toList

/-- The fields that a patch mentions, each in a patch of its own, in the order in which a merge
reads them. -/
def fields (p : Patch) : List Patch :=
  mention (fun enabled => { enabled }) p.enabled ++
  mention (fun planId => { planId }) p.planId ++
  mention (fun cursor => { cursor }) p.cursor ++
  mention (fun black => { black }) p.black ++
  mention (fun white => { white }) p.white ++
  mention (fun locks => { locks }) p.locks ++
  mention (fun target => { target }) p.target

/-- Both blank colours are asked for. -/
def AsksBoth (p : Patch) : Prop := p.black = some true ∧ p.white = some true

instance (p : Patch) : Decidable p.AsksBoth := instDecidableAnd

end Patch

namespace State

variable {s : State} {p : Patch}

/-- The state after patches that are merged one after another. -/
def mergedAll (s : State) (patches : List Patch) : State := patches.foldl merged s

theorem mergedAll_append (s : State) (patches rest : List Patch) :
    s.mergedAll (patches ++ rest) = (s.mergedAll patches).mergedAll rest := List.foldl_append

theorem merged_nothing (cursor : 0 ≤ s.cursor) : s.merged {} = s := by
  have hcursor : max s.cursor 0 = s.cursor := Int.max_eq_left cursor
  simp [merged, hcursor]

/-- A field without a value is as good as one that is not mentioned. -/
theorem mergedAll_mention {α : Type} {field : Option α → Patch} (cursor : 0 ≤ s.cursor)
    (nothing : field none = {}) (value : Option α) :
    s.mergedAll (Patch.mention field value) = s.merged (field value) := by
  cases value with
  | none => rw [nothing, merged_nothing cursor]; rfl
  | some a => rfl

/-- The fields in turn come to the patch as a whole, but for the white colour: it is cleared by
the request for the black one and then set, where the whole patch sets it and then clears it. -/
theorem mergedAll_fields (cursor : 0 ≤ s.cursor) (p : Patch) :
    s.mergedAll p.fields =
      { s.merged p with white := p.white.getD (if p.black = some true then false else s.white) } := by
  have hmention {α : Type} (s : State) (q : Patch) (field : Option α → Patch)
      (nothing : field none = {}) (value : Option α) :
      (s.merged q).mergedAll (Patch.mention field value) = (s.merged q).merged (field value) :=
    mergedAll_mention (zero_le_cursor_merged s q) nothing value
  simp only [Patch.fields, mergedAll_append]
  rw [mergedAll_mention cursor, hmention, hmention, hmention, hmention, hmention, hmention]
  · have hcursor : max s.cursor 0 = s.cursor := Int.max_eq_left cursor
    simp [merged, hcursor]
  all_goals rfl

theorem with_white_eq_iff (s : State) (white : Bool) :
    s = { s with white } ↔ s.white = white := by
  constructor
  · exact fun h => congrArg State.white h
  · rintro rfl
    rfl

theorem merged_eq_mergedAll_iff (cursor : 0 ≤ s.cursor) (p : Patch) :
    s.merged p = s.mergedAll p.fields ↔ ¬ p.AsksBoth := by
  rw [mergedAll_fields cursor, with_white_eq_iff]
  by_cases hblack : p.black = some true
  · rcases hwhite : p.white with _ | _ | _ <;> simp [merged, Patch.AsksBoth, hblack, hwhite]
  · simp [merged, Patch.AsksBoth, hblack]

/-- Along a run of merges, what counts are the fields in the order in which they are mentioned,
as long as no patch asks for both colours. -/
theorem mergedAll_flatMap_fields (cursor : 0 ≤ s.cursor) {patches : List Patch}
    (one : ∀ p ∈ patches, ¬ p.AsksBoth) :
    s.mergedAll (patches.flatMap Patch.fields) = s.mergedAll patches := by
  induction patches generalizing s with
  | nil => rfl
  | cons p rest ih =>
    have hfirst : s.mergedAll p.fields = s.merged p :=
      ((merged_eq_mergedAll_iff cursor p).mpr (one p List.mem_cons_self)).symm
    rw [List.flatMap_cons, mergedAll_append, hfirst]
    exact ih (zero_le_cursor_merged s p) fun q hq => one q (List.mem_cons_of_mem p hq)

theorem mode_merged_black (s : State) (black : p.black = some true) (one : ¬ p.AsksBoth) :
    (s.merged p).mode = .black := by
  have hwhite : p.white ≠ some true := fun white => one ⟨black, white⟩
  simp [mode, Mode.ofBlank, merged, black, hwhite]

theorem mode_merged_white (s : State) (white : p.white = some true) (one : ¬ p.AsksBoth) :
    (s.merged p).mode = .white := by
  have hblack : p.black ≠ some true := fun black => one ⟨black, white⟩
  simp [mode, Mode.ofBlank, merged, white, hblack]

/-- A patch that asks for both colours should leave the white one, and leaves none. -/
theorem merged_of_asksBoth (cursor : 0 ≤ s.cursor) (both : p.AsksBoth) :
    s.merged p = { s.mergedAll p.fields with white := false } ∧
      (s.mergedAll p.fields).mode = .white ∧ (s.merged p).mode = .normal := by
  rw [mergedAll_fields cursor]
  obtain ⟨black, white⟩ := both
  refine ⟨?_, ?_, ?_⟩
  · exact (with_white_eq_iff _ _).mpr (by simp [merged, black])
  · simp [mode, Mode.ofBlank, merged, white]
  · simp [mode, Mode.ofBlank, merged, black, white]

/-- Merging a patch is merging its fields in turn, and a blank colour that it asks for is shown,
just when it does not ask for both at once. -/
theorem merges_fields_in_turn (cursor : 0 ≤ s.cursor) (p : Patch) :
    (s.merged p = s.mergedAll p.fields ↔ ¬ p.AsksBoth) ∧
      (p.black = some true → ¬ p.AsksBoth → (s.merged p).mode = .black) ∧
      (p.white = some true → ¬ p.AsksBoth → (s.merged p).mode = .white) ∧
      (p.AsksBoth → s.merged p = { s.mergedAll p.fields with white := false } ∧
        (s.mergedAll p.fields).mode = .white ∧ (s.merged p).mode = .normal) :=
  ⟨merged_eq_mergedAll_iff cursor p, mode_merged_black s, mode_merged_white s,
    merged_of_asksBoth cursor⟩

theorem merges_fields_in_turn_black :
    let s : State := { initial with white := true, planId := some "p", cursor := 4 }
    let p : Patch := { black := some true, cursor := some (-3), planId := some none }
    0 ≤ s.cursor ∧ s.merged p = s.mergedAll p.fields ∧ (s.merged p).mode = .black := by
  intro s p
  have hcursor : 0 ≤ s.cursor := by decide
  have hone : ¬ p.AsksBoth := by decide
  obtain ⟨hturn, hblack, -, -⟩ := merges_fields_in_turn hcursor p
  exact ⟨hcursor, hturn.mpr hone, hblack rfl hone⟩

/-- A new live state that is asked for both colours shows neither. -/
theorem both_colours_clear_each_other :
    let both : Patch := { black := some true, white := some true }
    0 ≤ initial.cursor ∧ (initial.black && initial.white) = false ∧
      initial.merged both ≠ initial.mergedAll both.fields ∧
      (initial.merged both).mode = .normal ∧ (initial.mergedAll both.fields).mode = .white := by
  decide

end State
end Lectern.Live
