import Lectern.Proofs.Desk.Mirrors

/-!
# Merging the live state

What a merge of the live state does to everything else. The locks, the target and the blank
flags that count are those of the merged state. If neither the target nor its root is locked,
the tree of the root takes on the blank mode and nothing else changes; if the root has that
mode already, or a lock forbids it, no screen is written at all. The live state is announced
once, when all screens have been.
-/

namespace Lectern

open Projection

namespace Live.State

/-- What every reachable live state is like. -/
structure Sound (s : State) : Prop where
  cursor : 0 ≤ s.cursor
  blank : (s.black && s.white) = false

theorem Sound.merge {s : State} (h : s.Sound) (patch : Patch) (now : Int) :
    (s.merge patch now).Sound :=
  ⟨zero_le_cursor_merged s patch, not_both_merged h.blank patch⟩

end Live.State

namespace Desk

variable {ω : Type} {d : Desk ω}

/-- What merging a patch makes of a desk when it returns `live`. -/
structure Merged (d : Desk ω) (patch : Live.Patch) (live : Live.State) (after : Desk ω) : Prop where
  merged : live = d.live.merge patch d.clock.now
  returned : after.live = live
  sound : live.Sound
  links : after.links = d.links
  /-- Without a lock the tree of the target takes on the blank mode. -/
  shown : live.locks.get live.target = false →
    live.locks.get (d.links.root live.target) = false →
    (∀ s, d.links.root s = d.links.root live.target →
      (after.screens.get s).display =
        { (d.screens.get s).display with mode := .ofBlank live.black live.white }) ∧
    (∀ s, d.links.root s ≠ d.links.root live.target → after.screens.get s = d.screens.get s) ∧
    ((d.screens.get (d.links.root live.target)).display.mode = .ofBlank live.black live.white →
      after.screens = d.screens)
  vetoed : live.locks.get live.target = true ∨
    live.locks.get (d.links.root live.target) = true → after.screens = d.screens
  announced : ∃ surfaces : List Surface, after.hub = d.hub.publishAll
    ((surfaces.map fun s => .screen s (after.screens.get s)) ++ [.live live])

theorem display_with_mode {display : Display} {mode : Mode} (h : display.mode = mode) :
    { display with mode } = display := by
  subst h
  rfl

/-- The blank mode on a desk whose screens are in order, before anything is announced. -/
theorem Consistent.applyLiveMode_shown (h : d.Consistent)
    (target : d.live.locks.get d.live.target = false)
    (root : d.live.locks.get (d.links.root d.live.target) = false) :
    (∀ s, d.links.root s = d.links.root d.live.target →
      (d.applyLiveMode.screens.get s).display =
        { (d.screens.get s).display with mode := d.live.mode }) ∧
    (∀ s, d.links.root s ≠ d.links.root d.live.target →
      d.applyLiveMode.screens.get s = d.screens.get s) ∧
    ((d.screens.get (d.links.root d.live.target)).display.mode = d.live.mode →
      d.applyLiveMode.screens = d.screens) := by
  have hfree := h.forest.root_free d.live.target
  have htree : ∀ s, d.links.root s = d.links.root d.live.target →
      (d.screens.get s).display = (d.screens.get (d.links.root d.live.target)).display := by
    intro s hs
    exact (h.of_under ((h.forest.root_eq_iff hfree).mp hs)).1
  rw [applyLiveMode_eq h.forest]
  simp only [target, root, Bool.false_eq_true, false_or]
  split_ifs with hmode
  · refine ⟨fun s hs => ?_, fun s _ => rfl, fun _ => rfl⟩
    exact (display_with_mode ((congrArg Display.mode (htree s hs)).trans hmode)).symm
  · refine ⟨fun s hs => ?_, fun s hs => ?_, fun heq => absurd heq hmode⟩
    · rw [write_display_of_under h.forest ((h.forest.root_eq_iff hfree).mp hs), htree s hs]
      rfl
    · exact get_write_of_not_under h.forest fun hu => hs ((h.forest.root_eq_iff hfree).mpr hu)

theorem Consistent.applyLiveMode_vetoed (h : d.Consistent)
    (locked : d.live.locks.get d.live.target = true ∨
      d.live.locks.get (d.links.root d.live.target) = true) :
    d.applyLiveMode.screens = d.screens := by
  rw [applyLiveMode_eq h.forest, if_pos (or_assoc.mp (.inl locked))]

theorem applyLiveMode_hub (d : Desk ω) : ∃ surfaces : List Surface,
    d.applyLiveMode.hub = d.hub.publishAll
      (surfaces.map fun s => .screen s (d.applyLiveMode.screens.get s)) := by
  rcases d.applyLiveMode_cases with heq | ⟨s, change, heq⟩
  · exact ⟨[], by rw [heq]; rfl⟩
  · exact ⟨s :: d.links.followers s, by rw [heq, write_hub]⟩

variable [Windows ω]

theorem Reachable.live_sound (h : d.Reachable) : d.live.Sound := by
  refine h.of_stepwise (I := fun d => d.live.Sound) (fun _ _ _ => ⟨le_rfl, rfl⟩) ?_
    fun d o hd => hd
  exact {
    refl := fun _ hd => hd
    trans := fun hab hbc hd => hbc (hab hd)
    edit := fun d target e policy hd => by rwa [edit_live]
    setLink := fun d s link hd => by rwa [setLink_live]
    mergeLive := fun d patch hd => by
      rw [mergeLive_live]
      exact hd.merge patch _
    windowChanged := fun _ _ _ hd => hd
    windows := fun _ _ hd => hd }

/-- The patch may be computed from the live state, as all the shortcuts compute theirs. -/
theorem Reachable.mergeLive_shows_blank_mode (h : d.Reachable) (patch : Live.State → Live.Patch) :
    Merged d (patch d.live) (d.mergeLive (patch d.live)).1 (d.mergeLive (patch d.live)).2 := by
  have hmerging : (d.merging (patch d.live)).Consistent := h.consistent
  exact {
    merged := rfl
    returned := mergeLive_live d _
    sound := h.live_sound.merge _ _
    links := applyLiveMode_links _
    shown := hmerging.applyLiveMode_shown
    vetoed := hmerging.applyLiveMode_vetoed
    announced := by
      obtain ⟨surfaces, hsurfaces⟩ := (d.merging (patch d.live)).applyLiveMode_hub
      refine ⟨surfaces, ?_⟩
      rw [Hub.publishAll_append]
      exact congrArg (Hub.publish · _) hsurfaces }

/-- A black screen asked for at the end of the rehearsal comes to C by way of B. -/
theorem mergeLive_shows_black_after_rehearsal :
    (opening.run rehearsal).Reachable ∧
      (((opening.run rehearsal).mergeLive
        ((opening.run rehearsal).live.toggleBlack)).2.screens.get .c).display =
        { ((opening.run rehearsal).screens.get .c).display with mode := .black } := by
  have hmerged := Reachable.mergeLive_shows_blank_mode reachable_rehearsal
    Live.State.toggleBlack
  have hshown := hmerged.shown rfl rfl
  exact ⟨reachable_rehearsal, hshown.1 .c rfl⟩

end Desk
end Lectern
