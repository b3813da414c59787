import Lectern.Proofs.Desk.Mirrors

/-!
# Locked surfaces

A surface that is locked and free is in no tree but its own, and edits, projections, merges
and steps of navigation write only trees whose root is not locked, by the locks as they stand
when the write is made. So its screen stays as it is, time and all, while it stays locked.
Links are not routed: a locked surface that is linked to a source takes over the display of
the source like any other, and this is the only way in which it changes.
-/

namespace Lectern

open Projection

namespace Desk

variable {ω : Type} {d : Desk ω} {s r : Surface} {screen : Screen}

/-- A free surface is in no tree but its own. -/
theorem not_under_of_free (free : d.links.get s = .free) (h : s ≠ r) :
    ¬ d.links.Under s r := by
  intro hu
  exact h (hu.eq_of_free free)

theorem ne_of_locked (locked : d.live.locks.get s = true) (h : d.live.locks.get r = false) :
    s ≠ r := by
  rintro rfl
  exact Bool.noConfusion (locked.symm.trans h)

/-- The blank mode goes past a surface that is locked and free. -/
theorem get_applyLiveMode_of_locked (forest : d.links.Forest) (free : d.links.get s = .free)
    (locked : d.live.locks.get s = true) :
    d.applyLiveMode.screens.get s = d.screens.get s := by
  rw [applyLiveMode_eq forest]
  split_ifs with hveto
  · rfl
  · have hroot : d.live.locks.get (d.links.root d.live.target) = false := by
      simpa using (not_or.mp (not_or.mp hveto).2).1
    exact get_write_of_not_under forest (not_under_of_free free (ne_of_locked locked hroot))

/-- The surface is locked and free, and this is its screen. -/
structure Frozen (s : Surface) (screen : Screen) (d : Desk ω) : Prop where
  consistent : d.Consistent
  free : d.links.get s = .free
  locked : d.live.locks.get s = true
  screen : d.screens.get s = screen

theorem Frozen.edit (h : d.Frozen s screen) (target : Surface) (e : Edit) (policy : Policy) :
    (d.edit target e policy).2.Frozen s screen := by
  have hconsistent := h.consistent.edit target e policy
  rcases d.edit_cases target e policy with ⟨reason, -, heq⟩ | ⟨r, hroute, heq⟩
  · rw [heq]
    exact h
  · obtain ⟨-, -, unlocked⟩ := route_eq_apply hroute
    have hnot := not_under_of_free h.free (ne_of_locked h.locked unlocked)
    rw [heq] at hconsistent ⊢
    exact {
      consistent := hconsistent
      free := h.free
      locked := h.locked
      screen := (get_write_of_not_under h.consistent.forest hnot).trans h.screen }

/-- The locks that count are those of the merged state. -/
theorem Frozen.mergeLive (h : d.Frozen s screen) (patch : Live.Patch)
    (still : (d.mergeLive patch).2.live.locks.get s = true) :
    (d.mergeLive patch).2.Frozen s screen := by
  have hlocked : (d.merging patch).live.locks.get s = true := by
    rwa [mergeLive_live] at still
  have hscreen := get_applyLiveMode_of_locked (d := d.merging patch) h.consistent.forest
    h.free hlocked
  exact {
    consistent := h.consistent.mergeLive patch
    free := by rw [mergeLive_eq, publish_links, applyLiveMode_links]; exact h.free
    locked := still
    screen := by rw [mergeLive_eq, publish_screens, hscreen]; exact h.screen }

theorem Frozen.mergeLive_of_locks (h : d.Frozen s screen) {patch : Live.Patch}
    (locks : patch.locks = none) : (d.mergeLive patch).2.Frozen s screen := by
  apply h.mergeLive
  rw [mergeLive_live, mergeLive_eq]
  simpa [merging, Live.State.merge, Live.State.merged, locks] using h.locked

/-- Without a link that makes the surface itself a mirror its screen stays. -/
theorem Frozen.setLink (h : d.Frozen s screen) (link : Link)
    (other : ∀ source, r = s → link = .mirror source →
      d.links.refusal? s (.mirror source) ≠ none) :
    (d.setLink r link).2.screens.get s = screen := by
  rcases d.setLink_cases r link with ⟨refusal, -, heq⟩ | ⟨-, heq⟩ | ⟨source, rfl, accepted, heq⟩
  · rw [heq]
    exact h.screen
  · rw [heq]
    exact h.screen
  · have hne : s ≠ r := by
      rintro rfl
      exact other source rfl rfl accepted
    rw [heq, get_mirroring_of_not_under h.consistent.forest accepted
      (not_under_of_free h.free hne)]
    exact h.screen

variable [Windows ω]

theorem Frozen.ensureOpen (h : d.Frozen s screen) (r : Surface) :
    (d.ensureOpen r).Frozen s screen := by
  rcases d.ensureOpen_cases r with heq | ⟨windows, heq⟩ | ⟨windows, heq⟩
  · rw [heq]
    exact h
  · rw [heq]
    exact ⟨h.consistent, h.free, h.locked, h.screen⟩
  · rw [heq]
    exact ⟨h.consistent, h.free, h.locked, h.screen⟩

theorem Frozen.project (h : d.Frozen s screen) (target : Surface) (slide : Slide) :
    (d.project target slide).2.Frozen s screen := by
  unfold Desk.project
  split
  · exact (h.ensureOpen _).edit _ _ _
  · exact h.edit _ _ _

/-- The merges of a step of navigation leave the locks alone. -/
theorem Frozen.navigate (h : d.Frozen s screen) (sources : Sources) (move : Move) :
    (d.navigate sources move).2.Frozen s screen := by
  have hmerged : (d.mergeLive (move.patch d.live)).2.Frozen s screen := by
    apply h.mergeLive_of_locks
    cases move with
    | _ => rfl
  rw [navigate_eq]
  obtain ⟨within, hwithin, hprojected⟩ :=
    (d.mergeLive (move.patch d.live)).2.projectCursor_cases sources
      (d.mergeLive (move.patch d.live)).1
  have hfrozen : within.Frozen s screen := by
    rcases hwithin with heq | ⟨position, heq⟩
    · rw [heq]
      exact hmerged
    · rw [heq]
      exact hmerged.mergeLive_of_locks rfl
  rcases hprojected with heq | ⟨target, slide, heq⟩
  · rw [heq]
    exact hfrozen
  · rw [heq]
    exact hfrozen.project target slide

/-- The operation makes the surface a mirror. -/
def MakesMirror (d : Desk ω) (s : Surface) (operation : Operation ω) : Prop :=
  ∃ source, operation = .setLink s (.mirror source) ∧
    d.links.refusal? s (.mirror source) = none

theorem Frozen.perform (h : d.Frozen s screen) {operation : Operation ω}
    (still : (d.perform operation).live.locks.get s = true)
    (other : ¬ d.MakesMirror s operation) : (d.perform operation).screens.get s = screen := by
  cases operation with
  | edit target e policy => exact (h.edit target e policy).screen
  | setLink r link =>
    refine h.setLink link fun source hr hlink accepted => ?_
    subst hr hlink
    exact other ⟨source, rfl, accepted⟩
  | project target slide => exact (h.project target slide).screen
  | projectItem sources target item => exact (h.project target (item.slide sources)).screen
  | merge patch => exact (h.mergeLive _ still).screen
  | navigate sources move => exact (h.navigate sources move).screen
  | windowChanged r isOpen => exact h.screen
  | changeWindows change => exact h.screen
  | observe o => exact h.screen

/-- The screen of a surface that is free and locked, and is locked still after an operation,
stays as it is, unless the operation has made a mirror of it. Then it has been written, and
that shows while there are later times. -/
theorem Reachable.locked_screen_kept_iff (h : d.Reachable) (free : d.links.get s = .free)
    (locked : d.live.locks.get s = true) (operation : Operation ω)
    (still : (d.perform operation).live.locks.get s = true) :
    (¬ d.MakesMirror s operation →
        (d.perform operation).screens.get s = d.screens.get s) ∧
      (IsInt64 ((d.screens.get s).updatedAt + 1) →
        ((d.perform operation).screens.get s = d.screens.get s ↔
          ¬ d.MakesMirror s operation)) := by
  have hfrozen : d.Frozen s (d.screens.get s) := ⟨h.consistent, free, locked, rfl⟩
  refine ⟨hfrozen.perform still, fun fits => ⟨?_, hfrozen.perform still⟩⟩
  rintro hkept ⟨source, rfl, accepted⟩
  rcases d.setLink_cases s (.mirror source) with
    ⟨refusal, hrefusal, -⟩ | ⟨hlink, -⟩ | ⟨_, hlink, -, heq⟩
  · rw [accepted] at hrefusal
    cases hrefusal
  · cases hlink
  · cases hlink
    have hcopied : (d.perform (.setLink s (.mirror source))).screens.get s =
        (d.screens.get s).copy (d.screens.get source) d.clock.now := by
      rw [show (d.perform _).screens = (d.setLink s (.mirror source)).2.screens from rfl, heq]
      exact get_mirroring_self h.consistent.forest accepted
    exact Screen.write_ne fits _ _ (hcopied.symm.trans hkept)

/-- A shows a text, and B is locked. -/
def lockdown : List (Operation Windows.Registry) :=
  [.edit .a (.text ⟨some "Welcome", "Please be seated.", none⟩) .refuse,
    .merge fun live => live.lock .b true]

/-- A black screen asked for on B does not come to it. -/
theorem locked_screen_kept_after_lockdown :
    (opening.run lockdown).Reachable ∧ (opening.run lockdown).links.get .b = .free ∧
      (opening.run lockdown).live.locks.get .b = true ∧
      ((opening.run lockdown).perform
        (.merge fun _ => { target := some "B", black := some true })).live.locks.get .b = true ∧
      ((opening.run lockdown).perform
        (.merge fun _ => { target := some "B", black := some true })).screens.get .b =
        (opening.run lockdown).screens.get .b := by
  have reachable : (opening.run lockdown).Reachable := reachable_opening.run lockdown
  have free : (opening.run lockdown).links.get .b = .free := by rfl
  have locked : (opening.run lockdown).live.locks.get .b = true := by rfl
  have still : ((opening.run lockdown).perform
      (.merge fun _ => { target := some "B", black := some true })).live.locks.get .b = true := by
    rfl
  refine ⟨reachable, free, locked, still, ?_⟩
  refine (Reachable.locked_screen_kept_iff reachable free locked _ still).1 ?_
  rintro ⟨source, h, -⟩
  cases h

/-- A link from A goes through: B stays locked and free of other links until then, but its
screen becomes that of A. -/
theorem link_overwrites_locked_screen :
    (opening.run lockdown).Reachable ∧ (opening.run lockdown).links.get .b = .free ∧
      (opening.run lockdown).live.locks.get .b = true ∧
      ((opening.run lockdown).perform (.setLink .b (.mirror .a))).live.locks.get .b = true ∧
      ((opening.run lockdown).perform (.setLink .b (.mirror .a))).screens.get .b ≠
        (opening.run lockdown).screens.get .b := by
  refine ⟨reachable_opening.run lockdown, rfl, rfl, rfl, ?_⟩
  intro h
  exact absurd (congrArg Screen.updatedAt h) (by decide)

end Desk
end Lectern
