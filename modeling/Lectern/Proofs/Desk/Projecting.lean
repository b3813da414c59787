import Lectern.Proofs.Desk.Clockless
import Lectern.Proofs.Desk.Edits

/-!
# Projecting is writing the root

A projection finds its way twice: before it sees to the window, and again when it writes. Both
times it comes to the root of the target, which is free, so that writing the root directly would
not be refused either. What is left of the projection is a request for a window, made before
anything is written; whatever the windows make of it, the content is not affected.
-/

namespace Lectern

open Projection

namespace Windows

variable {ω : Type} [Windows ω]

/-- The window of the surface is closed, and it is open when it has been asked for with success. -/
def ComesUp (windows : ω) (s : Surface) : Prop :=
  isOpen windows s = false ∧ (openSurface windows s).1 = true ∧
    isOpen (openSurface windows s).2 s = true

instance (windows : ω) (s : Surface) : Decidable (ComesUp windows s) := instDecidableAnd

/-- The windows when that of a surface has been asked for, unless it is open. -/
def seenTo (windows : ω) (s : Surface) : ω :=
  if isOpen windows s then windows else (openSurface windows s).2

theorem asked_seenTo (windows : Recorded ω) (s : Surface) :
    (seenTo windows s).asked = windows.asked ++ if isOpen windows s then [] else [s] := by
  unfold seenTo
  split_ifs
  · exact (List.append_nil _).symm
  · rfl

end Windows

namespace Desk

open Windows

variable {ω : Type}

/-- What is said of a surface and the mirrors in its tree: how they are now. -/
def announcement (d : Desk ω) (s : Surface) : List Event :=
  (s :: d.links.followers s).map fun r => .screen r (d.screens.get r)

/-- The windows play no part in a write, and what is announced of them comes before it. -/
theorem write_of_windows (d : Desk ω) (windows : ω) (es : List Event) (s : Surface)
    (change : Display → Display) :
    ({ d with windows, hub := d.hub.publishAll es }).write s change =
      { d.write s change with
        windows
        hub := d.hub.publishAll (es ++ (d.write s change).announcement s) } := by
  rw [Hub.publishAll_append]
  rfl

variable [Windows ω]

/-- What is said of the window of a surface when it is seen to. -/
def arrival (d : Desk ω) (s : Surface) : List Event :=
  if ComesUp d.windows s then [.window s true] else []

theorem ensureOpen_eq (d : Desk ω) (s : Surface) :
    d.ensureOpen s =
      { d with windows := seenTo d.windows s, hub := d.hub.publishAll (d.arrival s) } := by
  by_cases hopen : Windows.isOpen d.windows s = true
  · simp [ensureOpen, seenTo, arrival, ComesUp, hopen, Hub.publishAll]
  · by_cases hup : (openSurface d.windows s).1 = true ∧
        Windows.isOpen (openSurface d.windows s).2 s = true
    · simp [ensureOpen, seenTo, arrival, ComesUp, hopen, hup, windowChanged, publish,
        Hub.publishAll]
    · simp [ensureOpen, seenTo, arrival, ComesUp, hopen, hup, Hub.publishAll]

/-- What a projection on the root `r` answers and what it makes of the desk, beside a direct
write of `r`. -/
structure Projected (d : Desk (Recorded ω)) (r : Surface) (slide : Slide) (outcome : Outcome)
    (after : Desk (Recorded ω)) : Prop where
  accepted : outcome.ok = true
  outcome : outcome = (d.edit r slide.edit .refuse).1
  screens : after.screens = (d.edit r slide.edit .refuse).2.screens
  links : after.links = (d.edit r slide.edit .refuse).2.links
  live : after.live = (d.edit r slide.edit .refuse).2.live
  clock : after.clock = (d.edit r slide.edit .refuse).2.clock
  /-- The window is asked for once, or not at all if it is open. -/
  asked : after.windows.asked =
    d.windows.asked ++ if Windows.isOpen d.windows r then [] else [r]
  direct : (d.edit r slide.edit .refuse).2.hub = d.hub.publishAll (after.announcement r)
  /-- A window that comes up is announced before the content. -/
  published : after.hub = d.hub.publishAll
    ((if ComesUp d.windows r then [.window r true] else []) ++ after.announcement r)

theorem project_of_locked {d : Desk ω} {target : Surface} (slide : Slide)
    (locked : d.live.locks.get target = true ∨
      d.live.locks.get (d.links.root target) = true) :
    d.project target slide = (.refused .locked, d) := by
  have hroute : d.route target .redirect = .refused .locked :=
    (route_redirect _ _ _).trans (if_pos locked)
  unfold project
  rw [hroute]
  exact edit_of_refused hroute _

theorem project_of_unlocked {d : Desk ω} {target : Surface} (slide : Slide)
    (unlocked : d.live.locks.get target = false)
    (rootUnlocked : d.live.locks.get (d.links.root target) = false) :
    d.project target slide =
      (.applied (d.links.root target)
          ((d.write (d.links.root target) slide.edit.apply).screens.get (d.links.root target)),
        { d.write (d.links.root target) slide.edit.apply with
          windows := seenTo d.windows (d.links.root target)
          hub := d.hub.publishAll (d.arrival (d.links.root target) ++
            (d.write (d.links.root target) slide.edit.apply).announcement
              (d.links.root target)) }) := by
  have hroute : d.route target .redirect = .apply (d.links.root target) := by
    refine (route_redirect _ _ _).trans (if_neg ?_)
    simp [unlocked, rootUnlocked]
  unfold project
  rw [hroute]
  dsimp only
  -- The window does not change the way, so the second time it is the same.
  have hagain : (d.ensureOpen (d.links.root target)).route target .redirect =
      .apply (d.links.root target) := by
    rw [ensureOpen_eq]
    exact hroute
  rw [edit_of_apply hagain, ensureOpen_eq, write_of_windows]

/-- A projection is refused on account of a lock, of the target or of its root, and then it does
nothing. Otherwise it is a direct write of the root, with a request for its window. -/
theorem Reachable.projects_by_direct_write {d : Desk (Recorded ω)} (h : d.Reachable)
    (target : Surface) (slide : Slide) :
    (d.live.locks.get target = true ∨ d.live.locks.get (d.links.root target) = true →
        d.project target slide = (.refused .locked, d)) ∧
      (d.live.locks.get target = false → d.live.locks.get (d.links.root target) = false →
        d.Projected (d.links.root target) slide (d.project target slide).1
          (d.project target slide).2) ∧
      ∀ windows : Recorded ω,
        ({ d with windows }.project target slide).1 = (d.project target slide).1 ∧
        ({ d with windows }.project target slide).2.screens =
          (d.project target slide).2.screens := by
  refine ⟨project_of_locked slide, fun unlocked rootUnlocked => ?_, fun windows => ?_⟩
  · have hfree : d.links.get (d.links.root target) = .free := h.consistent.forest.root_free target
    have hroute : d.route (d.links.root target) .refuse = .apply (d.links.root target) :=
      route_of_free hfree rootUnlocked
    have hdirect := edit_of_apply hroute slide.edit
    rw [project_of_unlocked slide unlocked rootUnlocked]
    exact {
      accepted := rfl
      outcome := by rw [hdirect]
      screens := by rw [hdirect]
      links := by rw [hdirect]
      live := by rw [hdirect]
      clock := by rw [hdirect]
      asked := asked_seenTo d.windows _
      direct := by rw [hdirect]; rfl
      published := rfl }
  · by_cases locked : d.live.locks.get target = true ∨
        d.live.locks.get (d.links.root target) = true
    · rw [project_of_locked slide locked,
        project_of_locked (d := { d with windows }) slide locked]
      exact ⟨rfl, rfl⟩
    · obtain ⟨unlocked, rootUnlocked⟩ : d.live.locks.get target = false ∧
          d.live.locks.get (d.links.root target) = false := by simpa using locked
      rw [project_of_unlocked slide unlocked rootUnlocked,
        project_of_unlocked (d := { d with windows }) slide unlocked rootUnlocked]
      exact ⟨rfl, rfl⟩

/-- A text for C, which mirrors A, has the window of A come up. -/
theorem projects_by_direct_write_of_source :
    let d := recordedOpening.run [.setLink .c (.mirror .a)]
    let slide : Slide := .text ⟨some "Welcome", "Please be seated.", none⟩
    d.Reachable ∧ d.live.locks.get .c = false ∧ d.live.locks.get (d.links.root .c) = false ∧
      ComesUp d.windows .a ∧
      d.Projected .a slide (d.project .c slide).1 (d.project .c slide).2 := by
  intro d slide
  have hreachable : d.Reachable := Reachable.run (.initial _ _ _) _
  have unlocked : d.live.locks.get .c = false := by rfl
  have rootUnlocked : d.live.locks.get (d.links.root .c) = false := by rfl
  exact ⟨hreachable, unlocked, rootUnlocked, by decide,
    (hreachable.projects_by_direct_write .c slide).2.1 unlocked rootUnlocked⟩

end Desk
end Lectern
