import Lectern.Host
import Lectern.Proofs.Desk.Operation
import Lectern.Proofs.Desk.Steps
import Lectern.Proofs.Wire.Command

/-!
# Where text scales come from

A text scale is never computed. A screen has the one that it began with, the one of an edit or
the one of the screen it mirrors, and an event tells the one of a screen. So whatever holds of
the first text scale and of those that edits set holds of every text scale on a desk.
-/

namespace Lectern

open Projection Windows

variable {P : Binary64 → Prop}

/-- An edit leaves the text scale as it is or sets one that it carries. -/
theorem Projection.Edit.textScale_apply (e : Edit) (display : Display) :
    (e.apply display).textScale = display.textScale ∨ (e.apply display).textScale ∈ e.doubles := by
  cases e with
  | patch p => rcases hscale : p.textScale with _ | x <;> simp [apply, Patch.apply, doubles, hscale]
  | appearance p =>
    rcases hscale : p.textScale with _ | x <;> simp [apply, Appearance.apply, doubles, hscale]
  | text slide => exact .inl rfl
  | media slide => exact .inl rfl
  | mode m => exact .inl rfl

theorem Projection.Slide.doubles_edit (slide : Slide) : slide.edit.doubles = [] := by
  cases slide <;> rfl

/-- The text scale that the event tells of, if it does, has the property. -/
def Event.Scaled (P : Binary64 → Prop) (e : Event) : Prop :=
  ∀ s screen, e = .screen s screen → P screen.display.textScale

theorem Event.scaled_window (s : Surface) (isOpen : Bool) : (window s isOpen).Scaled P := by
  rintro _ _ ⟨⟩

theorem Event.scaled_live (state : Live.State) : (live state).Scaled P := by
  rintro _ _ ⟨⟩

theorem Links.scaled_propagate (links : Links) (s : Surface) (now : Int) {screens : Screens}
    (all : ∀ m, P (screens.get m).display.textScale) (m : Surface) :
    P ((links.propagate s now screens).get m).display.textScale := by
  show P ((copyAll now (links.spread s) screens).get m).display.textScale
  induction links.spread s generalizing screens with
  | nil => exact all m
  | cons c copies ih =>
    refine ih fun r => ?_
    show P ((screens.copy c.1 c.2 now).get r).display.textScale
    by_cases hr : r = c.2
    · rw [hr, Screens.copy, PerSurface.get_set_self]
      exact all c.1
    · rw [Screens.copy, PerSurface.get_set_of_ne _ hr]
      exact all r

namespace Desk

variable {ω : Type} {d : Desk ω}

/-- All text scales that are shown and told have the property. -/
structure Scaled (P : Binary64 → Prop) (d : Desk ω) : Prop where
  screens : ∀ s, P (d.screens.get s).display.textScale
  events : d.hub.Holds (Event.Scaled P)

namespace Scaled

theorem publish (h : d.Scaled P) {e : Event} (new : e.Scaled P) : (d.publish e).Scaled P :=
  ⟨h.screens, h.events.publish new⟩

theorem windowChanged (h : d.Scaled P) (s : Surface) (isOpen : Bool) :
    (d.windowChanged s isOpen).Scaled P := h.publish (Event.scaled_window s isOpen)

theorem windows (h : d.Scaled P) (windows : ω) : ({ d with windows }).Scaled P :=
  ⟨h.screens, h.events⟩

theorem hub (h : d.Scaled P) {hub : Hub} (events : hub.Holds (Event.Scaled P)) :
    ({ d with hub }).Scaled P := ⟨h.screens, events⟩

theorem announce (h : d.Scaled P) (surfaces : List Surface) :
    (d.announce surfaces).Scaled P := by
  refine ⟨h.screens, h.events.publishAll fun e he => ?_⟩
  obtain ⟨s, -, rfl⟩ := List.mem_map.mp he
  rintro _ _ ⟨⟩
  exact h.screens s

/-- A screen that is written, and carried over to the mirrors of its surface. -/
theorem spread (h : d.Scaled P) (links : Links) (s : Surface) {screen : Screen}
    (new : P screen.display.textScale) (surfaces : List Surface) :
    ({ d with
        links
        screens := links.propagate s d.clock.now (d.screens.set s screen)
        clock := d.clock.tick }.announce surfaces).Scaled P := by
  have hset (m : Surface) : P ((d.screens.set s screen).get m).display.textScale := by
    by_cases hm : m = s
    · subst hm
      rwa [PerSurface.get_set_self]
    · rw [PerSurface.get_set_of_ne _ hm]
      exact h.screens m
  have hspread : ({ d with
      links
      screens := links.propagate s d.clock.now (d.screens.set s screen)
      clock := d.clock.tick } : Desk ω).Scaled P :=
    ⟨links.scaled_propagate s d.clock.now hset, h.events⟩
  exact hspread.announce surfaces

theorem edit (h : d.Scaled P) {e : Edit} (carried : ∀ x ∈ e.doubles, P x) (target : Surface)
    (policy : Policy) : (d.edit target e policy).2.Scaled P := by
  rcases d.edit_cases target e policy with ⟨reason, -, heq⟩ | ⟨s, -, heq⟩
  · rw [heq]
    exact h
  · rw [heq]
    refine h.spread d.links s ?_ _
    rw [Screen.write_display]
    rcases e.textScale_apply (d.screens.get s).display with hscale | hscale
    · rw [hscale]
      exact h.screens s
    · exact carried _ hscale

theorem setLink (h : d.Scaled P) (s : Surface) (link : Link) : (d.setLink s link).2.Scaled P := by
  rcases d.setLink_cases s link with ⟨refusal, -, heq⟩ | ⟨-, heq⟩ | ⟨source, -, -, heq⟩
  · rw [heq]
    exact ⟨h.screens, h.events⟩
  · rw [heq]
    exact ⟨h.screens, h.events⟩
  · rw [heq]
    have hcopy : P ((d.screens.get s).copy (d.screens.get source) d.clock.now).display.textScale :=
      h.screens source
    exact h.spread _ s hcopy _

theorem applyLiveMode (h : d.Scaled P) : d.applyLiveMode.Scaled P := by
  unfold Desk.applyLiveMode
  split
  · split
    · exact h
    · exact h.edit (by simp [Edit.doubles]) _ _
  · exact h

theorem mergeLive (h : d.Scaled P) (p : Live.Patch) : (d.mergeLive p).2.Scaled P := by
  have hmerging : (d.merging p).Scaled P := ⟨h.screens, h.events⟩
  exact hmerging.applyLiveMode.publish (Event.scaled_live _)

variable [Windows ω]

theorem ensureOpen (h : d.Scaled P) (s : Surface) : (d.ensureOpen s).Scaled P := by
  rcases d.ensureOpen_cases s with heq | ⟨windows, heq⟩ | ⟨windows, heq⟩
  · rw [heq]
    exact h
  · rw [heq]
    exact h.windows windows
  · rw [heq]
    exact (h.windows windows).windowChanged s true

theorem project (h : d.Scaled P) (target : Surface) (slide : Slide) :
    (d.project target slide).2.Scaled P := by
  have carried : ∀ x ∈ slide.edit.doubles, P x := by simp [slide.doubles_edit]
  unfold Desk.project
  split
  · exact (h.ensureOpen _).edit carried target .redirect
  · exact h.edit carried target .redirect

theorem projectCursor (h : d.Scaled P) (sources : Sources) (live : Live.State) :
    (d.projectCursor sources live).2.Scaled P := by
  obtain ⟨within, hwithin, hprojected⟩ := d.projectCursor_cases sources live
  have hmoved : within.Scaled P := by
    rcases hwithin with rfl | ⟨position, rfl⟩
    · exact h
    · exact h.mergeLive _
  rcases hprojected with heq | ⟨target, slide, heq⟩
  · rw [heq]
    exact hmoved
  · rw [heq]
    exact hmoved.project target slide

end Scaled
end Desk

end Lectern
