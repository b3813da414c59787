import Lectern.Proofs.Desk.Mirrors
import Lectern.Proofs.Desk.Times

/-!
# What a link writes

A link is refused just when it would lead a surface back to itself, and then nothing but a
reading of the clock has come of it. An accepted link to a source changes no other link. It
writes the surface and all that is below it once each, parents before children, so that they
show what the source shows, and announces them in this order. A release changes the one link
and writes nothing.
-/

namespace Lectern

open Projection

namespace Desk

variable {ω : Type} {d : Desk ω} {s source : Surface}

/-- What becomes of a desk on which `s` comes to mirror `source`. What was under `s` before is
under it afterwards. -/
structure Mirrored (d : Desk ω) (s source : Surface) (after : Desk ω) : Prop where
  linked : after.links.get s = .mirror source
  otherLinks : ∀ m, m ≠ s → after.links.get m = d.links.get m
  live : after.live = d.live
  windows : after.windows = d.windows
  clock : after.clock = d.clock.tick
  /-- The surface is written once, with what its new source shows. -/
  copied : after.screens.get s = (d.screens.get s).copy (d.screens.get source) d.clock.now
  /-- Each surface below is written once, with what its own source shows by then. -/
  carried : ∀ {m p}, m ≠ s → d.links.get m = .mirror p → d.links.Under p s →
    after.screens.get m = (d.screens.get m).copy (after.screens.get p) d.clock.now
  shown : ∀ {m}, d.links.Under m s →
    (after.screens.get m).display = (d.screens.get source).display
  kept : ∀ m, ¬ d.links.Under m s → after.screens.get m = d.screens.get m
  changed : ∀ m, d.links.Under m s → IsInt64 ((d.screens.get m).updatedAt + 1) →
    after.screens.get m ≠ d.screens.get m
  announced : ∃ mirrors : List Surface, (s :: mirrors).Nodup ∧
    (∀ m, m ∈ s :: mirrors ↔ d.links.Under m s) ∧
    (∀ before m rest p, mirrors = before ++ m :: rest → d.links.get m = .mirror p →
      p ∈ s :: before) ∧
    after.hub = d.hub.publishAll
      ((s :: mirrors).map fun r => .screen r (after.screens.get r))

theorem writes_mirroring (forest : d.links.Forest)
    (accepted : d.links.refusal? s (.mirror source) = none) :
    Writes (d.links.Under · s) d (d.mirroring s source) := by
  have hforest : (d.mirroring s source).links.Forest := forest.set accepted
  have hwrites : Writes ((d.mirroring s source).links.Under · s) d (d.mirroring s source) :=
    writes_propagate hforest ⟨_, _, rfl⟩ (mirroring_screens d s source)
  simpa only [mirroring_links, Links.under_set_self] using hwrites

theorem mirrored_mirroring (forest : d.links.Forest)
    (accepted : d.links.refusal? s (.mirror source) = none) :
    d.Mirrored s source (d.mirroring s source) where
  linked := PerSurface.get_set_self _ _ _
  otherLinks m hm := PerSurface.get_set_of_ne _ hm _
  live := rfl
  windows := rfl
  clock := rfl
  copied := get_mirroring_self forest accepted
  carried hms hm hp := get_mirroring_of_follows forest accepted hms hm hp
  shown := mirroring_display_of_under forest accepted
  kept m hm := (writes_mirroring forest accepted).kept hm
  changed m hm := (writes_mirroring forest accepted).changed hm
  announced := by
    have hforest : (d.mirroring s source).links.Forest := forest.set accepted
    have hcarries := Links.carries_spread (d.mirroring s source).links s
    refine ⟨_, Links.nodup_tree _ s, fun m => ?_, ?_, mirroring_hub d s source⟩
    · exact hforest.mem_tree.trans Links.under_set_self
    · intro before m rest p split hm
      have hmem : m ∈ (d.mirroring s source).links.followers s := by
        rw [show Links.followers _ s = _ from split]
        simp
      have hms : m ≠ s := by
        rintro rfl
        exact Links.not_mem_followers_self _ m hmem
      have hfollows : (d.mirroring s source).links.Follows m p :=
        (Links.follows_set_of_ne hms).mpr hm
      exact hcarries.source_before split hfollows

variable [Windows ω]

/-- When a link is refused, and what it does when it is not. -/
theorem Reachable.link_writes_tree (h : d.Reachable) (s : Surface) (link : Link) :
    (∀ refusal, (d.setLink s link).1 = .error refusal ↔ d.links.Refuses s link refusal) ∧
      (∀ refusal, d.links.Refuses s link refusal →
        (d.setLink s link).2 = { d with clock := d.clock.tick }) ∧
      (∀ source, link = .mirror source → ¬ d.links.Under source s →
        (d.setLink s link).1 = .ok ((d.setLink s link).2.screens.get s) ∧
        d.Mirrored s source (d.setLink s link).2) ∧
      (link = .free → d.setLink s link =
        (.ok (d.screens.get s), { d with links := d.links.set s .free, clock := d.clock.tick })) := by
  have forest := h.consistent.forest
  refine ⟨fun refusal => ?_, fun refusal hrefuses => ?_, ?_, ?_⟩
  · rw [← forest.refusal?_eq_some_iff, setLink_eq]
    cases d.links.refusal? s link with
    | some other => simp
    | none => cases link <;> simp
  · rw [setLink_eq, forest.refusal?_eq_some_iff.mpr hrefuses]
  · rintro source rfl hnot
    have accepted := forest.refusal?_eq_none_iff.mpr hnot
    rw [setLink_eq, accepted]
    exact ⟨rfl, mirrored_mirroring forest accepted⟩
  · rintro rfl
    rfl

/-- C mirrors B, and A shows a text. -/
def sideStage : List (Operation Windows.Registry) :=
  [.setLink .c (.mirror .b),
    .edit .a (.text ⟨some "Welcome", "Please be seated.", none⟩) .refuse]

/-- When B comes to mirror A, C takes part, and B may not come to mirror C. -/
theorem link_writes_tree_of_stage :
    let d := opening.run sideStage
    d.Reachable ∧ ¬ d.links.Under .a .b ∧ d.Mirrored .b .a (d.setLink .b (.mirror .a)).2 ∧
      d.links.Refuses .b (.mirror .c) (.cycle .b .c) ∧
      (d.setLink .b (.mirror .c)).1 = .error (.cycle .b .c) ∧
      (d.setLink .b (.mirror .c)).2 = { d with clock := d.clock.tick } := by
  intro d
  have hreachable : d.Reachable := reachable_opening.run sideStage
  have hfree : d.links.get .b = .free := by rfl
  have hnot : ¬ d.links.Under .a .b := by
    intro hunder
    cases hunder.eq_of_free hfree
  have hcycle : d.links.Refuses .b (.mirror .c) (.cycle .b .c) :=
    .ancestor (Links.Follows.below rfl)
  have hlink := hreachable.link_writes_tree .b
  exact ⟨hreachable, hnot, ((hlink (.mirror .a)).2.2.1 .a rfl hnot).2, hcycle,
    ((hlink (.mirror .c)).1 _).mpr hcycle, (hlink (.mirror .c)).2.1 _ hcycle⟩

end Desk
end Lectern
