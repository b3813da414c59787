import Lectern.Proofs.Desk.Operation
import Lectern.Proofs.Desk.Steps

/-!
# Mirrors keep up with their sources

On every reachable desk the links form a forest, and each mirror shows what its source
shows and is no older. The invariant is about links and screens alone. A write breaks it on
the links to the surface written, and a new link breaks it on that link and on those below;
the copies that follow mend exactly these.
-/

namespace Lectern

open Projection

/-- The screen shows what its source shows and is no older. -/
def Projection.Screen.KeepsUpWith (s source : Screen) : Prop :=
  s.display = source.display ∧ source.updatedAt ≤ s.updatedAt

theorem Projection.Screen.copy_keepsUpWith (s source : Screen) (now : Int) :
    (s.copy source now).KeepsUpWith source :=
  ⟨Screen.copy_display s source now, Screen.le_copy_updatedAt s source now⟩

namespace Links

variable {links : Links} {screens : Screens} {s m p : Surface} {now : Int}

structure Consistent (links : Links) (screens : Screens) : Prop where
  forest : links.Forest
  keepsUp : ∀ {m p}, links.Follows m p → (screens.get m).KeepsUpWith (screens.get p)

theorem Consistent.of_under (h : Consistent links screens) (hm : links.Under m p) :
    (screens.get m).KeepsUpWith (screens.get p) := by
  induction hm using Relation.ReflTransGen.head_induction_on with
  | refl => exact ⟨rfl, le_rfl⟩
  | head hm _ ih =>
    have hstep := h.keepsUp hm
    exact ⟨hstep.1.trans ih.1, ih.2.trans hstep.2⟩

theorem consistent_none (screen : Screen) : Consistent none (Screens.initial screen) where
  forest := forest_none
  keepsUp {m _} hm := absurd hm (not_follows_of_free (PerSurface.get_replicate _ m))

/-- Propagating mends whatever is not in order below `s`. -/
theorem Forest.consistent_propagate (forest : links.Forest)
    (h : ∀ {m p}, links.Follows m p → ¬ links.Below m s →
      (screens.get m).KeepsUpWith (screens.get p)) :
    Consistent links (links.propagate s now screens) := by
  refine ⟨forest, fun {m p} hm => ?_⟩
  by_cases hp : links.Under p s
  · rw [forest.get_propagate_of_follows hm hp]
    exact Screen.copy_keepsUpWith _ _ _
  · have hms : ¬ links.Below m s := by
      intro hb
      obtain ⟨q, hq, hqs⟩ := below_iff.mp hb
      exact hp (hm.unique hq ▸ hqs)
    rw [forest.get_propagate_of_not_below hms,
      forest.get_propagate_of_not_below fun hb => hp hb.under]
    exact h hm hms

theorem Consistent.write (h : Consistent links screens) (free : links.get s = .free)
    (change : Display → Display) :
    Consistent links (links.propagate s now (screens.write s now change)) := by
  refine h.forest.consistent_propagate fun {m p} hm hb => ?_
  have hms : m ≠ s := by
    rintro rfl
    exact not_follows_of_free free hm
  have hps : p ≠ s := by
    rintro rfl
    exact hb hm.below
  simp only [Screens.write, PerSurface.get_set_of_ne _ hms, PerSurface.get_set_of_ne _ hps]
  exact h.keepsUp hm

theorem Consistent.set_free (h : Consistent links screens) (s : Surface) :
    Consistent (links.set s .free) screens := by
  refine ⟨h.forest.set_free s, fun {m p} hm => ?_⟩
  by_cases hms : m = s
  · subst hms
    exact absurd hm (not_follows_of_free (PerSurface.get_set_self _ _ _))
  · exact h.keepsUp ((follows_set_of_ne hms).mp hm)

theorem Consistent.set_mirror (h : Consistent links screens) {source : Surface}
    (accepted : links.refusal? s (.mirror source) = .none) :
    Consistent (links.set s (.mirror source))
      (propagate (links.set s (.mirror source)) s now (screens.copy source s now)) := by
  have forest : Forest (links.set s (.mirror source)) := h.forest.set accepted
  refine forest.consistent_propagate fun {m p} hm hb => ?_
  by_cases hms : m = s
  · -- the new link itself: the screen has just been copied from its source
    subst hms
    obtain rfl : source = p := follows_set_self.mp hm
    have hne : source ≠ m := (forest.ne_of_below hm.below).symm
    simp only [Screens.copy, PerSurface.get_set_self, PerSurface.get_set_of_ne _ hne]
    exact Screen.copy_keepsUpWith _ _ _
  · have hps : p ≠ s := by
      rintro rfl
      exact hb hm.below
    simp only [Screens.copy, PerSurface.get_set_of_ne _ hms, PerSurface.get_set_of_ne _ hps]
    exact h.keepsUp ((follows_set_of_ne hms).mp hm)

end Links

namespace Desk

variable {ω : Type} {d : Desk ω}

def Consistent (d : Desk ω) : Prop := d.links.Consistent d.screens

theorem consistent_initial (screen : Screen) (clock : Clock) (windows : ω) :
    (Desk.initial screen clock windows).Consistent := Links.consistent_none screen

theorem Consistent.edit (h : d.Consistent) (target : Surface) (e : Edit) (policy : Policy) :
    (d.edit target e policy).2.Consistent := by
  rcases d.edit_cases target e policy with ⟨reason, -, heq⟩ | ⟨s, hroute, heq⟩
  · rw [heq]
    exact h
  · rw [heq]
    exact Links.Consistent.write h (free_of_route_eq_apply h.forest hroute) _

theorem Consistent.setLink (h : d.Consistent) (s : Surface) (link : Link) :
    (d.setLink s link).2.Consistent := by
  rcases d.setLink_cases s link with ⟨refusal, -, heq⟩ | ⟨-, heq⟩ | ⟨source, rfl, accepted, heq⟩
  · rw [heq]
    exact h
  · rw [heq]
    exact Links.Consistent.set_free h s
  · rw [heq]
    exact Links.Consistent.set_mirror h accepted

theorem Consistent.mergeLive (h : d.Consistent) (patch : Live.Patch) :
    (d.mergeLive patch).2.Consistent := by
  have hmerging : (d.merging patch).Consistent := h
  rw [mergeLive_eq, applyLiveMode_eq hmerging.forest]
  split_ifs
  · exact h
  · exact Links.Consistent.write hmerging (hmerging.forest.root_free _) _

variable [Windows ω]

theorem Reachable.consistent (h : d.Reachable) : d.Consistent := by
  refine h.of_stepwise consistent_initial ?_ fun d o hd => hd
  exact {
    refl := fun _ hd => hd
    trans := fun hab hbc hd => hbc (hab hd)
    edit := fun _ target e policy hd => hd.edit target e policy
    setLink := fun _ s link hd => hd.setLink s link
    mergeLive := fun _ patch hd => hd.mergeLive patch
    windowChanged := fun _ _ _ hd => hd
    windows := fun _ _ hd => hd }

/-- The chain of links of each surface ends at its root, and a mirror shows all that its source
and its root show, written no earlier than on its source. -/
theorem Reachable.mirrors_keep_up (h : d.Reachable) (s : Surface) :
    d.links.Under s (d.links.root s) ∧ d.links.get (d.links.root s) = .free ∧
      ∀ source, d.links.get s = .mirror source →
        (d.screens.get s).display = (d.screens.get source).display ∧
        (d.screens.get s).display = (d.screens.get (d.links.root s)).display ∧
        (d.screens.get source).updatedAt ≤ (d.screens.get s).updatedAt := by
  have hd := h.consistent
  refine ⟨d.links.under_root s, hd.forest.root_free s, fun source hs => ?_⟩
  have hsource := hd.keepsUp hs
  have hroot := hd.of_under (d.links.under_root s)
  exact ⟨hsource.1, hroot.1, hsource.2⟩

theorem mirrors_keep_up_rehearsal :
    (opening.run rehearsal).Reachable ∧
      (opening.run rehearsal).links.get .c = .mirror .b ∧
      ((opening.run rehearsal).screens.get .c).display =
        ((opening.run rehearsal).screens.get .b).display ∧
      ((opening.run rehearsal).screens.get .c).display =
        ((opening.run rehearsal).screens.get ((opening.run rehearsal).links.root .c)).display ∧
      ((opening.run rehearsal).screens.get .b).updatedAt ≤
        ((opening.run rehearsal).screens.get .c).updatedAt := by
  have hlink : (opening.run rehearsal).links.get .c = .mirror .b := by rfl
  have hmirror := (Reachable.mirrors_keep_up reachable_rehearsal .c).2.2 .b hlink
  exact ⟨reachable_rehearsal, hlink, hmirror⟩

end Desk
end Lectern
