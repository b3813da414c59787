import Lectern.Proofs.Desk.Clockless
import Lectern.Proofs.Desk.Edits

/-!
# Edits in different trees

Where an edit goes depends on the locks and the links, which no edit changes, and what it
changes is what the tree of its root shows. Of two edits whose targets have different roots
neither sees the other: in either order they are answered alike and leave the same displays.
Only the times tell the two orders apart.
-/

namespace Lectern

open Projection

namespace Desk

variable {ω : Type} {d : Desk ω} {r s target target' : Surface} {policy policy' : Policy}

@[simp] theorem edit_links (d : Desk ω) (target : Surface) (e : Edit) (policy : Policy) :
    (d.edit target e policy).2.links = d.links := by
  rcases d.edit_cases target e policy with ⟨reason, -, heq⟩ | ⟨s, -, heq⟩
  · rw [heq]
  · rw [heq, write_links]

/-- An edit leaves all ways as they are. -/
theorem route_edit (d : Desk ω) (target : Surface) (e : Edit) (policy : Policy) :
    (d.edit target e policy).2.route = d.route := by
  funext target' policy'
  rw [route, route, edit_live, edit_links]

/-- Edits go to roots of their targets only. -/
theorem route_ne_apply (apart : d.links.root target ≠ r) : d.route target policy ≠ .apply r :=
  fun h => apart (route_eq_apply h).1.symm

/-- A surface shows what its root is edited to if the edit goes there, and what it showed if
not. -/
theorem display_edit (forest : d.links.Forest) (e : Edit) (s : Surface) :
    ((d.edit target e policy).2.screens.get s).display =
      if d.route target policy = .apply (d.links.root s) then
        e.apply (d.screens.get (d.links.root s)).display
      else (d.screens.get s).display := by
  cases hroute : d.route target policy with
  | refused reason => rw [edit_of_refused hroute, if_neg Route.noConfusion]
  | apply r =>
    have free : d.links.get r = .free := free_of_route_eq_apply forest hroute
    rw [edit_of_apply hroute]
    by_cases tree : d.links.root s = r
    · subst tree
      rw [if_pos rfl]
      exact write_display_of_under forest (Links.under_root d.links s)
    · rw [if_neg fun h => tree (Route.apply.inj h).symm,
        get_write_of_not_under forest fun hu => tree ((forest.root_eq_iff free).mpr hu)]

/-- Nothing changes in the trees of other roots. -/
theorem display_edit_of_apart (forest : d.links.Forest)
    (apart : d.links.root target ≠ d.links.root s) (e : Edit) :
    ((d.edit target e policy).2.screens.get s).display = (d.screens.get s).display := by
  rw [display_edit forest, if_neg (route_ne_apply apart)]

theorem untimed_edit_of_apply (forest : d.links.Forest) (h : d.route target policy = .apply r)
    (e : Edit) :
    (d.edit target e policy).1.untimed =
      (Outcome.applied r ⟨e.apply (d.screens.get r).display, 0⟩).untimed := by
  rw [edit_of_apply h]
  refine Outcome.untimed_applied ?_
  rw [get_write_self forest, Screen.write_display]

/-- The answer to an edit does not depend on one in another tree. -/
theorem untimed_edit_edit (forest : d.links.Forest)
    (apart : d.links.root target ≠ d.links.root target') (e e' : Edit) :
    ((d.edit target' e' policy').2.edit target e policy).1.untimed =
      (d.edit target e policy).1.untimed := by
  have forest' : (d.edit target' e' policy').2.links.Forest := by rwa [edit_links]
  have hroute : (d.edit target' e' policy').2.route target policy = d.route target policy := by
    rw [route_edit]
  cases h : d.route target policy with
  | refused reason =>
    rw [edit_of_refused h, edit_of_refused (hroute.trans h)]
  | apply r =>
    have hr : d.links.root r = d.links.root target := by
      rw [(route_eq_apply h).1, forest.root_root]
    rw [untimed_edit_of_apply forest h, untimed_edit_of_apply forest' (hroute.trans h),
      display_edit_of_apart forest (hr ▸ apart.symm)]

/-- What the surface shows depends only on an edit in its own tree, made before the other one or
after it. -/
theorem display_edit_edit (forest : d.links.Forest) (other : d.links.root target' ≠ d.links.root s)
    (e e' : Edit) :
    (((d.edit target e policy).2.edit target' e' policy').2.screens.get s).display =
        ((d.edit target e policy).2.screens.get s).display ∧
      (((d.edit target' e' policy').2.edit target e policy).2.screens.get s).display =
        ((d.edit target e policy).2.screens.get s).display := by
  constructor
  · exact display_edit_of_apart (by rwa [edit_links]) (by rwa [edit_links]) e'
  · have hown : ((d.edit target' e' policy').2.screens.get s).display =
        (d.screens.get s).display := display_edit_of_apart forest other e'
    have hsource : ((d.edit target' e' policy').2.screens.get (d.links.root s)).display =
        (d.screens.get (d.links.root s)).display :=
      display_edit_of_apart forest (by rwa [forest.root_root]) e'
    rw [display_edit (by rwa [edit_links]), route_edit, edit_links, hsource, hown,
      display_edit forest]

theorem alike_edit_edit (forest : d.links.Forest)
    (apart : d.links.root target ≠ d.links.root target') (e e' : Edit) :
    ((d.edit target e policy).2.edit target' e' policy').2.screens.Alike
      ((d.edit target' e' policy').2.edit target e policy).2.screens := by
  intro s
  by_cases own : d.links.root target = d.links.root s
  · obtain ⟨after, before⟩ := display_edit_edit forest (fun h => apart (own.trans h.symm)) e e'
    rw [after, before]
  · obtain ⟨after, before⟩ := display_edit_edit forest own e' e
    rw [after, before]

variable [Windows ω]

/-- Two edits whose targets have different roots are answered alike and leave the same displays,
links and live state in either order. -/
theorem Reachable.edits_commute (h : d.Reachable)
    (apart : d.links.root target ≠ d.links.root target') (e e' : Edit) (policy policy' : Policy) :
    (d.edit target e policy).1.untimed =
        ((d.edit target' e' policy').2.edit target e policy).1.untimed ∧
      ((d.edit target e policy).2.edit target' e' policy').1.untimed =
        (d.edit target' e' policy').1.untimed ∧
      ((d.edit target e policy).2.edit target' e' policy').2.screens.Alike
        ((d.edit target' e' policy').2.edit target e policy).2.screens ∧
      ((d.edit target e policy).2.edit target' e' policy').2.links =
        ((d.edit target' e' policy').2.edit target e policy).2.links ∧
      ((d.edit target e policy).2.edit target' e' policy').2.live =
        ((d.edit target' e' policy').2.edit target e policy).2.live := by
  have forest := h.consistent.forest
  refine ⟨(untimed_edit_edit forest apart e e').symm, untimed_edit_edit forest apart.symm e' e,
    alike_edit_edit forest apart e e', ?_, ?_⟩
  · simp only [edit_links]
  · simp only [edit_live]

/-- A text for B goes to A, which B mirrors; C is blanked before it or after it. -/
theorem edits_commute_beside :
    let d := opening.run [.setLink .b (.mirror .a)]
    let text : Edit := .text ⟨some "Welcome", "Please be seated.", none⟩
    (d.Reachable ∧ d.links.root .b ≠ d.links.root .c) ∧
      (d.edit .b text .redirect).1.ok = true ∧ (d.edit .c (.mode .black) .refuse).1.ok = true ∧
      ((d.edit .b text .redirect).2.edit .c (.mode .black) .refuse).2.screens.Alike
        ((d.edit .c (.mode .black) .refuse).2.edit .b text .redirect).2.screens := by
  intro d text
  have reachable : d.Reachable := reachable_opening.run _
  have apart : d.links.root .b ≠ d.links.root .c := by decide
  exact ⟨⟨reachable, apart⟩, rfl, rfl,
    (reachable.edits_commute apart text (.mode .black) .redirect .refuse).2.2.1⟩

end Desk
end Lectern
