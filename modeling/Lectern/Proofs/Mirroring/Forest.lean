import Lectern.Mirroring
import Mathlib.Data.Fintype.Card
import Mathlib.Logic.Relation

/-!
# The forest of links

A table of links is a forest when no chain of links comes back to where it began. The
chain of a surface then has fewer links than there are surfaces, so the bounded walks of
`root` and `comesTo` see all of it: the root is free, and a link is refused exactly when
it would close a cycle. Links that are not refused keep the table a forest.
-/

namespace Lectern

instance : Fintype Surface where
  elems := ⟨Surface.all, by decide⟩
  complete := Surface.mem_all

namespace Links

open Relation

variable {links : Links} {s m source goal r : Surface}

/-- `s` mirrors `source` directly. -/
def Follows (links : Links) (s source : Surface) : Prop := links.get s = .mirror source

/-- The chain of links of `s` passes through `source`. -/
def Below (links : Links) (s source : Surface) : Prop := TransGen links.Follows s source

/-- `s` is `source` or below it. -/
def Under (links : Links) (s source : Surface) : Prop := ReflTransGen links.Follows s source

def Forest (links : Links) : Prop := ∀ s, ¬ links.Below s s

theorem Follows.unique (h : links.Follows s m) (h' : links.Follows s r) : m = r :=
  Link.mirror.inj (h.symm.trans h')

theorem not_follows_of_free (h : links.get s = .free) : ¬ links.Follows s m := by
  intro hm
  exact Link.noConfusion (h.symm.trans hm)

theorem Follows.below (h : links.Follows s m) : links.Below s m := TransGen.single h

theorem Below.under (h : links.Below s m) : links.Under s m := TransGen.to_reflTransGen h

theorem under_iff : links.Under s source ↔ s = source ∨ links.Below s source := by
  unfold Under Below
  rw [reflTransGen_iff_eq_or_transGen]
  exact or_congr_left eq_comm

theorem below_iff : links.Below s goal ↔ ∃ m, links.Follows s m ∧ links.Under m goal :=
  TransGen.head'_iff

/-- Links are followed in one way only, so of two surfaces on a chain one is under the other. -/
theorem Under.total (h : links.Under s m) (h' : links.Under s r) :
    links.Under m r ∨ links.Under r m :=
  ReflTransGen.total_of_right_unique (fun _ _ _ => Follows.unique) h h'

theorem Under.eq_of_free (h : links.Under s r) (free : links.get s = .free) : s = r := by
  rcases under_iff.mp h with rfl | hb
  · rfl
  · obtain ⟨m, hm, -⟩ := below_iff.mp hb
    exact absurd hm (not_follows_of_free free)

theorem Forest.ne_of_below (forest : links.Forest) (h : links.Below s m) : s ≠ m := by
  rintro rfl
  exact forest s h

section Height

open Classical in
/-- How many surfaces the chain of links of `s` passes through. -/
noncomputable def height (links : Links) (s : Surface) : Nat :=
  (Finset.univ.filter fun r => links.Below s r).card

theorem Forest.height_lt (forest : links.Forest) (h : links.Follows s m) :
    links.height m < links.height s := by
  classical
  apply Finset.card_lt_card
  refine (Finset.ssubset_iff_of_subset ?_).mpr ⟨m, ?_, ?_⟩
  · intro r hr
    simp only [Finset.mem_filter, Finset.mem_univ, true_and] at hr ⊢
    exact TransGen.head h hr
  · simpa using h.below
  · simpa using forest m

theorem Forest.height_lt_all (forest : links.Forest) (s : Surface) :
    links.height s < Surface.all.length := by
  classical
  apply Finset.card_lt_card (t := Finset.univ)
  refine (Finset.ssubset_iff_of_subset (Finset.subset_univ _)).mpr ⟨s, Finset.mem_univ s, ?_⟩
  simpa using forest s

end Height

theorem under_follow (n : Nat) : ∀ s, links.Under s (links.follow n s) := by
  induction n with
  | zero => intro s; exact ReflTransGen.refl
  | succ n ih =>
    intro s
    cases h : links.get s with
    | free => simp only [follow, h]; exact ReflTransGen.refl
    | mirror m =>
      simp only [follow, h]
      exact ReflTransGen.head h (ih m)

theorem Forest.follow_free (forest : links.Forest) (n : Nat) :
    ∀ s, links.height s ≤ n → links.get (links.follow n s) = .free := by
  induction n with
  | zero =>
    intro s hs
    cases h : links.get s with
    | free => exact h
    | mirror m => have := forest.height_lt (show links.Follows s m from h); omega
  | succ n ih =>
    intro s hs
    cases h : links.get s with
    | free => simp only [follow, h]
    | mirror m =>
      have hm := forest.height_lt (show links.Follows s m from h)
      simp only [follow, h]
      exact ih m (by omega)

/-- The chain of a surface comes to its root. -/
theorem under_root (links : Links) (s : Surface) : links.Under s (links.root s) := under_follow _ s

theorem Forest.root_free (forest : links.Forest) (s : Surface) :
    links.get (links.root s) = .free :=
  forest.follow_free _ s (forest.height_lt_all s).le

theorem Forest.root_eq (forest : links.Forest) (h : links.Under s r)
    (free : links.get r = .free) : links.root s = r := by
  rcases Under.total (links.under_root s) h with hr | hr
  · exact hr.eq_of_free (forest.root_free s)
  · exact (hr.eq_of_free free).symm

theorem root_of_free (free : links.get s = .free) : links.root s = s := by
  simp [root, Surface.all, follow, free]

theorem Forest.root_root (forest : links.Forest) (s : Surface) :
    links.root (links.root s) = links.root s := root_of_free (forest.root_free s)

/-- The tree of a free surface is what is under it. -/
theorem Forest.root_eq_iff (forest : links.Forest) (free : links.get r = .free) :
    links.root s = r ↔ links.Under s r := by
  constructor
  · rintro rfl
    exact links.under_root s
  · intro h
    exact forest.root_eq h free

theorem Forest.comesTo_iff (forest : links.Forest) (n : Nat) :
    ∀ s, links.height s < n → (links.comesTo goal n s = true ↔ links.Below s goal) := by
  induction n with
  | zero => intro s hs; omega
  | succ n ih =>
    intro s hs
    rw [below_iff]
    cases h : links.get s with
    | free =>
      simp only [comesTo, h, Bool.false_eq_true, false_iff]
      rintro ⟨m, hm, -⟩
      exact not_follows_of_free h hm
    | mirror m =>
      have hm : links.Follows s m := h
      have hlt := forest.height_lt hm
      simp only [comesTo, h, Bool.or_eq_true, beq_iff_eq, ih m (by omega), ← under_iff]
      constructor
      · intro hgoal
        exact ⟨m, hm, hgoal⟩
      · rintro ⟨m', hm', hgoal⟩
        exact hm'.unique hm ▸ hgoal

theorem Forest.comesTo_all_iff (forest : links.Forest) :
    links.comesTo goal Surface.all.length s = true ↔ links.Below s goal :=
  forest.comesTo_iff _ s (forest.height_lt_all s)

/-- A link is accepted exactly when the chain of its source does not come to the surface. -/
theorem Forest.refusal?_eq_none_iff (forest : links.Forest) :
    links.refusal? s (.mirror source) = .none ↔ ¬ links.Under source s := by
  rw [under_iff, ← forest.comesTo_all_iff]
  simp only [refusal?]
  split_ifs with hself hcycle
  · simp [hself]
  · simp [hcycle]
  · simp [hself, hcycle]

/-- The reason to refuse a link: the surface would mirror itself, or it is on the chain of links
of its source already. -/
inductive Refuses (links : Links) (s : Surface) : Link → Link.Refusal → Prop
  | itself : Refuses links s (.mirror s) (.selfReference s)
  | ancestor {source : Surface} :
      links.Below source s → Refuses links s (.mirror source) (.cycle s source)

theorem Forest.refusal?_eq_some_iff (forest : links.Forest) {link : Link}
    {refusal : Link.Refusal} :
    links.refusal? s link = some refusal ↔ links.Refuses s link refusal := by
  cases link with
  | free =>
    constructor
    · intro h
      cases h
    · intro h
      cases h
  | mirror source =>
    simp only [refusal?]
    split_ifs with hself hcycle
    · subst hself
      constructor
      · rintro ⟨⟩
        exact .itself
      · rintro (_ | hbelow)
        · rfl
        · exact absurd hbelow (forest source)
    · constructor
      · rintro ⟨⟩
        exact .ancestor (forest.comesTo_all_iff.mp hcycle)
      · rintro (_ | _)
        · exact absurd rfl hself
        · rfl
    · constructor
      · rintro ⟨⟩
      · rintro (_ | hbelow)
        · exact absurd rfl hself
        · exact absurd (forest.comesTo_all_iff.mpr hbelow) hcycle

theorem forest_none : Links.none.Forest := by
  intro s hs
  obtain ⟨m, hm, -⟩ := below_iff.mp hs
  exact not_follows_of_free (PerSurface.get_replicate _ s) hm

theorem follows_set_self : Follows (links.set s (.mirror source)) s m ↔ source = m := by
  simp [Follows]

theorem follows_set_of_ne {link : Link} (h : m ≠ s) :
    Follows (links.set s link) m r ↔ links.Follows m r := by
  simp [Follows, PerSurface.get_set_of_ne _ h]

theorem Under.of_same {links' : Links} (same : ∀ r, r ≠ s → links'.get r = links.get r)
    (h : links.Under m s) : links'.Under m s := by
  induction h using ReflTransGen.head_induction_on with
  | refl => exact ReflTransGen.refl
  | @head m p hm _ ih =>
    by_cases hms : m = s
    · exact hms ▸ ReflTransGen.refl
    · exact ReflTransGen.head ((same m hms).trans hm) ih

/-- What is under a surface does not depend on the link of the surface itself. -/
theorem under_set_self {link : Link} : Under (links.set s link) m s ↔ links.Under m s := by
  have same (r : Surface) (hr : r ≠ s) : (links.set s link).get r = links.get r :=
    PerSurface.get_set_of_ne _ hr _
  exact ⟨Under.of_same fun r hr => (same r hr).symm, Under.of_same same⟩

/-- Chains after a new link either are old ones or run through it. -/
theorem below_set {t : Surface} (h : Below (links.set s (.mirror source)) m t) :
    links.Below m t ∨ (links.Under m s ∧ links.Under source t) := by
  induction h with
  | single hm =>
    rename_i t
    by_cases hs : m = s
    · subst hs
      exact .inr ⟨ReflTransGen.refl, follows_set_self.mp hm ▸ ReflTransGen.refl⟩
    · exact .inl ((follows_set_of_ne hs).mp hm).below
  | tail _ hr ih =>
    rename_i r t _
    by_cases hs : r = s
    · subst hs
      refine .inr ⟨?_, follows_set_self.mp hr ▸ ReflTransGen.refl⟩
      exact ih.elim Below.under And.left
    · have hr' := (follows_set_of_ne hs).mp hr
      refine ih.imp (fun hb => TransGen.tail hb hr') fun hu => ?_
      exact ⟨hu.1, ReflTransGen.tail hu.2 hr'⟩

theorem Forest.set_mirror (forest : links.Forest) (h : ¬ links.Under source s) :
    Forest (links.set s (.mirror source)) := by
  intro m hm
  rcases below_set hm with hb | ⟨hs, hsource⟩
  · exact forest m hb
  · exact h (ReflTransGen.trans hsource hs)

theorem Forest.set_free (forest : links.Forest) (s : Surface) : Forest (links.set s .free) := by
  intro m hm
  refine forest m (TransGen.mono ?_ _ _ hm)
  intro x y hxy
  by_cases hx : x = s
  · subst hx
    exact absurd hxy (not_follows_of_free (by simp))
  · exact (follows_set_of_ne hx).mp hxy

/-- A table stays a forest under each link that is not refused. -/
theorem Forest.set (forest : links.Forest) {link : Link} (h : links.refusal? s link = .none) :
    Forest (links.set s link) := by
  cases link with
  | free => exact forest.set_free s
  | mirror source => exact forest.set_mirror (forest.refusal?_eq_none_iff.mp h)

end Links
end Lectern
