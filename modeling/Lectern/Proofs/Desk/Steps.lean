import Lectern.Desk.Basic
import Lectern.Proofs.Mirroring.Spread

/-!
# What the steps of a desk do

Where an edit is routed to, what a write, a new link and a merge of the live state change,
and what they leave as it is. Later proofs look at a step through these statements only.
-/

namespace Lectern

open Projection

section Route

variable {target s : Surface} {locks : Locks} {links : Links} {policy : Policy}

theorem Link.isMirror_eq_false_iff {link : Link} : link.isMirror = false ↔ link = .free := by
  cases link <;> simp [isMirror, source?]

/-- With redirection the root of the target is written, unless a lock forbids it. -/
theorem route_redirect (target : Surface) (locks : Locks) (links : Links) :
    Lectern.route target locks links .redirect =
      if locks.get target ∨ locks.get (links.root target) then .refused .locked
      else .apply (links.root target) := by
  unfold Lectern.route
  by_cases hlock : locks.get target = true
  · simp [hlock]
  · cases hlink : links.get target with
    | free => simp [hlock, Link.isMirror, Link.source?, Links.root_of_free hlink]
    | mirror source => simp [hlock, Link.isMirror, Link.source?]

/-- Only roots are written, and only those that are not locked. -/
theorem route_eq_apply (h : Lectern.route target locks links policy = .apply s) :
    s = links.root target ∧ locks.get target = false ∧ locks.get s = false := by
  cases policy with
  | redirect =>
    rw [route_redirect] at h
    split_ifs at h with hlock
    cases h
    simpa using hlock
  | refuse =>
    unfold Lectern.route at h
    split_ifs at h with hlock hlink
    · cases h
      have hfree : links.get target = .free :=
        Link.isMirror_eq_false_iff.mp (by simpa using hlink)
      exact ⟨(Links.root_of_free hfree).symm, by simpa using hlock, by simpa using hlock⟩

theorem free_of_route_eq_apply (forest : links.Forest)
    (h : Lectern.route target locks links policy = .apply s) : links.get s = .free :=
  (route_eq_apply h).1 ▸ forest.root_free target

theorem route_of_free (free : links.get s = .free) (unlocked : locks.get s = false) :
    Lectern.route s locks links policy = .apply s := by
  simp [Lectern.route, free, unlocked, Link.isMirror, Link.source?]

end Route

namespace Desk

variable {ω : Type} {d : Desk ω} {s m p target : Surface} {change : Display → Display}

@[simp] theorem publish_screens (d : Desk ω) (e : Event) : (d.publish e).screens = d.screens := rfl

@[simp] theorem publish_links (d : Desk ω) (e : Event) : (d.publish e).links = d.links := rfl

@[simp] theorem publish_live (d : Desk ω) (e : Event) : (d.publish e).live = d.live := rfl

@[simp] theorem publish_windows (d : Desk ω) (e : Event) : (d.publish e).windows = d.windows := rfl

@[simp] theorem write_links (d : Desk ω) (s : Surface) (change : Display → Display) :
    (d.write s change).links = d.links := rfl

@[simp] theorem write_live (d : Desk ω) (s : Surface) (change : Display → Display) :
    (d.write s change).live = d.live := rfl

@[simp] theorem write_windows (d : Desk ω) (s : Surface) (change : Display → Display) :
    (d.write s change).windows = d.windows := rfl

theorem write_screens (d : Desk ω) (s : Surface) (change : Display → Display) :
    (d.write s change).screens =
      d.links.propagate s d.clock.now (d.screens.write s d.clock.now change) := rfl

/-- A write announces the surface written and all it is carried over to, as they are then. -/
theorem write_hub (d : Desk ω) (s : Surface) (change : Display → Display) :
    (d.write s change).hub = d.hub.publishAll
      ((s :: d.links.followers s).map fun r => .screen r ((d.write s change).screens.get r)) := rfl

theorem get_write_self (forest : d.links.Forest) :
    (d.write s change).screens.get s = (d.screens.get s).write d.clock.now change := by
  rw [write_screens, forest.get_propagate_of_not_below (forest s)]
  exact PerSurface.get_set_self _ _ _

theorem get_write_of_not_under (forest : d.links.Forest) (h : ¬ d.links.Under m s) :
    (d.write s change).screens.get m = d.screens.get m := by
  have hne : m ≠ s := fun heq => h (Links.under_iff.mpr (.inl heq))
  rw [write_screens, forest.get_propagate_of_not_below fun hb => h hb.under]
  exact PerSurface.get_set_of_ne _ hne _

theorem get_write_of_follows (forest : d.links.Forest) (h : d.links.Follows m p)
    (hp : d.links.Under p s) :
    (d.write s change).screens.get m =
      (d.screens.get m).copy ((d.write s change).screens.get p) d.clock.now := by
  have hne : m ≠ s := forest.ne_of_below (Links.below_iff.mpr ⟨p, h, hp⟩)
  rw [write_screens, forest.get_propagate_of_follows h hp]
  simp [Screens.write, PerSurface.get_set_of_ne _ hne]

/-- All that is under the surface written shows what it shows. -/
theorem write_display_of_under (forest : d.links.Forest) (h : d.links.Under m s) :
    ((d.write s change).screens.get m).display = change (d.screens.get s).display := by
  induction h using Relation.ReflTransGen.head_induction_on with
  | refl => rw [get_write_self forest, Screen.write_display]
  | head hm hp ih => rw [get_write_of_follows forest hm hp, Screen.copy_display, ih]

theorem edit_cases (d : Desk ω) (target : Surface) (e : Edit) (policy : Policy) :
    (∃ reason, d.route target policy = .refused reason ∧
        d.edit target e policy = (.refused reason, d)) ∨
      ∃ s, d.route target policy = .apply s ∧
        d.edit target e policy =
          (.applied s ((d.write s e.apply).screens.get s), d.write s e.apply) := by
  unfold edit
  cases h : d.route target policy with
  | refused reason => exact .inl ⟨reason, rfl, rfl⟩
  | apply s => exact .inr ⟨s, rfl, rfl⟩

@[simp] theorem edit_live (d : Desk ω) (target : Surface) (e : Edit) (policy : Policy) :
    (d.edit target e policy).2.live = d.live := by
  rcases d.edit_cases target e policy with ⟨reason, -, h⟩ | ⟨s, -, h⟩
  · rw [h]
  · rw [h, write_live]

/-- The desk on which `s` has come to mirror `source`. -/
def mirroring (d : Desk ω) (s source : Surface) : Desk ω :=
  let links : Links := d.links.set s (.mirror source)
  { d with
    links
    screens := links.propagate s d.clock.now (d.screens.copy source s d.clock.now)
    clock := d.clock.tick }.announce (s :: links.followers s)

theorem mirroring_screens (d : Desk ω) (s source : Surface) :
    (d.mirroring s source).screens =
      (d.mirroring s source).links.propagate s d.clock.now
        (d.screens.copy source s d.clock.now) := rfl

theorem mirroring_hub (d : Desk ω) (s source : Surface) :
    (d.mirroring s source).hub = d.hub.publishAll
      ((s :: (d.mirroring s source).links.followers s).map fun r =>
        .screen r ((d.mirroring s source).screens.get r)) := rfl

@[simp] theorem mirroring_links (d : Desk ω) (s source : Surface) :
    (d.mirroring s source).links = d.links.set s (.mirror source) := rfl

@[simp] theorem mirroring_live (d : Desk ω) (s source : Surface) :
    (d.mirroring s source).live = d.live := rfl

/-- The surface that is linked takes over the screen of its source. -/
theorem get_mirroring_self (forest : d.links.Forest) {source : Surface}
    (accepted : d.links.refusal? s (.mirror source) = none) :
    (d.mirroring s source).screens.get s =
      (d.screens.get s).copy (d.screens.get source) d.clock.now := by
  have hforest : (d.mirroring s source).links.Forest := forest.set accepted
  rw [mirroring_screens, hforest.get_propagate_of_not_below (hforest s)]
  exact PerSurface.get_set_self _ _ _

theorem get_mirroring_of_not_under (forest : d.links.Forest) {source : Surface}
    (accepted : d.links.refusal? s (.mirror source) = none) (h : ¬ d.links.Under m s) :
    (d.mirroring s source).screens.get m = d.screens.get m := by
  have hforest : (d.mirroring s source).links.Forest := forest.set accepted
  have hne : m ≠ s := fun heq => h (Links.under_iff.mpr (.inl heq))
  rw [mirroring_screens, hforest.get_propagate_of_not_below fun hb =>
    h (Links.under_set_self.mp hb.under)]
  exact PerSurface.get_set_of_ne _ hne _

theorem get_mirroring_of_follows (forest : d.links.Forest) {source : Surface}
    (accepted : d.links.refusal? s (.mirror source) = none) (hne : m ≠ s)
    (h : d.links.Follows m p) (hp : d.links.Under p s) :
    (d.mirroring s source).screens.get m =
      (d.screens.get m).copy ((d.mirroring s source).screens.get p) d.clock.now := by
  have hforest : (d.mirroring s source).links.Forest := forest.set accepted
  have hfollows : (d.mirroring s source).links.Follows m p := (Links.follows_set_of_ne hne).mpr h
  rw [mirroring_screens,
    hforest.get_propagate_of_follows hfollows (Links.under_set_self.mpr hp)]
  simp [Screens.copy, PerSurface.get_set_of_ne _ hne]

/-- All that is under the surface linked shows what its new source shows. -/
theorem mirroring_display_of_under (forest : d.links.Forest) {source : Surface}
    (accepted : d.links.refusal? s (.mirror source) = none) (h : d.links.Under m s) :
    ((d.mirroring s source).screens.get m).display = (d.screens.get source).display := by
  induction h using Relation.ReflTransGen.head_induction_on with
  | refl => rw [get_mirroring_self forest accepted, Screen.copy_display]
  | @head m p hm hp ih =>
    have hne : m ≠ s := forest.ne_of_below (Links.below_iff.mpr ⟨p, hm, hp⟩)
    rw [get_mirroring_of_follows forest accepted hne hm hp, Screen.copy_display, ih]

/-- A link is refused, or a surface is released and nothing is written, or it comes to mirror
its source. The clock is read in any case. -/
theorem setLink_eq (d : Desk ω) (s : Surface) (link : Link) :
    d.setLink s link =
      match d.links.refusal? s link, link with
      | some refusal, _ => (.error refusal, { d with clock := d.clock.tick })
      | none, .free => (.ok (d.screens.get s),
          { d with links := d.links.set s .free, clock := d.clock.tick })
      | none, .mirror source =>
        (.ok ((d.mirroring s source).screens.get s), d.mirroring s source) := by
  unfold setLink Links.relink
  dsimp only
  cases d.links.refusal? s link with
  | some refusal => rfl
  | none =>
    cases link with
    | free => rfl
    | mirror source => rfl

theorem setLink_cases (d : Desk ω) (s : Surface) (link : Link) :
    (∃ refusal, d.links.refusal? s link = some refusal ∧
        d.setLink s link = (.error refusal, { d with clock := d.clock.tick })) ∨
      (link = .free ∧ d.setLink s link =
        (.ok (d.screens.get s),
          { d with links := d.links.set s .free, clock := d.clock.tick })) ∨
      ∃ source, link = .mirror source ∧ d.links.refusal? s link = none ∧
        d.setLink s link =
          (.ok ((d.mirroring s source).screens.get s), d.mirroring s source) := by
  rw [setLink_eq]
  cases d.links.refusal? s link with
  | some refusal => exact .inl ⟨refusal, rfl, rfl⟩
  | none =>
    cases link with
    | free => exact .inr (.inl ⟨rfl, rfl⟩)
    | mirror source => exact .inr (.inr ⟨source, rfl, rfl, rfl⟩)

@[simp] theorem setLink_live (d : Desk ω) (s : Surface) (link : Link) :
    (d.setLink s link).2.live = d.live := by
  rcases d.setLink_cases s link with ⟨refusal, -, h⟩ | ⟨-, h⟩ | ⟨source, -, -, h⟩
  · rw [h]
  · rw [h]
  · rw [h, mirroring_live]

/-- The desk after a merge, before anything is said or shown. -/
def merging (d : Desk ω) (patch : Live.Patch) : Desk ω :=
  { d with live := d.live.merge patch d.clock.now, clock := d.clock.tick }

theorem mergeLive_eq (d : Desk ω) (patch : Live.Patch) :
    d.mergeLive patch =
      ((d.merging patch).live,
        (d.merging patch).applyLiveMode.publish (.live (d.merging patch).live)) := rfl

theorem applyLiveMode_cases (d : Desk ω) :
    d.applyLiveMode = d ∨ ∃ s change, d.applyLiveMode = d.write s change := by
  unfold applyLiveMode
  split
  · split_ifs
    · exact .inl rfl
    · rename_i s _ _
      rcases d.edit_cases s (.mode d.live.mode) .redirect with ⟨_, -, heq⟩ | ⟨r, -, heq⟩
      · exact .inl (by rw [heq])
      · exact .inr ⟨r, _, by rw [heq]⟩
  · exact .inl rfl

@[simp] theorem applyLiveMode_live (d : Desk ω) : d.applyLiveMode.live = d.live := by
  rcases d.applyLiveMode_cases with h | ⟨s, change, h⟩
  · rw [h]
  · rw [h, write_live]

@[simp] theorem applyLiveMode_links (d : Desk ω) : d.applyLiveMode.links = d.links := by
  rcases d.applyLiveMode_cases with h | ⟨s, change, h⟩
  · rw [h]
  · rw [h, write_links]

/-- A merge returns the live state it leaves behind. -/
theorem mergeLive_live (d : Desk ω) (patch : Live.Patch) :
    (d.mergeLive patch).2.live = (d.mergeLive patch).1 := by
  simp [mergeLive_eq]

/-- The blank mode is written on the root of the target, if it is not there and no lock forbids
it; nothing else happens. -/
theorem applyLiveMode_eq (forest : d.links.Forest) :
    d.applyLiveMode =
      if d.live.locks.get d.live.target ∨ d.live.locks.get (d.links.root d.live.target) ∨
          (d.screens.get (d.links.root d.live.target)).display.mode = d.live.mode then d
      else d.write (d.links.root d.live.target) (Edit.mode d.live.mode).apply := by
  have hfree := forest.root_free d.live.target
  unfold applyLiveMode
  rw [show d.route d.live.target .redirect = _ from route_redirect _ _ _]
  by_cases hlock : d.live.locks.get d.live.target ∨
      d.live.locks.get (d.links.root d.live.target)
  · simp [hlock, or_assoc.symm]
  · obtain ⟨htarget, hroot⟩ := not_or.mp hlock
    simp only [htarget, hroot, Bool.false_eq_true, or_self, ↓reduceIte, false_or]
    split_ifs with hmode
    · rfl
    · rcases d.edit_cases (d.links.root d.live.target) (.mode d.live.mode) .redirect with
        ⟨reason, hr, -⟩ | ⟨r, hr, heq⟩
      · rw [show d.route _ _ = _ from route_of_free hfree (by simpa using hroot)] at hr
        cases hr
      · rw [show d.route _ _ = _ from route_of_free hfree (by simpa using hroot)] at hr
        cases hr
        rw [heq]

end Desk
end Lectern
