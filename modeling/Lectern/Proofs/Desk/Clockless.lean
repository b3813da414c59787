import Lectern.Proofs.Desk.Replica
import Lectern.Proofs.Untimed

/-!
# The clock is never seen

Two desks that only times can tell apart go on to be so, whatever their clocks show: no route,
no blank mode, no cursor and no role depends on a time. The same operations therefore lead to
the same displays, links, live states, windows, answers and events when the times are left out.
-/

namespace Lectern

open Projection

/-- All surfaces show the same. -/
def Projection.Screens.Alike (x y : Screens) : Prop := ∀ s, (x.get s).display = (y.get s).display

section Screens

variable {x y : Screens} {a b : Screen} {now now' : Int}

theorem Projection.Screens.Alike.set (h : x.Alike y) (hab : a.display = b.display) (s : Surface) :
    Screens.Alike (x.set s a) (y.set s b) := by
  intro m
  by_cases hm : m = s
  · subst hm
    rwa [PerSurface.get_set_self, PerSurface.get_set_self]
  · rw [PerSurface.get_set_of_ne _ hm, PerSurface.get_set_of_ne _ hm]
    exact h m

theorem Projection.Screens.Alike.write (h : x.Alike y) (s : Surface)
    (change : Display → Display) : (x.write s now change).Alike (y.write s now' change) :=
  h.set (congrArg change (h s)) s

theorem Projection.Screens.Alike.copy (h : x.Alike y) (source s : Surface) :
    (x.copy source s now).Alike (y.copy source s now') := by
  have hdisplay : ((x.get s).copy (x.get source) now).display =
      ((y.get s).copy (y.get source) now').display := h source
  exact h.set hdisplay s

theorem Projection.Screens.Alike.propagate (h : x.Alike y) (links : Links) (s : Surface) :
    (links.propagate s now x).Alike (links.propagate s now' y) := by
  show (Links.copyAll now (links.spread s) x).Alike (Links.copyAll now' (links.spread s) y)
  induction links.spread s generalizing x y with
  | nil => exact h
  | cons c copies ih => exact ih (h.copy c.1 c.2)

theorem Projection.Screens.Alike.announced (h : x.Alike y) (surfaces : List Surface) :
    (surfaces.map fun s => Event.screen s (x.get s)).map Event.untimed =
      (surfaces.map fun s => Event.screen s (y.get s)).map Event.untimed := by
  rw [List.map_map, List.map_map]
  exact List.map_congr_left fun s _ => congrArg (Event.screen s) (Screen.untimed_eq_iff.mpr (h s))

end Screens

theorem Move.patch_untimed (move : Move) (live : Live.State) :
    move.patch live.untimed = move.patch live := by
  cases move <;> rfl

/-- A patch may be computed from the live state, but not from its time. -/
def Operation.IgnoresTimes {ω : Type} : Operation ω → Prop
  | merge patch => ∀ live, patch live.untimed = patch live
  | _ => True

/-- The patches that the live state is updated with: any that is given, and those that are
computed from the live state. -/
inductive Live.Update where
  | given (patch : Patch)
  | next
  | prev
  | toggle
  | toggleBlack
  | toggleWhite
  | lock (s : Surface) (locked : Bool)

def Live.Update.patch : Update → State → Patch
  | given patch, _ => patch
  | next, live => live.next
  | prev, live => live.prev
  | toggle, live => live.toggle
  | toggleBlack, live => live.toggleBlack
  | toggleWhite, live => live.toggleWhite
  | lock s locked, live => live.lock s locked

theorem Live.Update.ignoresTimes {ω : Type} (update : Update) :
    (Operation.merge update.patch : Operation ω).IgnoresTimes := by
  intro live
  cases update <;> rfl

/-- Windows together with a record of the surfaces they have been asked to open. -/
structure Windows.Recorded (ω : Type) where
  windows : ω
  asked : List Surface

instance {ω : Type} [Windows ω] : Windows (Windows.Recorded ω) where
  isOpen r s := Windows.isOpen r.windows s
  openSurface r s :=
    let (ok, windows) := Windows.openSurface r.windows s
    (ok, ⟨windows, r.asked ++ [s]⟩)

namespace Desk

variable {ω : Type} {d d' : Desk ω}

/-- Only times and clocks tell the two desks apart. -/
structure Alike (d d' : Desk ω) : Prop where
  screens : d.screens.Alike d'.screens
  links : d.links = d'.links
  live : d.live.untimed = d'.live.untimed
  hub : d.hub.untimed = d'.hub.untimed
  windows : d.windows = d'.windows

/-- Two results on two desks, with the same to be seen of them through `erase`. -/
structure Agreed {α β : Type} (erase : α → β) (r r' : α × Desk ω) : Prop where
  answer : erase r.1 = erase r'.1
  desk : r.2.Alike r'.2

namespace Alike

/-- The clock itself is not seen. -/
theorem setClock (d : Desk ω) (clock : Clock) : d.Alike { d with clock } :=
  ⟨fun _ => rfl, rfl, rfl, rfl, rfl⟩

theorem locks (h : d.Alike d') : d.live.locks = d'.live.locks :=
  show d.live.untimed.locks = d'.live.untimed.locks from congrArg Live.State.locks h.live

theorem target (h : d.Alike d') : d.live.target = d'.live.target :=
  show d.live.untimed.target = d'.live.untimed.target from congrArg Live.State.target h.live

theorem mode (h : d.Alike d') : d.live.mode = d'.live.mode :=
  show d.live.untimed.mode = d'.live.untimed.mode from congrArg Live.State.mode h.live

theorem route (h : d.Alike d') (target : Surface) (policy : Policy) :
    d.route target policy = d'.route target policy := by
  rw [Desk.route, Desk.route, h.locks, h.links]

theorem publish (h : d.Alike d') {e e' : Event} (he : e.untimed = e'.untimed) :
    (d.publish e).Alike (d'.publish e') where
  __ := h
  hub := by
    simp only [Desk.publish, Hub.untimed_publish, h.hub, he]

theorem announce (h : d.Alike d') (surfaces : List Surface) :
    (d.announce surfaces).Alike (d'.announce surfaces) where
  __ := h
  hub := by
    simp only [Desk.announce, Hub.untimed_publishAll, h.hub, h.screens.announced]

theorem handed (h : d.Alike d') (o : Observation) (id : Nat) :
    (o.handed id d.hub).map Event.untimed = (o.handed id d'.hub).map Event.untimed := by
  rw [← o.handed_untimed, ← o.handed_untimed, h.hub]

/-- The same screens and links on both desks, whatever has been read from the clocks. -/
theorem showing (h : d.Alike d') {x y : Screens} (hxy : x.Alike y) (links : Links)
    (clock clock' : Clock) :
    Alike { d with screens := x, links := links, clock := clock }
      { d' with screens := y, links := links, clock := clock' } :=
  ⟨hxy, rfl, h.live, h.hub, h.windows⟩

theorem write (h : d.Alike d') (s : Surface) (change : Display → Display) :
    (d.write s change).Alike (d'.write s change) := by
  have hwritten : (d.screens.write s d.clock.now change).Alike
      (d'.screens.write s d'.clock.now change) := h.screens.write s change
  unfold Desk.write
  rw [← h.links]
  exact (h.showing (hwritten.propagate d.links s) d.links d.clock.tick d'.clock.tick).announce _

theorem mirroring (h : d.Alike d') (s source : Surface) :
    (d.mirroring s source).Alike (d'.mirroring s source) := by
  have hcopied : (d.screens.copy source s d.clock.now).Alike
      (d'.screens.copy source s d'.clock.now) := h.screens.copy source s
  unfold Desk.mirroring
  rw [← h.links]
  exact (h.showing (hcopied.propagate _ s) _ d.clock.tick d'.clock.tick).announce _

theorem edit (h : d.Alike d') (target : Surface) (e : Edit) (policy : Policy) :
    Agreed Outcome.untimed (d.edit target e policy) (d'.edit target e policy) := by
  unfold Desk.edit
  rw [h.route]
  cases d'.route target policy with
  | refused reason => exact ⟨rfl, h⟩
  | apply s =>
    have hwrite := h.write s e.apply
    exact ⟨Outcome.untimed_applied (hwrite.screens s), hwrite⟩

theorem setLink (h : d.Alike d') (s : Surface) (link : Link) :
    Agreed (Except.map Screen.untimed) (d.setLink s link) (d'.setLink s link) := by
  rw [setLink_eq, setLink_eq, ← h.links]
  cases d.links.refusal? s link with
  | some refusal => exact ⟨rfl, h.showing h.screens d.links _ _⟩
  | none =>
    cases link with
    | free =>
      refine ⟨congrArg Except.ok (Screen.untimed_eq_iff.mpr (h.screens s)), ?_⟩
      exact h.showing h.screens _ _ _
    | mirror source =>
      have hmirroring := h.mirroring s source
      exact ⟨congrArg Except.ok (Screen.untimed_eq_iff.mpr (hmirroring.screens s)), hmirroring⟩

theorem applyLiveMode (h : d.Alike d') : d.applyLiveMode.Alike d'.applyLiveMode := by
  unfold Desk.applyLiveMode
  rw [h.route, h.target, h.mode]
  cases d'.route d'.live.target .redirect with
  | refused reason => exact h
  | apply s =>
    dsimp only
    rw [h.screens s]
    split_ifs
    · exact h
    · exact (h.edit s _ _).desk

theorem mergeLive (h : d.Alike d') (patch : Live.Patch) :
    Agreed Live.State.untimed (d.mergeLive patch) (d'.mergeLive patch) := by
  have hlive : (d.live.merge patch d.clock.now).untimed =
      (d'.live.merge patch d'.clock.now).untimed := by
    rw [Live.State.untimed_merge, Live.State.untimed_merge, h.live]
  have hmerging : (d.merging patch).Alike (d'.merging patch) :=
    ⟨h.screens, h.links, hlive, h.hub, h.windows⟩
  rw [mergeLive_eq, mergeLive_eq]
  exact ⟨hlive, hmerging.applyLiveMode.publish (congrArg Event.live hlive)⟩

/-- The item at the cursor is found by what a live state is without its time. -/
theorem itemAtCursor (h : d.Alike d') (sources : Sources) (planId : String)
    {live live' : Live.State} (hlive : live.untimed = live'.untimed) :
    Agreed (Except.map fun shown => (shown.1.untimed, shown.2))
      (d.itemAtCursor sources planId live) (d'.itemAtCursor sources planId live') := by
  have hcursor : live.untimed.cursor = live'.untimed.cursor := congrArg Live.State.cursor hlive
  unfold Desk.itemAtCursor
  rcases sources.library.plan planId with failure | _ | plan
  · exact ⟨rfl, h⟩
  · exact ⟨congrArg (fun live => Except.ok (live, none)) hlive, h⟩
  · set last : Int := plan.ordered.length - 1
    have hmoved : Agreed Live.State.untimed
        (if 0 ≤ last ∧ last < live.cursor then d.mergeLive (.moveTo last) else (live, d))
        (if 0 ≤ last ∧ last < live'.cursor then d'.mergeLive (.moveTo last) else (live', d')) := by
      rw [show live'.cursor = live.cursor from hcursor.symm]
      split_ifs
      · exact h.mergeLive (.moveTo last)
      · exact ⟨hlive, h⟩
    -- whether the cursor is moved back does not matter any more, only what the two agree in
    dsimp only
    generalize (if 0 ≤ last ∧ last < live.cursor then d.mergeLive (.moveTo last)
      else (live, d)) = r at hmoved
    generalize (if 0 ≤ last ∧ last < live'.cursor then d'.mergeLive (.moveTo last)
      else (live', d')) = r' at hmoved
    have hposition : r.1.untimed.cursor = r'.1.untimed.cursor :=
      congrArg Live.State.cursor hmoved.answer
    refine ⟨congrArg Except.ok (Prod.ext hmoved.answer ?_), hmoved.desk⟩
    exact congrArg (fun cursor : Int => plan.ordered[(max cursor 0).toNat]?) hposition

variable [Windows ω]

theorem ensureOpen (h : d.Alike d') (s : Surface) : (d.ensureOpen s).Alike (d'.ensureOpen s) := by
  unfold Desk.ensureOpen
  rw [h.windows]
  have hwindows : ∀ windows : ω, Alike { d with windows } { d' with windows } :=
    fun _ => ⟨h.screens, h.links, h.live, h.hub, rfl⟩
  dsimp only
  split_ifs
  · exact h
  · exact (hwindows _).publish rfl
  · exact hwindows _

theorem project (h : d.Alike d') (target : Surface) (slide : Slide) :
    Agreed Outcome.untimed (d.project target slide) (d'.project target slide) := by
  unfold Desk.project
  rw [h.route]
  cases d'.route target .redirect with
  | refused reason => exact h.edit target slide.edit .redirect
  | apply s => exact (h.ensureOpen s).edit target slide.edit .redirect

theorem projectCursor (h : d.Alike d') (sources : Sources) {live live' : Live.State}
    (hlive : live.untimed = live'.untimed) :
    Agreed (Except.map Navigated.untimed) (d.projectCursor sources live)
      (d'.projectCursor sources live') := by
  have hplan : live.untimed.activePlan = live'.untimed.activePlan :=
    congrArg Live.State.activePlan hlive
  unfold Desk.projectCursor
  rw [show live'.activePlan = live.activePlan from hplan.symm]
  cases live.activePlan with
  | none => exact ⟨congrArg Except.ok (Navigated.untimed_congr hlive rfl), h⟩
  | some planId =>
    have hitem := h.itemAtCursor sources planId hlive
    dsimp only
    generalize d.itemAtCursor sources planId live = r at hitem
    generalize d'.itemAtCursor sources planId live' = r' at hitem
    -- both fail in the same way or both come to the same item
    obtain ⟨failure | ⟨shown, item⟩, e⟩ := r
    · obtain ⟨failure' | ⟨shown', item'⟩, e'⟩ := r'
      · cases hitem.answer
        exact ⟨rfl, hitem.desk⟩
      · cases hitem.answer
    · obtain ⟨failure' | ⟨shown', item'⟩, e'⟩ := r'
      · cases hitem.answer
      · obtain ⟨hshown, rfl⟩ := Prod.mk.inj (Except.ok.inj hitem.answer)
        cases item with
        | none => exact ⟨congrArg Except.ok (Navigated.untimed_congr hshown rfl), hitem.desk⟩
        | some item =>
          have htarget : shown.untimed.target = shown'.untimed.target :=
            congrArg Live.State.target hshown
          have hprojected := hitem.desk.project shown.target (item.slide sources)
          have houtcome := congrArg some hprojected.answer
          dsimp only [Desk.projectItem]
          rw [show shown'.target = shown.target from htarget.symm]
          exact ⟨congrArg Except.ok (Navigated.untimed_congr hshown houtcome), hprojected.desk⟩

theorem navigate (h : d.Alike d') (sources : Sources) (move : Move) :
    Agreed (Except.map Navigated.untimed) (d.navigate sources move) (d'.navigate sources move) := by
  have hpatch : move.patch d.live.untimed = move.patch d'.live.untimed :=
    congrArg (Move.patch · move) h.live
  rw [move.patch_untimed, move.patch_untimed] at hpatch
  rw [navigate_eq, navigate_eq, hpatch]
  have hmerged := h.mergeLive (move.patch d'.live)
  exact hmerged.desk.projectCursor sources hmerged.answer

/-- One operation leads to the same and returns the same on both desks. -/
theorem perform (h : d.Alike d') {operation : Operation ω} (ignores : operation.IgnoresTimes) :
    (d.perform operation).Alike (d'.perform operation) ∧
      (d.answer operation).untimed = (d'.answer operation).untimed := by
  cases operation with
  | edit target e policy =>
    have hedit := h.edit target e policy
    exact ⟨hedit.desk, congrArg Answer.outcome hedit.answer⟩
  | setLink s link =>
    have hlink := h.setLink s link
    exact ⟨hlink.desk, congrArg Answer.link hlink.answer⟩
  | project target slide =>
    have hproject := h.project target slide
    exact ⟨hproject.desk, congrArg Answer.outcome hproject.answer⟩
  | projectItem sources target item =>
    have hproject := h.project target (item.slide sources)
    exact ⟨hproject.desk, congrArg Answer.outcome hproject.answer⟩
  | merge patch =>
    have hpatch : patch d.live = patch d'.live := by rw [← ignores, h.live, ignores]
    have hmerge := h.mergeLive (patch d.live)
    rw [Desk.perform, Desk.perform, answer, answer, ← hpatch]
    exact ⟨hmerge.desk, congrArg Answer.live hmerge.answer⟩
  | navigate sources move =>
    have hnavigate := h.navigate sources move
    exact ⟨hnavigate.desk, congrArg Answer.navigation hnavigate.answer⟩
  | windowChanged s isOpen => exact ⟨h.publish rfl, rfl⟩
  | changeWindows change =>
    exact ⟨⟨h.screens, h.links, h.live, h.hub, congrArg change h.windows⟩, rfl⟩
  | observe o =>
    have hhub : (o.apply d.hub).untimed = (o.apply d'.hub).untimed := by
      rw [o.untimed_apply, o.untimed_apply, h.hub]
    exact ⟨⟨h.screens, h.links, h.live, hhub, h.windows⟩, rfl⟩

variable {operations : List (Operation ω)}

theorem run (h : d.Alike d') (ignore : ∀ operation ∈ operations, operation.IgnoresTimes) :
    (d.run operations).Alike (d'.run operations) := by
  induction operations generalizing d d' with
  | nil => exact h
  | cons operation rest ih =>
    obtain ⟨hoperation, hrest⟩ := List.forall_mem_cons.mp ignore
    exact ih (h.perform hoperation).1 hrest

theorem answers (h : d.Alike d') (ignore : ∀ operation ∈ operations, operation.IgnoresTimes) :
    (d.answers operations).map Answer.untimed = (d'.answers operations).map Answer.untimed := by
  induction operations generalizing d d' with
  | nil => rfl
  | cons operation rest ih =>
    obtain ⟨hoperation, hrest⟩ := List.forall_mem_cons.mp ignore
    obtain ⟨hperform, hanswer⟩ := h.perform hoperation
    exact congrArg₂ List.cons hanswer (ih hperform hrest)

theorem delivered (h : d.Alike d') (ignore : ∀ operation ∈ operations, operation.IgnoresTimes)
    (id : Nat) :
    (d.delivered id operations).map Event.untimed =
      (d'.delivered id operations).map Event.untimed := by
  induction operations generalizing d d' with
  | nil =>
    show (d.hub.queue id).map Event.untimed = (d'.hub.queue id).map Event.untimed
    rw [← Hub.queue_untimed, ← Hub.queue_untimed, h.hub]
  | cons operation rest ih =>
    obtain ⟨hoperation, hrest⟩ := List.forall_mem_cons.mp ignore
    have hnext := ih (h.perform hoperation).1 hrest
    by_cases hobserve : ∃ o, operation = .observe o
    · obtain ⟨o, rfl⟩ := hobserve
      rw [delivered_observe, delivered_observe, List.map_append, List.map_append, hnext,
        h.handed o id]
    · have hop : ∀ o, operation ≠ .observe o := fun o ho => hobserve ⟨o, ho⟩
      rwa [delivered_cons_of_ne hop, delivered_cons_of_ne hop]

end Alike

section Clocks

variable [Windows ω]

/-- Another clock makes no difference but in times. After each step the screens, the links, the
live state, the waiting events and the windows are the same; so is what the operations return,
what each subscription is told of, and which windows are asked for, if they keep a record. -/
theorem clock_unseen (d : Desk ω) (clock : Clock) :
    (∀ update : Live.Update, (Operation.merge update.patch : Operation ω).IgnoresTimes) ∧
    (∀ operations : List (Operation ω), (∀ operation ∈ operations, operation.IgnoresTimes) →
      (∀ steps, (d.run (operations.take steps)).Alike
        ({ d with clock }.run (operations.take steps))) ∧
      (d.answers operations).map Answer.untimed =
        ({ d with clock }.answers operations).map Answer.untimed ∧
      ∀ id, (d.delivered id operations).map Event.untimed =
        ({ d with clock }.delivered id operations).map Event.untimed) ∧
    ∀ (r : Desk (Windows.Recorded ω)) (operations : List (Operation (Windows.Recorded ω))),
      (∀ operation ∈ operations, operation.IgnoresTimes) →
      (r.run operations).windows.asked = ({ r with clock }.run operations).windows.asked := by
  have halike := Alike.setClock d clock
  refine ⟨Live.Update.ignoresTimes, fun operations ignore => ⟨fun steps => ?_, ?_, ?_⟩, ?_⟩
  · exact halike.run fun operation h => ignore operation (List.mem_of_mem_take h)
  · exact halike.answers ignore
  · exact halike.delivered ignore
  · intro r operations ignore
    have hrecorded := (Alike.setClock r clock).run ignore
    exact congrArg Windows.Recorded.asked hrecorded.windows

end Clocks

/-- The opening with a record of the windows asked for. -/
def recordedOpening : Desk (Windows.Recorded Windows.Registry) :=
  .initial .default (Clock.steady 1000 (-1)) ⟨Windows.Registry.empty, []⟩

/-- C mirrors A and is watched, a text is projected on C, and then the screen goes black. -/
def recordedRehearsal : List (Operation (Windows.Recorded Windows.Registry)) :=
  [.observe (.subscribe (.display .c)), .setLink .c (.mirror .a),
    .project .c (.text ⟨some "Welcome", "Please be seated.", none⟩),
    .merge Live.State.toggleBlack]

/-- Other times on C, but the same displays, and the window of A is asked for once. -/
theorem clock_unseen_rehearsal :
    (∀ operation ∈ recordedRehearsal, operation.IgnoresTimes) ∧
      (recordedOpening.run recordedRehearsal).screens.get .c ≠
        ({ recordedOpening with clock := Clock.steady 0 5 }.run recordedRehearsal).screens.get .c ∧
      (recordedOpening.run recordedRehearsal).Alike
        ({ recordedOpening with clock := Clock.steady 0 5 }.run recordedRehearsal) ∧
      ({ recordedOpening with clock := Clock.steady 0 5 }.run recordedRehearsal).windows.asked =
        [.a] := by
  have ignore : ∀ operation ∈ recordedRehearsal, operation.IgnoresTimes := by
    simp [recordedRehearsal, Operation.IgnoresTimes, Live.State.untimed, Live.State.toggleBlack]
  have hsteps := ((recordedOpening.clock_unseen (Clock.steady 0 5)).2.1 recordedRehearsal ignore).1
  have hasked := (opening.clock_unseen (Clock.steady 0 5)).2.2 recordedOpening recordedRehearsal
    ignore
  refine ⟨ignore, fun h => ?_, hsteps 4, hasked.symm.trans rfl⟩
  exact absurd (congrArg Screen.updatedAt h) (by decide)

end Desk
end Lectern
