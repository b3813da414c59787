import Lectern.Host
import Lectern.Proofs.Desk.Operation
import Lectern.Proofs.Desk.Steps

/-!
# What becomes of the windows

A command demands that windows be opened or closed, or it demands nothing; the registry
afterwards is what the demands make of it. A change of a window is announced, so whoever knew
how a window stood and goes by the last event about it knows how it stands then.
-/

namespace Lectern

open Projection

/-- What an event says about the window of a surface. -/
def Event.window? (s : Surface) : Event → Option Bool
  | window r isOpen => if r = s then some isOpen else none
  | _ => none

/-- How a window stands for whoever knew how it stood and hears of events. -/
def windowAfter (s : Surface) (known : Bool) (es : List Event) : Bool :=
  es.foldl (fun known e => (e.window? s).getD known) known

section WindowAfter

variable {s : Surface} {es : List Event}

@[simp] theorem windowAfter_nil (s : Surface) (known : Bool) : windowAfter s known [] = known := rfl

theorem windowAfter_append (s : Surface) (known : Bool) (es fs : List Event) :
    windowAfter s known (es ++ fs) = windowAfter s (windowAfter s known es) fs :=
  List.foldl_append

theorem windowAfter_of_silent (silent : ∀ e ∈ es, e.window? s = none) (known : Bool) :
    windowAfter s known es = known := by
  induction es with
  | nil => rfl
  | cons e es ih =>
    have hrest := ih fun f hf => silent f (List.mem_cons_of_mem e hf)
    simpa [windowAfter, silent e List.mem_cons_self] using hrest

end WindowAfter

namespace Windows

/-- The window of a surface is to be opened, or to be closed. -/
structure Demand where
  surface : Surface
  isOpen : Bool

/-- The last demand about a surface is that its window be opened. -/
def Demand.Stands (s : Surface) (demands : List Demand) : Prop :=
  ∃ before after, demands = before ++ ⟨s, true⟩ :: after ∧ ⟨s, false⟩ ∉ after

namespace Demand

variable {s : Surface} {d : Demand} {demands : List Demand}

theorem stands_opening (s : Surface) (demands : List Demand) :
    Stands s (demands ++ [⟨s, true⟩]) :=
  ⟨demands, [], rfl, List.not_mem_nil⟩

/-- A demand behind others is the one that stands, or one of the others does. -/
theorem Stands.of_append (stands : Stands s (demands ++ [d])) :
    d = ⟨s, true⟩ ∨ d ≠ ⟨s, false⟩ ∧ Stands s demands := by
  obtain ⟨before, after, heq, hafter⟩ := stands
  rcases List.eq_nil_or_concat after with rfl | ⟨after, last, rfl⟩
  · exact .inl (by simpa using (List.append_inj' heq rfl).2)
  · rw [List.concat_eq_append, ← List.cons_append, ← List.append_assoc] at heq
    obtain ⟨rfl, hlast⟩ := List.append_inj' heq rfl
    obtain rfl : d = last := by simpa using hlast
    rw [List.concat_eq_append, List.mem_append, not_or] at hafter
    exact .inr ⟨fun hd => hafter.2 (by simp [hd]), before, after, rfl, hafter.1⟩

theorem not_stands_closing (s : Surface) (demands : List Demand) :
    ¬ Stands s (demands ++ [⟨s, false⟩]) := fun stands => by
  rcases stands.of_append with h | ⟨h, -⟩
  · simp at h
  · exact h rfl

theorem stands_append_of_ne (h : s ≠ d.surface) :
    Stands s (demands ++ [d]) ↔ Stands s demands := by
  have ne (isOpen : Bool) : d ≠ ⟨s, isOpen⟩ := fun hd => h (by rw [hd])
  constructor
  · intro stands
    exact (stands.of_append.resolve_left (ne true)).2
  · rintro ⟨before, after, rfl, hafter⟩
    refine ⟨before, after ++ [d], by simp, ?_⟩
    simp [hafter, Ne.symm (ne false)]

theorem not_stands_nil (s : Surface) : ¬ Stands s [] := by
  rintro ⟨before, after, heq, -⟩
  simp at heq

end Demand

namespace Registry

variable {s x : Surface}

theorem get_update (r : Registry) (s x : Surface) (change : Slot → Slot) :
    (r.update s change).2.slots.get x =
      if x = s then change (r.slots.get x) else r.slots.get x := by
  by_cases h : x = s
  · subst h
    simp [update]
  · simp [update, h, PerSurface.get_set_of_ne _ h]

/-- The window of the surface has been demanded, and not given up since. -/
def requested (r : Registry) (s : Surface) : Bool := (r.slots.get s).requested

theorem isOpen_iff (r : Registry) (s : Surface) :
    r.isOpen s = true ↔ 0 < r.connected s ∨ r.requested s = true := by
  simp [isOpen, connected, requested, Slot.isOpen, or_comm]

theorem isOpen_update_of_ne (h : x ≠ s) (r : Registry) (change : Slot → Slot) :
    (r.update s change).2.isOpen x = r.isOpen x := by
  simp [isOpen, get_update, h]

def meet (r : Registry) (d : Demand) : Registry :=
  if d.isOpen then r.openSurface d.surface else r.closeSurface d.surface

theorem meet_eq_update (r : Registry) (d : Demand) :
    r.meet d = (r.update d.surface fun slot => { slot with requested := d.isOpen }).2 := by
  obtain ⟨s, isOpen⟩ := d
  cases isOpen <;> rfl

@[simp] theorem connected_meet (r : Registry) (d : Demand) (s : Surface) :
    (r.meet d).connected s = r.connected s := by
  rw [meet_eq_update, connected, get_update]
  split <;> rfl

theorem requested_meet (r : Registry) (d : Demand) (s : Surface) :
    (r.meet d).requested s = if s = d.surface then d.isOpen else r.requested s := by
  rw [meet_eq_update, requested, get_update]
  split <;> rfl

def meetAll (r : Registry) (demands : List Demand) : Registry := demands.foldl meet r

@[simp] theorem connected_meetAll (r : Registry) (demands : List Demand) (s : Surface) :
    (r.meetAll demands).connected s = r.connected s := by
  induction demands generalizing r with
  | nil => rfl
  | cons d demands ih => exact (ih (r.meet d)).trans (connected_meet r d s)

/-- What is requested is what the last demand says. -/
theorem requested_meetAll {r : Registry} {earlier : List Demand}
    (h : r.requested s = true ↔ Demand.Stands s earlier) (demands : List Demand) :
    (r.meetAll demands).requested s = true ↔ Demand.Stands s (earlier ++ demands) := by
  induction demands generalizing r earlier with
  | nil => simpa [meetAll] using h
  | cons d demands ih =>
    have hstep : (r.meet d).requested s = true ↔ Demand.Stands s (earlier ++ [d]) := by
      rw [requested_meet]
      by_cases hs : s = d.surface
      · obtain ⟨x, isOpen⟩ := d
        obtain rfl : s = x := hs
        cases isOpen with
        | true => simp [Demand.stands_opening]
        | false => simp [Demand.not_stands_closing]
      · rw [if_neg hs, h, Demand.stands_append_of_ne hs]
    have hrest := ih hstep
    rwa [List.append_assoc] at hrest

end Registry
end Windows

namespace Desk

open Windows

variable {ω : Type}

/-- What was published from the first desk to the second says nothing of windows. -/
structure Still (d d' : Desk ω) : Prop where
  windows : d'.windows = d.windows
  published : ∃ es, d'.hub = d.hub.publishAll es ∧ ∀ s, ∀ e ∈ es, e.window? s = none

theorem Still.of_hub {d d' : Desk ω} (windows : d'.windows = d.windows) (hub : d'.hub = d.hub) :
    Still d d' := ⟨windows, [], hub, by simp⟩

theorem Still.refl (d : Desk ω) : Still d d := .of_hub rfl rfl

theorem Still.trans {d d' d'' : Desk ω} (first : Still d d') (second : Still d' d'') :
    Still d d'' := by
  obtain ⟨hwindows, es, hhub, hes⟩ := first
  obtain ⟨hwindows', fs, hhub', hfs⟩ := second
  refine ⟨hwindows'.trans hwindows, es ++ fs, by rw [hhub', hhub, Hub.publishAll_append], ?_⟩
  intro s e he
  rcases List.mem_append.mp he with he | he
  · exact hes s e he
  · exact hfs s e he

/-- Announced screens say nothing of windows. -/
theorem still_write (d : Desk ω) (s : Surface) (change : Display → Display) :
    Still d (d.write s change) :=
  ⟨rfl, _, d.write_hub s change, by simp [Event.window?]⟩

theorem still_edit (d : Desk ω) (target : Surface) (e : Edit) (policy : Policy) :
    Still d (d.edit target e policy).2 := by
  rcases d.edit_cases target e policy with ⟨reason, -, heq⟩ | ⟨s, -, heq⟩
  · rw [heq]
    exact .refl d
  · rw [heq]
    exact still_write d s e.apply

theorem still_setLink (d : Desk ω) (s : Surface) (link : Link) :
    Still d (d.setLink s link).2 := by
  rcases d.setLink_cases s link with ⟨refusal, -, heq⟩ | ⟨-, heq⟩ | ⟨source, -, -, heq⟩
  · rw [heq]
    exact .of_hub rfl rfl
  · rw [heq]
    exact .of_hub rfl rfl
  · rw [heq]
    exact ⟨rfl, _, d.mirroring_hub s source, by simp [Event.window?]⟩

theorem still_mergeLive (d : Desk ω) (patch : Live.Patch) : Still d (d.mergeLive patch).2 := by
  have hmerging : Still d (d.merging patch) := .of_hub rfl rfl
  have hmode : Still (d.merging patch) (d.merging patch).applyLiveMode := by
    rcases (d.merging patch).applyLiveMode_cases with heq | ⟨s, change, heq⟩
    · rw [heq]
      exact .refl _
    · rw [heq]
      exact still_write _ s change
  have hlive : Still (d.merging patch).applyLiveMode (d.mergeLive patch).2 :=
    ⟨rfl, [.live (d.merging patch).live], rfl, by simp [Event.window?]⟩
  exact (hmerging.trans hmode).trans hlive

theorem still_itemAtCursor (d : Desk ω) (sources : Sources) (planId : String)
    (live : Live.State) : Still d (d.itemAtCursor sources planId live).2 := by
  rcases d.itemAtCursor_cases sources planId live with heq | ⟨position, heq⟩
  · rw [heq]
    exact .refl d
  · rw [heq]
    exact still_mergeLive d _

/-- Whoever knew how the windows of the first desk stood and goes by what has been published since
knows how those of the second stand. -/
def Reports (d d' : Desk Registry) : Prop :=
  ∃ es, d'.hub = d.hub.publishAll es ∧
    ∀ s, windowAfter s (d.windows.isOpen s) es = d'.windows.isOpen s

theorem Still.reports {d d' : Desk Registry} (still : Still d d') : Reports d d' := by
  obtain ⟨hwindows, es, hhub, silent⟩ := still
  exact ⟨es, hhub, fun s => by rw [windowAfter_of_silent (silent s), hwindows]⟩

theorem Reports.trans {d d' d'' : Desk Registry} (first : Reports d d') (second : Reports d' d'') :
    Reports d d'' := by
  obtain ⟨es, hhub, hes⟩ := first
  obtain ⟨fs, hhub', hfs⟩ := second
  refine ⟨es ++ fs, by rw [hhub', hhub, Hub.publishAll_append], fun s => ?_⟩
  rw [windowAfter_append, hes, hfs]

/-- A window that may have changed is announced as it is now. -/
theorem reports_windowChanged (d : Desk Registry) {s : Surface} {windows : Registry}
    (others : ∀ x, x ≠ s → windows.isOpen x = d.windows.isOpen x) :
    Reports d (Desk.windowChanged { d with windows } s (windows.isOpen s)) := by
  refine ⟨[.window s (windows.isOpen s)], rfl, fun x => ?_⟩
  by_cases h : s = x
  · subst h
    simp [windowAfter, Event.window?, windowChanged]
  · simp [windowAfter, Event.window?, h, windowChanged, others x (Ne.symm h)]

/-- The second desk is what becomes of the first when windows are demanded. -/
structure Heeds (d : Desk Registry) (demands : List Demand) (d' : Desk Registry) : Prop where
  windows : d'.windows = d.windows.meetAll demands
  reports : Reports d d'

theorem Still.heeds {d d' : Desk Registry} (still : Still d d') : Heeds d [] d' :=
  ⟨still.windows, still.reports⟩

theorem Heeds.trans {d d' d'' : Desk Registry} {demands more : List Demand}
    (first : Heeds d demands d') (second : Heeds d' more d'') : Heeds d (demands ++ more) d'' where
  windows := by
    rw [second.windows, first.windows]
    exact List.foldl_append.symm
  reports := first.reports.trans second.reports

theorem heeds_windowChanged (d : Desk Registry) (demand : Demand) :
    Heeds d [demand] (Desk.windowChanged { d with windows := d.windows.meet demand }
      demand.surface ((d.windows.meet demand).isOpen demand.surface)) where
  windows := rfl
  reports := by
    refine reports_windowChanged d fun x hx => ?_
    rw [Registry.meet_eq_update]
    exact Registry.isOpen_update_of_ne hx _ _

/-- What a projection demands: a window for the root of the target, if it has none and no lock
forbids the projection. -/
def projecting (d : Desk Registry) (target : Surface) : List Demand :=
  match d.route target .redirect with
  | .apply s => if d.windows.isOpen s then [] else [⟨s, true⟩]
  | .refused _ => []

theorem ensureOpen_of_closed {d : Desk Registry} {s : Surface}
    (closed : d.windows.isOpen s = false) :
    d.ensureOpen s = Desk.windowChanged { d with windows := d.windows.meet ⟨s, true⟩ } s
      ((d.windows.meet ⟨s, true⟩).isOpen s) := by
  have hopen : (d.windows.meet ⟨s, true⟩).isOpen s = true := by
    rw [Registry.isOpen_iff, Registry.requested_meet]
    simp
  have hclosed : Windows.isOpen d.windows s = false := closed
  have hopened : Windows.isOpen (Windows.openSurface d.windows s).2 s = true := hopen
  simp only [ensureOpen, hclosed, hopen, hopened, Bool.false_eq_true, if_false]
  rfl

theorem heeds_project (d : Desk Registry) (target : Surface) (slide : Slide) :
    Heeds d (d.projecting target) (d.project target slide).2 := by
  unfold project projecting
  cases d.route target .redirect with
  | refused reason => exact (still_edit d target slide.edit .redirect).heeds
  | apply s =>
    dsimp only
    have hedit := (still_edit (d.ensureOpen s) target slide.edit .redirect).heeds
    split_ifs with hopen
    · have hsame : d.ensureOpen s = d := if_pos hopen
      rw [hsame] at hedit ⊢
      exact hedit
    · have hclosed : d.windows.isOpen s = false := by simpa using hopen
      have hdemand := heeds_windowChanged d ⟨s, true⟩
      rw [← ensureOpen_of_closed hclosed] at hdemand
      exact hdemand.trans hedit

/-- What a step of navigation demands when the live state has been merged. -/
def projectingAtCursor (d : Desk Registry) (sources : Sources) (live : Live.State) :
    List Demand :=
  match live.activePlan with
  | none => []
  | some planId =>
    match d.itemAtCursor sources planId live with
    | (.ok (live, some _), d) => d.projecting live.target
    | _ => []

theorem heeds_projectCursor (d : Desk Registry) (sources : Sources) (live : Live.State) :
    Heeds d (d.projectingAtCursor sources live) (d.projectCursor sources live).2 := by
  unfold projectCursor projectingAtCursor
  cases live.activePlan with
  | none => exact (Still.refl d).heeds
  | some planId =>
    have hitem := (d.still_itemAtCursor sources planId live).heeds
    dsimp only
    generalize d.itemAtCursor sources planId live = result at hitem ⊢
    rcases result with ⟨failure | ⟨live, none | item⟩, d'⟩
    · exact hitem
    · exact hitem
    · exact hitem.trans (heeds_project d' live.target (item.slide sources))

end Desk

namespace Host

open Windows

/-- The windows that a command demands. -/
def demands (h : Host) (command : Command) : List Demand :=
  match h.navigation? command, command with
  | some p, _ =>
    (h.desk.mergeLive p).2.projectingAtCursor h.sources (h.desk.mergeLive p).1
  | none, .openSurface s => [⟨s, true⟩]
  | none, .closeSurface s => [⟨s, false⟩]
  | none, .projectItem target _ =>
    h.desk.projecting ((target.map Surface.parseOrMain).getD h.desk.live.target)
  | none, _ => []

theorem heeds_navigation (h : Host) (p : Live.Patch) :
    h.desk.Heeds ((h.desk.mergeLive p).2.projectingAtCursor h.sources (h.desk.mergeLive p).1)
      ((h.desk.mergeLive p).2.projectCursor h.sources (h.desk.mergeLive p).1).2 :=
  (h.desk.still_mergeLive p).heeds.trans (Desk.heeds_projectCursor _ _ _)

/-- Commands meet what they demand and announce it. -/
theorem heeds_dispatch (h : Host) (command : Command) :
    h.desk.Heeds (h.demands command) (h.dispatch command).2.desk := by
  cases command with
  | getState s => exact (Desk.Still.refl _).heeds
  | edit s e => exact (h.desk.still_edit s e .refuse).heeds
  | setLink s link =>
    have hlink := (h.desk.still_setLink s link).heeds
    unfold dispatch
    dsimp only
    generalize h.desk.setLink s link = result at hlink ⊢
    rcases result with ⟨refusal | screen, desk⟩
    · exact hlink
    · exact hlink
  | listSurfaces => exact (Desk.Still.refl _).heeds
  | getLive => exact (Desk.Still.refl _).heeds
  | setLive p => exact (h.desk.still_mergeLive p).heeds
  | next => exact h.heeds_navigation _
  | prev => exact h.heeds_navigation _
  | setCursor cursor => exact h.heeds_navigation _
  | setTarget target => exact (h.desk.still_mergeLive _).heeds
  | toggle => exact (h.desk.still_mergeLive _).heeds
  | toggleBlack => exact (h.desk.still_mergeLive _).heeds
  | toggleWhite => exact (h.desk.still_mergeLive _).heeds
  | resume => exact (h.desk.still_mergeLive _).heeds
  | setLocked s locked => exact (h.desk.still_mergeLive _).heeds
  | goLive planId cursor => exact h.heeds_navigation (.start planId (cursor.getD 0))
  | projectItem target item => exact h.desk.heeds_project _ _
  | openSurface s => exact h.desk.heeds_windowChanged ⟨s, true⟩
  | closeSurface s => exact h.desk.heeds_windowChanged ⟨s, false⟩
  | subscribe role => exact (Desk.Still.refl _).heeds
  | ping => exact (Desk.Still.refl _).heeds

end Host
end Lectern
