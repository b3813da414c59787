import Lectern.Desk.Navigation
import Lectern.Proofs.Hub.Queues

/-!
# Runs of a desk

An operation is whatever can be asked of a desk, by whom, and in any order; the windows may
also change on their own, and the observers come, go and take their events. Projecting and
navigating are made of edits, merges and window events, so what is kept by these and by the
other single steps is kept by every operation and, along a run, by every reachable desk.
-/

namespace Lectern

open Projection

/-- A step through a plan. -/
inductive Move where
  | start (planId : String) (cursor : Option Int)
  | next
  | prev
  | moveTo (cursor : Int)

/-- The patch that a step through a plan begins with. -/
def Move.patch (live : Live.State) : Move → Live.Patch
  | start planId cursor => .start planId (cursor.getD 0)
  | next => live.next
  | prev => live.prev
  | moveTo cursor => .moveTo cursor

/-- A patch may be computed from the live state it is merged into. The library and the Bible
may answer differently each time they are asked. -/
inductive Operation (ω : Type) where
  | edit (target : Surface) (e : Edit) (policy : Policy)
  | setLink (s : Surface) (link : Link)
  | project (target : Surface) (slide : Slide)
  | projectItem (sources : Sources) (target : Surface) (item : Plan.Item)
  | merge (patch : Live.State → Live.Patch)
  | navigate (sources : Sources) (move : Move)
  | windowChanged (s : Surface) (isOpen : Bool)
  | changeWindows (change : ω → ω)
  | observe (o : Observation)

/-- What an operation returns. The events that observers take are not among it. -/
inductive Answer where
  | none
  | outcome (o : Outcome)
  | link (result : Except Link.Refusal Screen)
  | live (state : Live.State)
  | navigation (result : Except Failure Navigated)

namespace Desk

variable {ω : Type}

theorem itemAtCursor_cases (d : Desk ω) (sources : Sources) (planId : String)
    (live : Live.State) :
    (d.itemAtCursor sources planId live).2 = d ∨
      ∃ position, (d.itemAtCursor sources planId live).2 = (d.mergeLive (.moveTo position)).2 := by
  unfold itemAtCursor
  split
  · exact .inl rfl
  · exact .inl rfl
  · dsimp only
    split
    · exact .inr ⟨_, rfl⟩
    · exact .inl rfl

variable [Windows ω]

def navigate (d : Desk ω) (sources : Sources) : Move → Except Failure Navigated × Desk ω
  | .start planId cursor => d.goLive sources planId cursor
  | .next => d.goNext sources
  | .prev => d.goPrev sources
  | .moveTo cursor => d.goTo sources cursor

def perform (d : Desk ω) : Operation ω → Desk ω
  | .edit target e policy => (d.edit target e policy).2
  | .setLink s link => (d.setLink s link).2
  | .project target slide => (d.project target slide).2
  | .projectItem sources target item => (d.projectItem sources target item).2
  | .merge patch => (d.mergeLive (patch d.live)).2
  | .navigate sources move => (d.navigate sources move).2
  | .windowChanged s isOpen => d.windowChanged s isOpen
  | .changeWindows change => { d with windows := change d.windows }
  | .observe o => { d with hub := o.apply d.hub }

def run (d : Desk ω) (operations : List (Operation ω)) : Desk ω := operations.foldl perform d

def answer (d : Desk ω) : Operation ω → Answer
  | .edit target e policy => .outcome (d.edit target e policy).1
  | .setLink s link => .link (d.setLink s link).1
  | .project target slide => .outcome (d.project target slide).1
  | .projectItem sources target item => .outcome (d.projectItem sources target item).1
  | .merge patch => .live (d.mergeLive (patch d.live)).1
  | .navigate sources move => .navigation (d.navigate sources move).1
  | .windowChanged _ _ => .none
  | .changeWindows _ => .none
  | .observe _ => .none

/-- What the operations of a run return, one after another. -/
def answers : Desk ω → List (Operation ω) → List Answer
  | _, [] => []
  | d, operation :: rest => d.answer operation :: (d.perform operation).answers rest

@[simp] theorem run_cons (d : Desk ω) (operation : Operation ω)
    (operations : List (Operation ω)) :
    d.run (operation :: operations) = (d.perform operation).run operations := rfl

/-- What operations can make of a desk as it is when the host starts, with any screen to begin
with, any clock and any windows. -/
inductive Reachable : Desk ω → Prop
  | initial (screen : Screen) (clock : Clock) (windows : ω) :
      Reachable (Desk.initial screen clock windows)
  | perform {d : Desk ω} (operation : Operation ω) :
      Reachable d → Reachable (d.perform operation)

theorem Reachable.run {d : Desk ω} (h : d.Reachable) (operations : List (Operation ω)) :
    (d.run operations).Reachable := by
  induction operations generalizing d with
  | nil => exact h
  | cons operation rest ih => exact ih (h.perform operation)

/-- A desk at the start, with no window open and a clock that runs backwards. -/
def opening : Desk Windows.Registry :=
  .initial .default (Clock.steady 1000 (-1)) Windows.Registry.empty

/-- B comes to mirror A and C to mirror B, and a text for C goes to A. -/
def rehearsal : List (Operation Windows.Registry) :=
  [.setLink .b (.mirror .a), .setLink .c (.mirror .b),
    .edit .c (.text ⟨some "Welcome", "Please be seated.", none⟩) .redirect]

theorem reachable_opening : opening.Reachable := .initial _ _ _

theorem reachable_rehearsal : (opening.run rehearsal).Reachable :=
  reachable_opening.run rehearsal

theorem navigate_eq (d : Desk ω) (sources : Sources) (move : Move) :
    d.navigate sources move =
      (d.mergeLive (move.patch d.live)).2.projectCursor sources
        (d.mergeLive (move.patch d.live)).1 := by
  cases move <;> rfl

theorem ensureOpen_cases (d : Desk ω) (s : Surface) :
    d.ensureOpen s = d ∨
      (∃ windows, d.ensureOpen s = { d with windows }) ∨
      ∃ windows, d.ensureOpen s = Desk.windowChanged { d with windows } s true := by
  unfold ensureOpen
  split
  · exact .inl rfl
  · dsimp only
    split
    · exact .inr (.inr ⟨_, rfl⟩)
    · exact .inr (.inl ⟨_, rfl⟩)

/-- After its own merge a step of navigation brings the cursor back or not, and then projects
something or not. -/
theorem projectCursor_cases (d : Desk ω) (sources : Sources) (live : Live.State) :
    ∃ within : Desk ω, (within = d ∨ ∃ position, within = (d.mergeLive (.moveTo position)).2) ∧
      ((d.projectCursor sources live).2 = within ∨
        ∃ target slide, (d.projectCursor sources live).2 = (within.project target slide).2) := by
  unfold projectCursor
  cases live.activePlan with
  | none => exact ⟨d, .inl rfl, .inl rfl⟩
  | some planId =>
    refine ⟨(d.itemAtCursor sources planId live).2, d.itemAtCursor_cases sources planId live, ?_⟩
    dsimp only
    split
    · rename_i heq
      exact .inl (by rw [heq])
    · rename_i heq
      exact .inl (by rw [heq])
    · rename_i heq
      exact .inr ⟨_, _, by rw [heq]; rfl⟩

/-- A relation between a desk and what becomes of it that holds of every single step but those
of observers, and of steps taken one after another. -/
structure Stepwise (R : Desk ω → Desk ω → Prop) : Prop where
  refl : ∀ d, R d d
  trans : ∀ {d d' d'' : Desk ω}, R d d' → R d' d'' → R d d''
  edit : ∀ d target e policy, R d (d.edit target e policy).2
  setLink : ∀ d s link, R d (d.setLink s link).2
  mergeLive : ∀ d p, R d (d.mergeLive p).2
  windowChanged : ∀ d s isOpen, R d (d.windowChanged s isOpen)
  windows : ∀ d windows, R d { d with windows }

namespace Stepwise

variable {R : Desk ω → Desk ω → Prop}

theorem ensureOpen (h : Stepwise R) (d : Desk ω) (s : Surface) : R d (d.ensureOpen s) := by
  rcases d.ensureOpen_cases s with hd | ⟨windows, hd⟩ | ⟨windows, hd⟩
  · rw [hd]
    exact h.refl d
  · rw [hd]
    exact h.windows d windows
  · rw [hd]
    exact h.trans (h.windows d windows) (h.windowChanged _ s true)

theorem project (h : Stepwise R) (d : Desk ω) (target : Surface) (slide : Slide) :
    R d (d.project target slide).2 := by
  unfold Desk.project
  split
  · exact h.trans (h.ensureOpen d _) (h.edit _ _ _ _)
  · exact h.edit _ _ _ _

theorem projectCursor (h : Stepwise R) (d : Desk ω) (sources : Sources) (live : Live.State) :
    R d (d.projectCursor sources live).2 := by
  obtain ⟨within, hwithin, hprojected⟩ := d.projectCursor_cases sources live
  have hstep : R d within := by
    rcases hwithin with hd | ⟨position, hd⟩
    · rw [hd]
      exact h.refl d
    · rw [hd]
      exact h.mergeLive d _
  rcases hprojected with hd | ⟨target, slide, hd⟩
  · rw [hd]
    exact hstep
  · rw [hd]
    exact h.trans hstep (h.project _ target slide)

theorem navigate (h : Stepwise R) (d : Desk ω) (sources : Sources) (move : Move) :
    R d (d.navigate sources move).2 := by
  rw [navigate_eq]
  exact h.trans (h.mergeLive d _) (h.projectCursor _ sources _)

theorem perform (h : Stepwise R) (d : Desk ω) {operation : Operation ω}
    (observe : ∀ o, operation = .observe o → R d (d.perform operation)) :
    R d (d.perform operation) := by
  cases operation with
  | edit target e policy => exact h.edit d target e policy
  | setLink s link => exact h.setLink d s link
  | project target slide => exact h.project d target slide
  | projectItem sources target item => exact h.project d target (item.slide sources)
  | merge patch => exact h.mergeLive d _
  | navigate sources move => exact h.navigate d sources move
  | windowChanged s isOpen => exact h.windowChanged d s isOpen
  | changeWindows change => exact h.windows d _
  | observe o => exact observe o rfl

end Stepwise

/-- What holds at the start and is kept by each single step holds of every reachable desk. -/
theorem Reachable.of_stepwise {I : Desk ω → Prop} {d : Desk ω} (h : d.Reachable)
    (initial : ∀ screen clock windows, I (Desk.initial screen clock windows))
    (step : Stepwise fun d d' => I d → I d')
    (observe : ∀ (d : Desk ω) o, I d → I (d.perform (.observe o))) : I d := by
  induction h with
  | initial screen clock windows => exact initial screen clock windows
  | @perform d operation _ ih =>
    refine step.perform d ?_ ih
    rintro o rfl
    exact observe d o

end Desk
end Lectern
