import Lectern.Desk.Basic
import Lectern.Item

/-!
# Going through a plan

A step of navigation merges the live state first and then projects the item at the cursor,
which is brought back to the last item if it has gone beyond. Without an enabled live state,
a plan and an item there is nothing to project.
-/

namespace Lectern

open Projection

structure Navigated where
  live : Live.State
  projection : Option Outcome
deriving DecidableEq

namespace Desk

variable {ω : Type} [Windows ω]

def projectItem (d : Desk ω) (sources : Sources) (target : Surface) (item : Plan.Item) :
    Outcome × Desk ω :=
  d.project target (item.slide sources)

/-- The item of a plan at the cursor of `live`, the state just merged. A cursor beyond the
last item is moved back to it. -/
def itemAtCursor (d : Desk ω) (sources : Sources) (planId : String) (live : Live.State) :
    Except Failure (Live.State × Option Plan.Item) × Desk ω :=
  match sources.library.plan planId with
  | .error failure => (.error (failure.context ("failed to load plan " ++ planId)), d)
  | .ok none => (.ok (live, none), d)
  | .ok (some plan) =>
    let items := plan.ordered
    let last : Int := items.length - 1
    let (live, d) :=
      if 0 ≤ last ∧ last < live.cursor then d.mergeLive (.moveTo last) else (live, d)
    (.ok (live, items[(max live.cursor 0).toNat]?), d)

/-- Projects the item of the live plan at the cursor of `live`, the state just merged. -/
def projectCursor (d : Desk ω) (sources : Sources) (live : Live.State) :
    Except Failure Navigated × Desk ω :=
  match live.activePlan with
  | none => (.ok ⟨live, none⟩, d)
  | some planId =>
    match d.itemAtCursor sources planId live with
    | (.error failure, d) => (.error failure, d)
    | (.ok (live, none), d) => (.ok ⟨live, none⟩, d)
    | (.ok (live, some item), d) =>
      let (outcome, d) := d.projectItem sources live.target item
      (.ok ⟨live, some outcome⟩, d)

/-- The desk as it stands when `projectCursor` reads the library for the last time, if it
does: for the plan, and once more for an item that shows a song. -/
def atReading (d : Desk ω) (sources : Sources) (live : Live.State) : Option (Desk ω) :=
  live.activePlan.map fun planId =>
    match d.itemAtCursor sources planId live with
    | (.ok (_, some item), moved) => if item.readsLibrary then moved else d
    | _ => d

def goLive (d : Desk ω) (sources : Sources) (planId : String) (cursor : Option Int) :
    Except Failure Navigated × Desk ω :=
  let (live, d) := d.mergeLive (.start planId (cursor.getD 0))
  d.projectCursor sources live

def goNext (d : Desk ω) (sources : Sources) : Except Failure Navigated × Desk ω :=
  let (live, d) := d.mergeLive d.live.next
  d.projectCursor sources live

def goPrev (d : Desk ω) (sources : Sources) : Except Failure Navigated × Desk ω :=
  let (live, d) := d.mergeLive d.live.prev
  d.projectCursor sources live

def goTo (d : Desk ω) (sources : Sources) (cursor : Int) : Except Failure Navigated × Desk ω :=
  let (live, d) := d.mergeLive (.moveTo cursor)
  d.projectCursor sources live

end Desk
end Lectern
