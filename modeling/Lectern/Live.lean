import Lectern.Projection.Screen

/-!
# The live state

Where a service stands in its plan, which surface it shows on, whether that surface is
blanked, and which surfaces are locked. It is changed by merging patches; the cursor is
never negative, and a request for one blank colour clears the other. Times and the cursor have
sixty-four bits: a step on from the last cursor comes to the first item.
-/

namespace Lectern

open Projection

/-- Which surfaces are locked. -/
abbrev Locks := PerSurface Bool

namespace Live

structure State where
  enabled : Bool
  planId : Option String
  cursor : Int
  target : Surface
  black : Bool
  white : Bool
  locks : Locks
  updatedAt : Int
deriving DecidableEq

/-- The plan id has three cases: not mentioned, cleared, and set. -/
structure Patch where
  enabled : Option Bool := none
  planId : Option (Option String) := none
  cursor : Option Int := none
  target : Option String := none
  black : Option Bool := none
  white : Option Bool := none
  locks : Option Locks := none
deriving DecidableEq

namespace State

def initial : State where
  enabled := false
  planId := none
  cursor := 0
  target := .a
  black := false
  white := false
  locks := .replicate false
  updatedAt := 0

/-- The state after a patch, not yet stamped. Asking for one blank colour clears the other. -/
def merged (s : State) (p : Patch) : State :=
  let black := p.black.getD s.black
  let white := p.white.getD s.white
  { s with
    enabled := p.enabled.getD s.enabled
    planId := p.planId.getD s.planId
    cursor := max (p.cursor.getD s.cursor) 0
    target := (p.target.map Surface.parseOrMain).getD s.target
    black := if p.white = some true then false else black
    white := if p.black = some true then false else white
    locks := p.locks.getD s.locks }

theorem zero_le_cursor_merged (s : State) (p : Patch) : 0 ≤ (s.merged p).cursor :=
  Int.le_max_right _ _

/-- A merge never leaves both blank colours on when it does not find them so. -/
theorem not_both_merged {s : State} (h : (s.black && s.white) = false) (p : Patch) :
    ((s.merged p).black && (s.merged p).white) = false := by
  simp only [merged]
  rcases p.black with _ | _ | _ <;> rcases p.white with _ | _ | _ <;> simp_all

/-- A merge is stamped like a write. -/
def merge (s : State) (p : Patch) (now : Int) : State :=
  { s.merged p with updatedAt := Screen.stamp now s.updatedAt }

/-- The plan that is gone through, while the live state is enabled. -/
def activePlan (s : State) : Option String := if s.enabled then s.planId else none

/-- The mode that the blank flags ask for. -/
def mode (s : State) : Mode := .ofBlank s.black s.white

def next (s : State) : Patch := { enabled := some true, cursor := some (wrap64 (s.cursor + 1)) }

def prev (s : State) : Patch :=
  { enabled := some true, cursor := some (max (wrap64 (s.cursor - 1)) 0) }

def toggle (s : State) : Patch := { enabled := some (!s.enabled) }

def toggleBlack (s : State) : Patch := { black := some (!s.black) }

def toggleWhite (s : State) : Patch := { white := some (!s.white) }

def lock (s : State) (surface : Surface) (locked : Bool) : Patch :=
  { locks := some (s.locks.set surface locked) }

end State

namespace Patch

def resume : Patch := { black := some false, white := some false }

def moveTo (cursor : Int) : Patch := { cursor := some cursor }

def aim (s : Surface) : Patch := { target := some s.name }

def start (planId : String) (cursor : Int) : Patch :=
  { enabled := some true, planId := some (some planId), cursor := some cursor }

end Patch
end Live
end Lectern
