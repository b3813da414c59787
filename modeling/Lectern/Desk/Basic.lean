import Lectern.Clock
import Lectern.Hub
import Lectern.Mirroring
import Lectern.Projection.Patch
import Lectern.Windows

/-!
# The desk

The desk holds the three screens, the links between them, the live state, the observers,
the clock and the windows. An edit of a surface is routed first: a locked surface refuses
everything, and an edit of a mirroring surface is refused or goes to its root. An applied
edit takes one reading of the clock, is carried over to all mirrors, and is announced, the
edited surface first. A refused edit leaves the desk as it is.
-/

namespace Lectern

open Projection

inductive Reason where
  | locked
  | mirror
deriving DecidableEq

/-- What becomes of an edit. The parts are independent because outcomes are also read from
others. -/
structure Outcome where
  ok : Bool
  reason : Option Reason
  surface : Option Surface
  screen : Option Screen
deriving DecidableEq

namespace Outcome

def applied (s : Surface) (screen : Screen) : Outcome := ⟨true, none, some s, some screen⟩

def refused (reason : Reason) : Outcome := ⟨false, some reason, none, none⟩

def isRefusedWith (o : Outcome) (reason : Reason) : Bool := !o.ok && o.reason == some reason

end Outcome

/-- What to do with an edit of a mirroring surface. -/
inductive Policy where
  | redirect
  | refuse
deriving DecidableEq

inductive Route where
  | apply (surface : Surface)
  | refused (reason : Reason)
deriving DecidableEq

/-- Locks come before mirrors. -/
def route (target : Surface) (locks : Locks) (links : Links) (policy : Policy) : Route :=
  if locks.get target then .refused .locked
  else if !(links.get target).isMirror then .apply target
  else
    match policy with
    | .refuse => .refused .mirror
    | .redirect =>
      let root := links.root target
      if locks.get root then .refused .locked else .apply root

structure SurfaceInfo where
  surface : Surface
  isOpen : Bool
  link : Link
deriving DecidableEq

structure Desk (ω : Type) where
  screens : Screens
  links : Links
  live : Live.State
  hub : Hub
  clock : Clock
  windows : ω

namespace Desk

variable {ω : Type}

def initial (screen : Screen) (clock : Clock) (windows : ω) : Desk ω where
  screens := Screens.initial screen
  links := Links.none
  live := Live.State.initial
  hub := Hub.empty
  clock
  windows

def publish (d : Desk ω) (e : Event) : Desk ω := { d with hub := d.hub.publish e }

/-- Announces the screens of some surfaces as they are now. -/
def announce (d : Desk ω) (surfaces : List Surface) : Desk ω :=
  { d with hub := d.hub.publishAll (surfaces.map fun s => .screen s (d.screens.get s)) }

def subscribe (d : Desk ω) (role : Role) : Nat × Desk ω :=
  let (id, hub) := d.hub.subscribe role
  (id, { d with hub })

def dispose (d : Desk ω) (id : Nat) : Desk ω := { d with hub := d.hub.dispose id }

def windowChanged (d : Desk ω) (s : Surface) (isOpen : Bool) : Desk ω :=
  d.publish (.window s isOpen)

def surfaces [Windows ω] (d : Desk ω) : List SurfaceInfo :=
  Surface.all.map fun s => ⟨s, Windows.isOpen d.windows s, d.links.get s⟩

def route (d : Desk ω) (target : Surface) (policy : Policy) : Route :=
  Lectern.route target d.live.locks d.links policy

/-- Writes a surface, carries the write over to its mirrors, and announces them all. -/
def write (d : Desk ω) (s : Surface) (change : Display → Display) : Desk ω :=
  let now := d.clock.now
  let screens := d.links.propagate s now (d.screens.write s now change)
  { d with screens, clock := d.clock.tick }.announce (s :: d.links.followers s)

def edit (d : Desk ω) (target : Surface) (e : Edit) (policy : Policy) : Outcome × Desk ω :=
  match d.route target policy with
  | .refused reason => (.refused reason, d)
  | .apply s =>
    let after := d.write s e.apply
    (.applied s (after.screens.get s), after)

/-- Links a surface or releases it, and announces the surfaces written with it. The clock is
read in any case. -/
def setLink (d : Desk ω) (s : Surface) (link : Link) : Except Link.Refusal Screen × Desk ω :=
  let now := d.clock.now
  let d := { d with clock := d.clock.tick }
  match d.links.relink s link now d.screens with
  | .error refusal => (.error refusal, d)
  | .ok r =>
    (.ok (r.screens.get s), { d with links := r.links, screens := r.screens }.announce r.written)

/-- Has the window of a surface opened if it is closed, and says so if it comes up. -/
def ensureOpen [Windows ω] (d : Desk ω) (s : Surface) : Desk ω :=
  if Windows.isOpen d.windows s then d
  else
    let (ok, windows) := Windows.openSurface d.windows s
    let d := { d with windows }
    if ok && Windows.isOpen windows s then d.windowChanged s true else d

/-- Shows a slide on the root of a surface, and sees to it that there is a window. -/
def project [Windows ω] (d : Desk ω) (target : Surface) (slide : Slide) : Outcome × Desk ω :=
  let d := match d.route target .redirect with
    | .apply s => d.ensureOpen s
    | .refused _ => d
  d.edit target slide.edit .redirect

/-- Brings the blank mode of the live state to the root of its target, unless a lock forbids
it or the mode is there already. -/
def applyLiveMode (d : Desk ω) : Desk ω :=
  match d.route d.live.target .redirect with
  | .apply s =>
    if (d.screens.get s).display.mode = d.live.mode then d
    else (d.edit s (.mode d.live.mode) .redirect).2
  | .refused _ => d

/-- Merges a patch into the live state. Screens that change with it are announced before the
live state. -/
def mergeLive (d : Desk ω) (p : Live.Patch) : Live.State × Desk ω :=
  let live := d.live.merge p d.clock.now
  let d := { d with live, clock := d.clock.tick }
  (live, d.applyLiveMode.publish (.live live))

end Desk
end Lectern
