import Lectern.Desk.Navigation

/-!
# Commands

What can be asked of the host, one constructor for each kind of request.
-/

namespace Lectern

open Projection

inductive Command where
  | getState (surface : Surface)
  | edit (surface : Surface) (edit : Edit)
  | setLink (surface : Surface) (link : Link)
  | listSurfaces
  | getLive
  | setLive (patch : Live.Patch)
  | next
  | prev
  | setCursor (cursor : Int)
  | setTarget (target : String)
  | toggle
  | toggleBlack
  | toggleWhite
  | resume
  | setLocked (surface : Surface) (locked : Bool)
  | goLive (planId : String) (cursor : Option Int)
  | projectItem (target : Option String) (item : Plan.Item)
  | openSurface (surface : Surface)
  | closeSurface (surface : Surface)
  | subscribe (role : Role)
  | ping
deriving DecidableEq

def Command.name : Command → String
  | getState _ => "get-state"
  | edit _ (.patch _) => "set-state"
  | edit _ (.text _) => "set-content-text"
  | edit _ (.media _) => "set-content-media"
  | edit _ (.mode _) => "set-mode"
  | edit _ (.appearance _) => "set-appearance"
  | setLink _ _ => "set-mirror"
  | listSurfaces => "list-surfaces"
  | getLive => "get-live"
  | setLive _ => "set-live"
  | next => "next"
  | prev => "prev"
  | setCursor _ => "set-cursor"
  | setTarget _ => "set-target"
  | toggle => "toggle"
  | toggleBlack => "toggle-black"
  | toggleWhite => "toggle-white"
  | resume => "resume"
  | setLocked _ _ => "set-locked"
  | goLive _ _ => "go-live"
  | projectItem _ _ => "project-item"
  | openSurface _ => "open-surface"
  | closeSurface _ => "close-surface"
  | subscribe _ => "subscribe"
  | ping => "ping"

/-- A command as it is sent, with a number to tell its answer by. -/
structure Request where
  id : Option Nat
  command : Command
deriving DecidableEq

end Lectern
