import Lectern.Response
import Lectern.Command

/-!
# The host

The host carries out commands on its desk. Navigation and items use its library and Bible.
Subscribing needs a connection to send events on and is refused here.
-/

namespace Lectern

open Json Projection Windows

structure Host where
  desk : Desk Registry
  sources : Sources
  /-- What a ping is told the time is. -/
  serverTime : String

namespace Host

def surfacesJson (h : Host) : Value := .list (h.desk.surfaces.map SurfaceInfo.toJson)

/-- Answers with the new live state. -/
def mergeLive (h : Host) (p : Live.Patch) : Response × Host :=
  let (live, desk) := h.desk.mergeLive p
  (.success live.toJson, { h with desk })

def answerOutcome (h : Host) (result : Outcome × Desk Registry) : Response × Host :=
  (.ofOutcome result.1, { h with desk := result.2 })

def answerNavigated (h : Host) (result : Except Failure Navigated × Desk Registry) :
    Response × Host :=
  (.ofExcept Navigated.toJson result.1, { h with desk := result.2 })

/-- Changes the windows, and tells the observers how the surface stands now. -/
def changeWindow (h : Host) (s : Surface) (change : Registry → Surface → Registry) : Host :=
  let windows := change h.desk.windows s
  { h with desk := { h.desk with windows }.windowChanged s (windows.isOpen s) }

/-- The live patch that a command of navigation begins with. -/
def navigation? (h : Host) : Command → Option Live.Patch
  | .next => some h.desk.live.next
  | .prev => some h.desk.live.prev
  | .setCursor cursor => some (.moveTo cursor)
  | .goLive planId cursor => some (.start planId (cursor.getD 0))
  | _ => none

/-- The desk as it stands when a command reads the library for the last time, if it does. -/
def deskAtReading (h : Host) (command : Command) : Option (Desk Registry) :=
  match h.navigation? command, command with
  | some p, _ =>
    let (live, desk) := h.desk.mergeLive p
    desk.atReading h.sources live
  | none, .projectItem _ item => if item.readsLibrary then some h.desk else none
  | none, _ => none

def dispatch (h : Host) : Command → Response × Host
  | .getState s => (.success (h.desk.screens.get s).toJson, h)
  | .edit s e => h.answerOutcome (h.desk.edit s e .refuse)
  | .setLink s link =>
    match h.desk.setLink s link with
    | (.ok screen, desk) => (.success screen.toJson, { h with desk })
    | (.error refusal, desk) => (.failure refusal.message, { h with desk })
  | .listSurfaces => (.success h.surfacesJson, h)
  | .getLive => (.success h.desk.live.toJson, h)
  | .setLive p => h.mergeLive p
  | .next => h.answerNavigated (h.desk.goNext h.sources)
  | .prev => h.answerNavigated (h.desk.goPrev h.sources)
  | .setCursor cursor => h.answerNavigated (h.desk.goTo h.sources cursor)
  | .setTarget target => h.mergeLive (.aim (.parseOrMain target))
  | .toggle => h.mergeLive h.desk.live.toggle
  | .toggleBlack => h.mergeLive h.desk.live.toggleBlack
  | .toggleWhite => h.mergeLive h.desk.live.toggleWhite
  | .resume => h.mergeLive .resume
  | .setLocked s locked => h.mergeLive (h.desk.live.lock s locked)
  | .goLive planId cursor => h.answerNavigated (h.desk.goLive h.sources planId cursor)
  | .projectItem target item =>
    let s := (target.map Surface.parseOrMain).getD h.desk.live.target
    h.answerOutcome (h.desk.projectItem h.sources s item)
  | .openSurface s =>
    let h := h.changeWindow s Registry.openSurface
    (.success h.surfacesJson, h)
  | .closeSurface s =>
    let h := h.changeWindow s Registry.closeSurface
    (.success h.surfacesJson, h)
  | .subscribe _ => (.failure "subscribe is only available on an IPC connection", h)
  | .ping => (.success (.object [("pong", .bool true), ("serverTime", .text h.serverTime)]), h)

end Host
end Lectern
