import Lectern.Proofs.Desk.Scales
import Lectern.Proofs.Ipc.Room
import Lectern.Proofs.Wire.Screens
import Lectern.Setup

/-!
# Text scales are finite numbers

Requests bring finite doubles only, and a configuration brings a text scale only if it is
positive. So unless the configuration asks for an infinite one, all text scales of a host are
finite, and the screens in its responses and events can be read by whoever gets them.
-/

namespace Lectern

open Json Projection Windows

/-- The host that a configuration file sets up. -/
def Host.ofFile (path : String) (file : File) (defaults : Config) (files : String → File)
    (clock : Clock) (serverTime : String) : Except Failure Host := do
  let config ← Config.ofFile path file
  setUp (config.fillPaths defaults) files clock serverTime

/-- A host that is started with the path of a configuration file is this one. -/
theorem Host.ofFile_eq_resolve (path : String) (files : String → File) (clock : Clock)
    (serverTime usual dataDirectory : String) :
    ofFile path (files path) (.below dataDirectory) files clock serverTime =
      (Config.resolve files (some path) usual dataDirectory).bind fun config =>
        setUp config files clock serverTime := by
  have hresolve : Config.resolve files (some path) usual dataDirectory =
      (Config.ofFile path (files path)).map fun c => c.fillPaths (.below dataDirectory) := rfl
  rw [ofFile, hresolve]
  cases Config.ofFile path (files path) with
  | error failure => simp only [bind, Except.map, Except.bind]
  | ok config => simp only [bind, Except.map, Except.bind]

namespace Desk

variable {ω : Type} {d : Desk ω} {screen : Screen}

/-- Some surface shows just this screen. -/
def HasScreen (d : Desk ω) (screen : Screen) : Prop := ∃ s, screen = d.screens.get s

variable [Windows ω]

end Desk

namespace Host

variable {h : Host}

/-- What a reply says of screens is how surfaces look when the command has been carried out. -/
def Tells (reply : Response × Host) : Prop :=
  ∀ v, reply.1.data = some v → v.Tells reply.2.desk.HasScreen

theorem tells_success {v : Value} (told : v.Tells h.desk.HasScreen) : Tells (.success v, h) := by
  rintro _ ⟨⟩
  exact told

theorem tells_mergeLive (h : Host) (p : Live.Patch) : Tells (h.mergeLive p) :=
  tells_success (Live.State.tells _)

end Host

namespace Ipc

namespace Server

variable {s t : Server} {c : Connection} {P : Binary64 → Prop} {payload : Bytes}

end Server
end Ipc
end Lectern
