import Lectern.Command
import Lectern.Wire.Live
import Lectern.Wire.Plan

/-!
# Requests as JSON

A command is its name in `command` and what it carries in `payload`. Edits by text, media
and appearance carry the fields of the edit beside the surface.
-/

namespace Lectern

open Json Projection

namespace Command

/-- The fields of `fields` beside the surface. -/
def onSurface (s : Surface) (fields : List (String × Value)) : Value :=
  .object (Value.insertField "surface" s.toJson fields)

/-- What a command carries, if it carries anything. -/
def payload? : Command → Option Value
  | getState s | openSurface s | closeSurface s => some (onSurface s [])
  | edit s (.patch p) => some (onSurface s [("patch", p.toJson)])
  | edit s (.text t) => some (onSurface s t.fields)
  | edit s (.media m) => some (onSurface s m.fields)
  | edit s (.mode m) => some (onSurface s [("mode", m.toJson)])
  | edit s (.appearance p) => some (onSurface s p.fields)
  | setLink s link => some (onSurface s [("mode", link.toJson)])
  | setLive p => some p.toJson
  | setCursor cursor => some (.object [("cursor", .int cursor)])
  | setTarget target => some (.object [("target", .text target)])
  | setLocked s locked => some (onSurface s [("locked", .bool locked)])
  | goLive planId cursor =>
    some (.object [("cursor", .ofOption .int cursor), ("planId", .text planId)])
  | projectItem target item =>
    some (.object [("item", item.toJson), ("target", .ofOption .text target)])
  | subscribe role => some (.object [("role", role.toJson)])
  | listSurfaces | getLive | next | prev | toggle | toggleBlack | toggleWhite | resume | ping =>
    none

def fields (c : Command) : List (String × Value) :=
  ("command", .text c.name) :: Value.present "payload" id c.payload?

def toJson (c : Command) : Value := .object c.fields

/-- How to read what a command carries. -/
abbrev Form := Option Fields.Carried → Option Command

def bare (c : Command) : Form := fun carried => (Fields.Carried.nothing carried).map fun _ => c

def ofFields (names : List String) (read : Fields → Option Command) : Form := fun carried =>
  ((carried.bind (Fields.Carried.decode Fields.ofObject)).bind (Fields.only names)).bind read

def ofSurface (make : Surface → Command) : Form :=
  ofFields ["surface"] fun f => (f.required "surface" Surface.decoder).map make

/-- A surface, and beside it the fields of an edit, held back. -/
def ofEdit (names : List String) (read : Fields → Option Edit) : Form := fun carried => do
  let f ← (← carried).decode Fields.ofObject
  let (s, rest) ← f.take "surface"
  let surface ← s.bind (Surface.decoder f.access)
  let rest ← (← rest.hold).only names
  return .edit surface (← read rest)

def forms : List (String × Form) := [
  ("get-state", ofSurface getState),
  ("set-state", ofFields ["surface", "patch"] fun f => do
    return .edit (← f.required "surface" Surface.decoder)
      (.patch (← f.required "patch" Patch.decoder))),
  ("set-content-text", ofEdit TextSlide.fieldNames fun f => (TextSlide.ofFields f).map .text),
  ("set-content-media", ofEdit MediaSlide.fieldNames fun f => (MediaSlide.ofFields f).map .media),
  ("set-mode", ofFields ["surface", "mode"] fun f => do
    return .edit (← f.required "surface" Surface.decoder)
      (.mode (← f.required "mode" Mode.decoder))),
  ("set-appearance", ofEdit Appearance.fieldNames fun f =>
    (Appearance.ofFields f).map .appearance),
  ("set-mirror", ofFields ["surface", "mode"] fun f => do
    return .setLink (← f.required "surface" Surface.decoder)
      (← f.required "mode" Link.decoder)),
  ("list-surfaces", bare listSurfaces),
  ("get-live", bare getLive),
  ("set-live", fun carried =>
    (carried.bind (Fields.Carried.decode Live.Patch.decoder)).map setLive),
  ("next", bare next),
  ("prev", bare prev),
  ("set-cursor", ofFields ["cursor"] fun f => (f.required "cursor" .int64).map setCursor),
  ("set-target", ofFields ["target"] fun f => (f.required "target" .text).map setTarget),
  ("toggle", bare toggle),
  ("toggle-black", bare toggleBlack),
  ("toggle-white", bare toggleWhite),
  ("resume", bare resume),
  ("set-locked", ofFields ["surface", "locked"] fun f => do
    return .setLocked (← f.required "surface" Surface.decoder) (← f.required "locked" .bool)),
  ("go-live", ofFields ["planId", "cursor"] fun f => do
    return .goLive (← f.required "planId" .text) (← f.optional "cursor" .int64)),
  ("project-item", ofFields ["target", "item"] fun f => do
    return .projectItem (← f.optional "target" .text) (← f.required "item" Plan.Item.decoder)),
  ("open-surface", ofSurface openSurface),
  ("close-surface", ofSurface closeSurface),
  ("subscribe", ofFields ["role"] fun f => (f.required "role" Role.decoder).map subscribe),
  ("ping", bare ping)]

def decoder : Decoder Command := fun a n => do
  let (form, carried) ← Fields.tagBeside "command" "payload" forms a n
  form carried

end Command

namespace Request

def toJson (r : Request) : Value :=
  .object (match r.id with
    | none => r.command.fields
    | some id => Value.insertField "id" (.int id) r.command.fields)

/-- The command stands beside the number of the request and is held back. -/
def decoder : Decoder Request := fun a n => do
  let f ← Fields.ofObject a n
  let (id, rest) ← f.take "id"
  let id ← match id with
    | none => some none
    | some n => Decoder.optional (.nat 64) f.access n
  let (form, carried) ← (← rest.hold).beside "command" "payload" Command.forms
  return ⟨id, ← form carried⟩

end Request
end Lectern
