import Lectern.Desk.Navigation
import Lectern.Wire.Projection

/-!
# The live state and events as JSON

The plan id of a patch is left out when it is not mentioned and null when it is cleared.
-/

namespace Lectern

open Json

def Locks.toJson (l : Locks) : Value :=
  .object [("A", .bool l.a), ("B", .bool l.b), ("C", .bool l.c)]

def Locks.decoder : Decoder Locks := fun a n => do
  let f ← Fields.record ["A", "B", "C"] 0 a n
  return {
    a := ← f.defaulted "A" .bool false
    b := ← f.defaulted "B" .bool false
    c := ← f.defaulted "C" .bool false }

namespace Live

def State.toJson (s : State) : Value :=
  .object [
    ("black", .bool s.black),
    ("cursor", .int s.cursor),
    ("enabled", .bool s.enabled),
    ("lockedScreens", Locks.toJson s.locks),
    ("planId", .ofOption .text s.planId),
    ("target", s.target.toJson),
    ("updatedAt", .int s.updatedAt),
    ("white", .bool s.white)]

def State.decoder : Decoder State := fun a n => do
  let f ← Fields.record ["enabled", "planId", "cursor", "target", "black", "white",
    "lockedScreens", "updatedAt"] 8 a n
  return {
    enabled := ← f.required "enabled" .bool
    planId := ← f.optional "planId" .text
    cursor := ← f.required "cursor" .int64
    target := ← f.required "target" Surface.decoder
    black := ← f.required "black" .bool
    white := ← f.required "white" .bool
    locks := ← f.required "lockedScreens" Locks.decoder
    updatedAt := ← f.required "updatedAt" .int64 }

def Patch.toJson (p : Patch) : Value :=
  .object ([
    ("black", .ofOption .bool p.black),
    ("cursor", .ofOption .int p.cursor),
    ("enabled", .ofOption .bool p.enabled),
    ("lockedScreens", .ofOption Locks.toJson p.locks)] ++
    Value.present "planId" (.ofOption .text) p.planId ++ [
    ("target", .ofOption .text p.target),
    ("white", .ofOption .bool p.white)])

def Patch.decoder : Decoder Patch := fun a n => do
  let f ← Fields.record ["enabled", "planId", "cursor", "target", "black", "white",
    "lockedScreens"] 0 a n
  return {
    enabled := ← f.optional "enabled" .bool
    planId := ← f.defaulted "planId" (Decoder.map some (.optional .text)) none
    cursor := ← f.optional "cursor" .int64
    target := ← f.optional "target" .text
    black := ← f.optional "black" .bool
    white := ← f.optional "white" .bool
    locks := ← f.optional "lockedScreens" Locks.decoder }

end Live

inductive Role.Kind where
  | control
  | display

def Role.kinds : List (String × Role.Kind) := [("CONTROL", .control), ("DISPLAY", .display)]

def Role.toJson : Role → Value
  | control => .object [("kind", .text "CONTROL")]
  | display s => .object [("kind", .text "DISPLAY"), ("surface", s.toJson)]

def Role.decoder : Decoder Role := fun a n => do
  match ← Fields.tagBeside "kind" "surface" Role.kinds a n with
  | (.control, carried) =>
    Fields.Carried.nothing carried
    return .control
  | (.display, carried) => return .display (← (← carried).decode Surface.decoder)

inductive Event.Kind where
  | screen
  | window
  | live

def Event.kinds : List (String × Event.Kind) :=
  [("surface-state-changed", .screen), ("surface-window-changed", .window),
    ("live-state-changed", .live)]

def Event.toJson : Event → Value
  | screen s state =>
    .object [("state", state.toJson), ("surface", s.toJson),
      ("type", .text "surface-state-changed")]
  | window s isOpen =>
    .object [("isOpen", .bool isOpen), ("surface", s.toJson),
      ("type", .text "surface-window-changed")]
  | live state => .object [("state", state.toJson), ("type", .text "live-state-changed")]

def Event.decoder : Decoder Event := fun a n => do
  match ← Fields.tagged "type" Event.kinds a n with
  | (.screen, rest) =>
    let f ← rest.decode (Fields.record ["surface", "state"] 2)
    return .screen (← f.required "surface" Surface.decoder)
      (← f.required "state" Projection.Screen.decoder)
  | (.window, rest) =>
    let f ← rest.decode (Fields.record ["surface", "isOpen"] 2)
    return .window (← f.required "surface" Surface.decoder) (← f.required "isOpen" .bool)
  | (.live, rest) =>
    let f ← rest.decode (Fields.record ["state"] 1)
    return .live (← f.required "state" Live.State.decoder)

def Navigated.toJson (n : Navigated) : Value :=
  .object ([("live", n.live.toJson)] ++ Value.present "projection" Outcome.toJson n.projection)

def Navigated.decoder : Decoder Navigated := fun a n => do
  let f ← Fields.record ["live", "projection"] 2 a n
  return {
    live := ← f.required "live" Live.State.decoder
    projection := ← f.optional "projection" Outcome.decoder }

end Lectern
