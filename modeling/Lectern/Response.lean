import Lectern.Wire.Live

/-!
# Responses

A response says whether a command was carried out, and carries a value, the reason of a
refusal or the text of an error. The host sends responses and events.
-/

namespace Lectern

open Json

structure Response where
  ok : Bool
  data : Option Value
  reason : Option Reason
  error : Option String

namespace Response

def success (data : Value) : Response := ⟨true, some data, none, none⟩

def refused (reason : Reason) : Response := ⟨false, none, some reason, none⟩

def failure (error : String) : Response := ⟨false, none, none, some error⟩

def ofExcept {α : Type} (toJson : α → Value) : Except Failure α → Response
  | .ok a => success (toJson a)
  | .error e => failure e.message

/-- A refused edit answers with its reason, any other outcome with itself. -/
def ofOutcome (o : Outcome) : Response :=
  match o.ok, o.reason with
  | false, some reason => refused reason
  | _, _ => success o.toJson

def fields (r : Response) (id : Option Nat) : List (String × Value) :=
  Value.present "data" (fun v => v) r.data ++ Value.present "error" .text r.error ++
    Value.present "id" (fun n : Nat => .int n) id ++ [("ok", .bool r.ok)] ++
    Value.present "reason" Reason.toJson r.reason

def toJson (r : Response) : Value := .object (r.fields none)

def decoder : Decoder Response := fun a n => do
  let f ← Fields.record ["ok", "data", "reason", "error"] 1 a n
  return {
    ok := ← f.required "ok" .bool
    data := ← f.optional "data" .value
    reason := ← f.optional "reason" Reason.decoder
    error := ← f.optional "error" .text }

end Response

/-- What the host sends. -/
inductive Message where
  | response (id : Option Nat) (response : Response)
  | event (event : Event)

def Message.toJson : Message → Value
  | response id r => .object (r.fields id)
  | event e => .object [("event", e.toJson)]

end Lectern
