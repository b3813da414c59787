import Lectern.Ipc.Server

/-!
# The client

A client numbers its requests from one and waits for the response with the same number.
Events that come while it waits are kept for later, responses to others are passed over.
The end of what the host sends is a problem of whoever waits for more.
-/

namespace Lectern
namespace Ipc

open Json

structure Client where
  connection : ConnectionId
  nextId : Nat
  /-- Events that came while a response was waited for. -/
  pending : List Event
  /-- Bytes that have come and are not read yet. -/
  inbox : Bytes
  /-- The host sends nothing behind these bytes. -/
  ended : Bool

namespace Client

inductive Problem where
  | cannotConnect (path : String)
  | cannotWrite
  | frame (problem : Frame.Problem)
  | notJson
  | closed
  | invalidEvent
  | invalidResponse

def Problem.message : Problem → String
  | cannotConnect path => "Failed to connect to host at " ++ path
  | cannotWrite => "Failed to write message length"
  | frame problem => problem.message
  | notJson => "Failed to deserialize message from JSON"
  | closed => "Host closed the connection"
  | invalidEvent => "Invalid event frame"
  | invalidResponse => "Invalid response frame"

/-- What a frame from the host holds. -/
inductive Incoming where
  | event (event : Event)
  | other (node : Node)

/-- Whatever has an event is an event. -/
def incoming (payload : Bytes) : Except Problem Incoming :=
  match readable? payload with
  | none => .error .notJson
  | some n =>
    match n.field? "event" with
    | none => .ok (.other n)
    | some e =>
      match Event.decoder .top e with
      | none => .error .invalidEvent
      | some e => .ok (.event e)

/-- Reads the next frame. There is none yet while the host may still send the rest of it. -/
def next? (c : Client) : Option (Except Problem Incoming × Client) :=
  match Frame.start c.inbox with
  | .frame payload rest => some (incoming payload, { c with inbox := rest })
  | .tooLarge size rest => some (.error (.frame (.tooLarge size)), { c with inbox := rest })
  | .partialHeader => if c.ended then some (.error .closed, { c with inbox := [] }) else none
  | .partialPayload =>
    if c.ended then some (.error (.frame .payloadCutShort), { c with inbox := [] }) else none

/-- A frame with this number. -/
def hasId (id : Nat) (n : Node) : Bool :=
  (n.field? "id").bind (Decoder.nat 64 .top) == some id

/-- Reads frames until the response with the number comes. There is no answer yet when the
bytes run out. -/
def await (id : Nat) : Nat → Client → Option (Except Problem Response) × Client
  | 0, c => (none, c)
  | fuel + 1, c =>
    match c.next? with
    | none => (none, c)
    | some (.error problem, c) => (some (.error problem), c)
    | some (.ok (.event e), c) => await id fuel { c with pending := c.pending ++ [e] }
    | some (.ok (.other n), c) =>
      if hasId id n then
        match Response.decoder .top n with
        | some response => (some (.ok response), c)
        | none => (some (.error .invalidResponse), c)
      else await id fuel c

/-- Reads frames until an event comes; responses are passed over. -/
def awaitEvent : Nat → Client → Option (Except Problem Event) × Client
  | 0, c => (none, c)
  | fuel + 1, c =>
    match c.next? with
    | none => (none, c)
    | some (.error problem, c) => (some (.error problem), c)
    | some (.ok (.event e), c) => (some (.ok e), c)
    | some (.ok (.other _), c) => awaitEvent fuel c

/-- The next event: one that was kept, or else the next one among the bytes. -/
def nextEvent (c : Client) : Option (Except Problem Event) × Client :=
  match c.pending with
  | e :: rest => (some (.ok e), { c with pending := rest })
  | [] => c.awaitEvent (c.inbox.length + 1)

/-- All events that can be had without waiting, and the problem that ends them if there is
one. -/
def takeEvents : Nat → Client → List Event × Option Problem × Client
  | 0, c => ([], none, c)
  | fuel + 1, c =>
    match c.nextEvent with
    | (some (.ok e), c) =>
      let (events, problem, c) := takeEvents fuel c
      (e :: events, problem, c)
    | (some (.error problem), c) => ([], some problem, c)
    | (none, c) => ([], none, c)

def connect (path : String) (s : Server) : Except Problem (Client × Server) :=
  match s.connect with
  | some (id, s) => .ok (⟨id, 1, [], [], false⟩, s)
  | none => .error (.cannotConnect path)

/-- Takes over what the host has sent. -/
def collect (c : Client) (s : Server) : Client × Server :=
  let (bytes, s) := s.collect c.connection
  ({ c with inbox := c.inbox ++ bytes, ended := !s.sends c.connection }, s)

/-- The frame of a request with the next number. -/
def requestFrame (c : Client) (command : Command) : Except Frame.Problem Bytes :=
  Frame.ofValue (Request.toJson ⟨some c.nextId, command⟩)

/-- Sends a command and waits for its response. A request that is too large is not sent. -/
def request (c : Client) (s : Server) (command : Command) :
    Except Problem Response × Client × Server :=
  let id := c.nextId
  let sending := c.requestFrame command
  let c := { c with nextId := id + 1 }
  match sending with
  | .error problem => (.error (.frame problem), c, s)
  | .ok bytes =>
    if ((s.find? c.connection).map Connection.isOpen).getD false then
      let (c, s) := c.collect (s.receive c.connection bytes)
      match c.await id (c.inbox.length + 1) with
      | (some result, c) => (result, c, s)
      | (none, c) => (.error .closed, c, s)
    else (.error .cannotWrite, c, s)

end Client
end Ipc
end Lectern
