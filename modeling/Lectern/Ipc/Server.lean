import Lectern.Host
import Lectern.Ipc.Frame
import Lectern.Wire.Request

/-!
# The server

Each connection sends requests in frames and gets one response for each, in order. A
connection may hold one subscription, whose events it is sent as they happen; a display
counts as connected while its subscription lasts. A payload that is no request is answered
with an error and changes nothing. The error says what the reader of documents finds wrong with
the payload, in words of its own.

A session answers one request after another for as long as it has something to read. Its
events are sent when it pauses: when it has read all that has come, while it waits for the
library, and after a stint of reads. What happens between its last pause and its end, or
between a pause and another subscription, is not told to it any more.
-/

namespace Lectern
namespace Ipc

open Json Windows

abbrev ConnectionId := Nat

structure Connection where
  id : ConnectionId
  subscription : Option (Nat × Role)
  /-- Bytes that have arrived and are not read yet. -/
  received : Bytes
  /-- Bytes sent and not collected by the peer. -/
  sent : Bytes
  /-- Nothing more is sent after a frame that is too large. -/
  canSend : Bool
  isOpen : Bool
  /-- How many reads are left of the stint. -/
  readsLeft : Nat

/-- How many reads a session does at most before it pauses. -/
def Connection.stint : Nat := 128

def Connection.new (id : ConnectionId) : Connection :=
  ⟨id, none, [], [], true, true, Connection.stint⟩

/-- How many events wait for a connection at a desk. -/
def Connection.waiting (c : Connection) (desk : Desk Registry) : Nat :=
  match c.subscription with
  | none => 0
  | some (id, _) => (desk.hub.queue id).length

/-- Sends a message; one that is too large ends the sending. -/
def Connection.send (c : Connection) (m : Message) : Connection :=
  if c.canSend then
    match Frame.ofValue m.toJson with
    | .ok bytes => { c with sent := c.sent ++ bytes }
    | .error _ => { c with canSend := false }
  else c

structure Server where
  host : Host
  connections : List Connection
  nextConnection : ConnectionId
  listening : Bool
  /-- What the reader of documents says of a payload that is no request. -/
  explain : Bytes → String

/-- The number that a payload gives itself, whatever else it holds. -/
def requestId? (payload : Bytes) : Option Nat :=
  ((readable? payload).bind (Node.field? "id")).bind (Decoder.nat 64 .top)

def request? (payload : Bytes) : Option Request :=
  (document? payload).bind (Request.decoder .top)

namespace Server

def start (host : Host) (explain : Bytes → String) : Server := ⟨host, [], 0, true, explain⟩

/-- No more connections are taken; those that are open go on. -/
def stop (s : Server) : Server := { s with listening := false }

def find? (s : Server) (id : ConnectionId) : Option Connection :=
  s.connections.find? fun c => c.id == id

def update (s : Server) (id : ConnectionId) (change : Connection → Connection) : Server :=
  { s with connections := s.connections.map fun c => if c.id == id then change c else c }

def setDesk (s : Server) (desk : Desk Registry) : Server := { s with host := { s.host with desk } }

def connect (s : Server) : Option (ConnectionId × Server) :=
  if s.listening then
    some (s.nextConnection,
      { s with
        connections := s.connections ++ [.new s.nextConnection]
        nextConnection := s.nextConnection + 1 })
  else none

/-- Takes the windows after a display has come or gone, and announces a change. -/
def windowsAfter (desk : Desk Registry) (surface : Surface) (change : Option Bool × Registry) :
    Desk Registry :=
  let desk := { desk with windows := change.2 }
  match change.1 with
  | some isOpen => desk.windowChanged surface isOpen
  | none => desk

def displayConnected (desk : Desk Registry) : Role → Desk Registry
  | .control => desk
  | .display surface => windowsAfter desk surface (desk.windows.connect surface)

def displayDisconnected (desk : Desk Registry) : Role → Desk Registry
  | .control => desk
  | .display surface => windowsAfter desk surface (desk.windows.disconnect surface)

/-- Ends the subscription of a connection. -/
def unsubscribe (s : Server) (c : Connection) : Server :=
  match c.subscription with
  | none => s
  | some (id, role) =>
    (s.setDesk (displayDisconnected (s.host.desk.dispose id) role)).update c.id fun c =>
      { c with subscription := none }

/-- What a new observer starts from. -/
def snapshot (h : Host) (role : Role) : Value :=
  .object [
    ("live", h.desk.live.toJson),
    ("role", role.toJson),
    ("states", .object (Surface.all.map fun s => (s.name, (h.desk.screens.get s).toJson))),
    ("surfaces", h.surfacesJson)]

/-- Replaces the subscription of a connection. The old one ends first, and what the answer tells
holds after a new display has been counted. -/
def subscribe (s : Server) (c : Connection) (role : Role) : Response × Server :=
  let s := s.unsubscribe c
  let (id, desk) := s.host.desk.subscribe role
  let s := (s.setDesk (displayConnected desk role)).update c.id fun c =>
    { c with subscription := some (id, role) }
  (.success (snapshot s.host role), s)

/-- Sends the first `count` events that wait for a connection. -/
def forwardFirst (s : Server) (c : Connection) (count : Nat) : Server :=
  match c.subscription with
  | none => s
  | some (id, _) =>
    let (events, hub) := s.host.desk.hub.take id count
    (s.setDesk { s.host.desk with hub }).update c.id fun c =>
      events.foldl (fun c e => c.send (.event e)) c

/-- Sends the waiting events of a connection. -/
def forward (s : Server) (c : Connection) : Server := s.forwardFirst c (c.waiting s.host.desk)

def forwardAll (s : Server) : Server := s.connections.foldl forward s

/-- Sends what waits for a connection when its request has the library read, and begins a new
stint with the answer of the library. -/
def pauseForReading (s : Server) (c : Connection) : Option (Desk Registry) → Server
  | none => s
  | some desk =>
    (s.forwardFirst c (c.waiting desk)).update c.id fun c =>
      { c with readsLeft := Connection.stint - 1 }

/-- The answer to a payload that is no request. -/
def rejection (s : Server) (payload : Bytes) : Response :=
  .failure ("Invalid request: " ++ s.explain payload)

/-- Carries out what a payload asks for. -/
def answer (s : Server) (c : Connection) (payload : Bytes) : Message × Server :=
  match request? payload with
  | none => (.response (requestId? payload) (s.rejection payload), s)
  | some ⟨id, .subscribe role⟩ =>
    let (response, s) := s.subscribe c role
    (.response id response, s)
  | some ⟨id, command⟩ =>
    let reading := s.host.deskAtReading command
    let (response, host) := s.host.dispatch command
    (.response id response, { s with host }.pauseForReading c reading)

/-- The session is over: nothing more is read or sent. -/
def close (s : Server) (id : ConnectionId) : Server :=
  match s.find? id with
  | none => s
  | some c =>
    if c.isOpen then
      ((s.unsubscribe c).update id fun c =>
        { c with isOpen := false, canSend := false, received := [] }).forwardAll
    else s

/-- Answers one payload of a connection. A response that can no longer be sent ends the
session. -/
def handle (s : Server) (c : Connection) (payload : Bytes) : Server :=
  let (message, s) := s.answer c payload
  let s := s.update c.id fun c => c.send message
  if c.canSend then s else s.close c.id

/-- Does some more reads for a connection, and pauses when its stint is over. -/
def spend (s : Server) (c : Connection) (reads : Nat) : Server :=
  if reads ≤ c.readsLeft then
    s.update c.id fun c => { c with readsLeft := c.readsLeft - reads }
  else
    (s.forward c).update c.id fun c =>
      { c with readsLeft := Connection.stint - (reads - c.readsLeft) }

/-- Answers the complete frames among the bytes of a connection. -/
def work (id : ConnectionId) : Nat → Server → Server
  | 0, s => s
  | fuel + 1, s =>
    match s.find? id with
    | none => s
    | some c =>
      let s := s.spend c (Frame.reads c.received)
      match Frame.start c.received with
      | .frame payload rest =>
        let c := { c with received := rest }
        work id fuel ((s.update id fun c => { c with received := rest }).handle c payload)
      | .tooLarge _ _ => s.close id
      | .partialHeader | .partialPayload => s

/-- Takes in bytes of a connection and answers the frames among them. Each frame is at least
four bytes long, so the number of bytes is fuel enough. -/
def read (s : Server) (id : ConnectionId) (bytes : Bytes) : Server :=
  match s.find? id with
  | none => s
  | some c =>
    if c.isOpen then
      let received := c.received ++ bytes
      work id (received.length + 1)
        (s.update id fun c => { c with received, readsLeft := Connection.stint })
    else s

/-- Takes in bytes of a connection, behind which more may come. -/
def receive (s : Server) (id : ConnectionId) (bytes : Bytes) : Server :=
  (s.read id bytes).forwardAll

/-- Takes in the last bytes of a connection, with which its session ends. -/
def receiveLast (s : Server) (id : ConnectionId) (bytes : Bytes) : Server :=
  (s.read id bytes).close id

/-- Whether the peer may still be sent something. -/
def sends (s : Server) (id : ConnectionId) : Bool :=
  ((s.find? id).map Connection.canSend).getD false

/-- The peer takes what it has been sent. -/
def collect (s : Server) (id : ConnectionId) : Bytes × Server :=
  (((s.find? id).map Connection.sent).getD [], s.update id fun c => { c with sent := [] })

end Server
end Ipc
end Lectern
