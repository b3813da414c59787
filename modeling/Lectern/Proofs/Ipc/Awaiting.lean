import Lectern.Ipc.Client
import Lectern.Proofs.Ipc.Connections
import Lectern.Proofs.Ipc.Frames
import Lectern.Proofs.Ipc.Message

/-!
# Waiting for a frame

A client that waits for a response keeps the events that come before it and passes the responses
to others over; one that waits for an event passes responses over. Either reads the frames of the
host in their order until the first one it waits for, however they are cut on their way.
-/

namespace Lectern
namespace Ipc

open Json Server

/-- A client that reads the payload finds the message in it. -/
inductive Bears (payload : Bytes) : Message → Prop
  | event {n : Node} {e : Event} (readable : readable? payload = some n)
    (event : (n.field? "event").bind (Event.decoder .top) = some e) : Bears payload (.event e)
  | response {n : Node} {id : Option Nat} {r : Response} (readable : readable? payload = some n)
    (noEvent : n.field? "event" = none) (number : (n.field? "id").bind (Decoder.nat 64 .top) = id)
    (response : Response.decoder .top n = some r) : Bears payload (.response id r)

theorem Discerned.bears {payload : Bytes} {m : Message} {n : Node} (discerned : Discerned m n)
    (readable : readable? payload = some n) : Bears payload m := by
  cases m with
  | event e => exact .event readable (discerned.event e rfl)
  | response id r =>
    have noEvent : n.field? "event" = none := by
      rw [← Option.not_isSome_iff_eq_none, discerned.event_iff]
      rintro ⟨e, he⟩
      cases he
    exact .response readable noEvent (discerned.id id r rfl) (discerned.response id r rfl)

/-- Clients understand what the host sends if its numbers survive. -/
theorem Sent.bears {m : Message} (sent : Sent m) (survives : Survives m) :
    Bears (Text.toBytes m.toJson.chars) m := by
  obtain ⟨n, readable, discerned⟩ := sent.discerned survives
  exact discerned.bears readable

theorem bears_response {r : Response} (h : r.Representable) {id : Option Nat}
    (hid : ∀ n, id = some n → n < UInt64.size) :
    Bears (Text.toBytes (Message.toJson (.response id r)).chars) (.response id r) := by
  have legible : (Message.toJson (.response id r)).Legible maxDepth :=
    Value.legible_object (r.sorted_fields id) (r.legible_fields h hid)
  exact (discerned_response h hid).bears (readable?_chars legible)

/-- A frame that a client can read and understand. -/
structure Packet where
  payload : Bytes
  message : Message
  short : payload.length ≤ Frame.maxSize
  bears : Bears payload message

namespace Packet

def bytes (p : Packet) : Bytes := framed p.payload

/-- The number that a response carries. -/
def number? (p : Packet) : Option Nat :=
  match p.message with
  | .response id _ => id
  | .event _ => none

def event? (p : Packet) : Option Event :=
  match p.message with
  | .response _ _ => none
  | .event e => some e

def events (ps : List Packet) : List Event := ps.filterMap event?

variable {p : Packet} {ps qs : List Packet} {e : Event} {id : Option Nat} {r : Response}

@[simp] theorem events_nil : events [] = [] := rfl

@[simp] theorem events_append : events (ps ++ qs) = events ps ++ events qs :=
  List.filterMap_append

theorem number?_of_event (h : p.message = .event e) : p.number? = none := by simp [number?, h]

theorem number?_of_response (h : p.message = .response id r) : p.number? = id := by
  simp [number?, h]

theorem events_cons_of_event (h : p.message = .event e) : events (p :: ps) = e :: events ps :=
  List.filterMap_cons_some (by simp [event?, h])

theorem events_cons_of_response (h : p.message = .response id r) : events (p :: ps) = events ps :=
  List.filterMap_cons_none (by simp [event?, h])

/-- What the host sends, if its numbers survive. -/
def ofSent {m : Message} (sent : Sent m) (survives : Survives m)
    (short : (Text.toBytes m.toJson.chars).length ≤ Frame.maxSize) : Packet :=
  ⟨Text.toBytes m.toJson.chars, m, short, sent.bears survives⟩

theorem bytes_eq_frame (h : p.payload = Text.toBytes p.message.toJson.chars) :
    p.bytes = frame p.message := by
  have short := Nat.not_lt.mpr p.short
  rw [h] at short
  simp [frame, Frame.ofValue, Frame.write, short, bytes, h, framed]

theorem start_bytes (p : Packet) (more : Bytes) :
    Frame.start (p.bytes ++ more) = .frame p.payload more :=
  Frame.start_framed p.short more

/-- At the front of bytes that begin packets there is the first of them, if anything is there. -/
theorem front {stream flight : Bytes} (whole : stream ++ flight = ps.flatMap bytes)
    (h : ¬ Frame.Partial stream) : ∃ p later rest, ps = p :: later ∧
      Frame.start stream = .frame p.payload rest ∧ rest ++ flight = later.flatMap bytes := by
  cases ps with
  | nil =>
    obtain ⟨rfl, -⟩ := List.append_eq_nil_iff.mp whole
    exact absurd Frame.partial_nil h
  | cons p later =>
    have hstart := Frame.start_append stream flight h
    rw [whole, List.flatMap_cons, start_bytes] at hstart
    cases hfront : Frame.start stream with
    | frame payload rest =>
      simp only [hfront, Frame.Start.frame.injEq] at hstart
      obtain ⟨rfl, hrest⟩ := hstart
      exact ⟨p, later, rest, rfl, rfl, hrest.symm⟩
    | tooLarge size rest => simp [hfront] at hstart
    | partialHeader => exact absurd (.inl hfront) h
    | partialPayload => exact absurd (.inr hfront) h

end Packet

namespace Client

open Packet

variable {c : Client} {p : Packet} {unread : List Packet} {flight : Bytes} {e : Event}
variable {id : Option Nat} {r : Response} {k fuel : Nat}

theorem incoming_of_event (h : p.message = .event e) : incoming p.payload = .ok (.event e) := by
  have bears := p.bears
  rw [h] at bears
  cases bears with
  | event readable event =>
    obtain ⟨m, hm, he⟩ := Option.bind_eq_some_iff.mp event
    simp [incoming, readable, hm, he]

theorem incoming_of_response (h : p.message = .response id r) :
    ∃ n, incoming p.payload = .ok (.other n) ∧ (∀ k, hasId k n = true ↔ id = some k) ∧
      Response.decoder .top n = some r := by
  have bears := p.bears
  rw [h] at bears
  cases bears with
  | response readable noEvent number response =>
    refine ⟨_, by simp [incoming, readable, noEvent], ?_, response⟩
    intro k
    rw [hasId, number, beq_iff_eq]

theorem next?_of_partial (live : c.ended = false) (h : Frame.Partial c.inbox) : c.next? = none := by
  rcases h with h | h <;> simp [next?, h, live]

theorem next?_of_frame {payload rest : Bytes} (h : Frame.start c.inbox = .frame payload rest) :
    c.next? = some (incoming payload, { c with inbox := rest }) := by
  simp [next?, h]

section Await

variable {rest : Bytes}

theorem await_of_partial (live : c.ended = false) (h : Frame.Partial c.inbox) :
    c.await k (fuel + 1) = (none, c) := by
  simp [await, next?_of_partial live h]

/-- An event is kept. -/
theorem await_of_event (front : Frame.start c.inbox = .frame p.payload rest)
    (h : p.message = .event e) : c.await k (fuel + 1) =
      await k fuel { c with pending := c.pending ++ [e], inbox := rest } := by
  simp [await, next?_of_frame front, incoming_of_event h]

/-- A response to others is passed over. -/
theorem await_of_foreign (front : Frame.start c.inbox = .frame p.payload rest)
    (h : p.message = .response id r) (foreign : id ≠ some k) :
    c.await k (fuel + 1) = await k fuel { c with inbox := rest } := by
  obtain ⟨n, hincoming, hid, -⟩ := incoming_of_response h
  have hforeign : ¬ hasId k n = true := fun h => foreign ((hid k).mp h)
  simp [await, next?_of_frame front, hincoming, hforeign]

theorem await_of_answer (front : Frame.start c.inbox = .frame p.payload rest)
    (h : p.message = .response (some k) r) :
    c.await k (fuel + 1) = (some (.ok r), { c with inbox := rest }) := by
  obtain ⟨n, hincoming, hid, hread⟩ := incoming_of_response h
  simp [await, next?_of_frame front, hincoming, (hid k).mpr rfl, hread]

theorem awaitEvent_of_event (front : Frame.start c.inbox = .frame p.payload rest)
    (h : p.message = .event e) :
    c.awaitEvent (fuel + 1) = (some (.ok e), { c with inbox := rest }) := by
  simp [awaitEvent, next?_of_frame front, incoming_of_event h]

theorem awaitEvent_of_response (front : Frame.start c.inbox = .frame p.payload rest)
    (h : p.message = .response id r) :
    c.awaitEvent (fuel + 1) = awaitEvent fuel { c with inbox := rest } := by
  obtain ⟨n, hincoming, -, -⟩ := incoming_of_response h
  simp [awaitEvent, next?_of_frame front, hincoming]

end Await

/-- How waiting for the response with a number ends or goes on, where what has come and what is
in flight are the packets `unread`. The events among what is read are kept. -/
inductive Awaited (k : Nat) (c : Client) (flight : Bytes) (unread : List Packet) :
    Option (Except Problem Response) × Client → Prop
  | waits {before after : List Packet} {left : Bytes} (split : unread = before ++ after)
    (passed : ∀ p ∈ before, p.number? ≠ some k) (whole : left ++ flight = after.flatMap bytes)
    (part : Frame.Partial left) : Awaited k c flight unread
      (none, { c with pending := c.pending ++ events before, inbox := left })
  | found {before after : List Packet} {p : Packet} {r : Response} {left : Bytes}
    (split : unread = before ++ p :: after) (passed : ∀ p ∈ before, p.number? ≠ some k)
    (answer : p.message = .response (some k) r) (whole : left ++ flight = after.flatMap bytes) :
    Awaited k c flight unread
      (some (.ok r), { c with pending := c.pending ++ events before, inbox := left })

theorem Awaited.pass {later : List Packet} {rest : Bytes}
    {result : Option (Except Problem Response) × Client} (foreign : p.number? ≠ some k)
    (h : Awaited k { c with pending := c.pending ++ events [p], inbox := rest } flight later
      result) : Awaited k c flight (p :: later) result := by
  have hevents (before : List Packet) : c.pending ++ events [p] ++ events before =
      c.pending ++ events (p :: before) := by
    rw [List.append_assoc, ← events_append, List.singleton_append]
  cases h with
  | waits split passed whole part =>
    simp only [hevents]
    exact .waits (congrArg _ split) (by simpa using ⟨foreign, passed⟩) whole part
  | found split passed answer whole =>
    simp only [hevents]
    exact .found (congrArg _ split) (by simpa using ⟨foreign, passed⟩) answer whole

/-- Fuel for more frames than there are bytes is enough. -/
theorem awaited (live : c.ended = false) (whole : c.inbox ++ flight = unread.flatMap bytes)
    (enough : c.inbox.length < fuel) : Awaited k c flight unread (c.await k fuel) := by
  induction fuel generalizing c unread with
  | zero => omega
  | succ fuel ih =>
    by_cases hpart : Frame.Partial c.inbox
    · have hnone : c.await k (fuel + 1) =
          (none, { c with pending := c.pending ++ events [], inbox := c.inbox }) := by
        simp [await_of_partial live hpart]
      rw [hnone]
      exact .waits rfl (by simp) whole hpart
    · obtain ⟨p, later, rest, rfl, hstart, hrest⟩ := front whole hpart
      -- the packet is an event or a response to others and is passed, or it is the answer
      have hless := Frame.length_lt_of_start hstart
      have hlater : Awaited k { c with pending := c.pending ++ events [p], inbox := rest } flight
          later (await k fuel { c with pending := c.pending ++ events [p], inbox := rest }) :=
        ih live hrest (by simp only; omega)
      cases hmessage : p.message with
      | event e =>
        have hforeign : p.number? ≠ some k := by simp [number?_of_event hmessage]
        have hpass := Awaited.pass hforeign hlater
        have hkept : events [p] = [e] := events_cons_of_event hmessage
        rw [await_of_event hstart hmessage]
        rwa [hkept] at hpass
      | response id r =>
        by_cases hk : id = some k
        · subst hk
          have hfound : c.await k (fuel + 1) =
              (some (.ok r), { c with pending := c.pending ++ events [], inbox := rest }) := by
            simp [await_of_answer hstart hmessage]
          rw [hfound]
          exact .found rfl (by simp) hmessage hrest
        · have hforeign : p.number? ≠ some k := by rwa [number?_of_response hmessage]
          have hpass := Awaited.pass hforeign hlater
          have hkept : events [p] = [] := events_cons_of_response hmessage
          rw [await_of_foreign hstart hmessage hk]
          rwa [hkept, List.append_nil] at hpass

/-- How waiting for an event ends or goes on. -/
inductive AwaitedEvent (c : Client) (flight : Bytes) (unread : List Packet) :
    Option (Except Problem Event) × Client → Prop
  | waits {before after : List Packet} {left : Bytes} (split : unread = before ++ after)
    (passed : events before = []) (whole : left ++ flight = after.flatMap bytes)
    (part : Frame.Partial left) :
    AwaitedEvent c flight unread (none, { c with inbox := left })
  | found {before after : List Packet} {p : Packet} {e : Event} {left : Bytes}
    (split : unread = before ++ p :: after) (passed : events before = [])
    (event : p.message = .event e) (whole : left ++ flight = after.flatMap bytes) :
    AwaitedEvent c flight unread (some (.ok e), { c with inbox := left })

theorem AwaitedEvent.pass {later : List Packet} {rest : Bytes}
    {result : Option (Except Problem Event) × Client} (answer : p.message = .response id r)
    (h : AwaitedEvent { c with inbox := rest } flight later result) :
    AwaitedEvent c flight (p :: later) result := by
  cases h with
  | waits split passed whole part =>
    exact .waits (congrArg _ split) ((events_cons_of_response answer).trans passed) whole part
  | found split passed event whole =>
    exact .found (congrArg _ split) ((events_cons_of_response answer).trans passed) event whole

theorem awaitedEvent (live : c.ended = false) (whole : c.inbox ++ flight = unread.flatMap bytes)
    (enough : c.inbox.length < fuel) : AwaitedEvent c flight unread (c.awaitEvent fuel) := by
  induction fuel generalizing c unread with
  | zero => omega
  | succ fuel ih =>
    by_cases hpart : Frame.Partial c.inbox
    · have hnone : c.awaitEvent (fuel + 1) = (none, { c with inbox := c.inbox }) := by
        simp [awaitEvent, next?_of_partial live hpart]
      rw [hnone]
      exact .waits rfl events_nil whole hpart
    · obtain ⟨p, later, rest, rfl, hstart, hrest⟩ := front whole hpart
      have hless := Frame.length_lt_of_start hstart
      cases hmessage : p.message with
      | event e =>
        rw [awaitEvent_of_event hstart hmessage]
        exact .found rfl events_nil hmessage hrest
      | response id r =>
        rw [awaitEvent_of_response hstart hmessage]
        exact .pass hmessage (ih live hrest (by simp only; omega))

section Cut

variable {d : Client}

theorem partial_of_next? (h : c.next? = none) : Frame.Partial c.inbox := by
  unfold next? at h
  split at h
  · cases h
  · cases h
  · exact .inl ‹_›
  · exact .inr ‹_›

/-- What is read goes away from the front of what has come. -/
theorem exists_of_next? {incoming : Incoming} (h : c.next? = some (.ok incoming, d)) :
    ∃ rest, d = { c with inbox := rest } ∧ rest.length < c.inbox.length := by
  unfold next? at h
  split at h
  · rename_i payload rest hstart
    simp only [Option.some.injEq, Prod.mk.injEq] at h
    exact ⟨rest, h.2.symm, Frame.length_lt_of_start hstart⟩
  · cases h
  · split at h
    · cases h
    · cases h
  · split at h
    · cases h
    · cases h

/-- As much fuel as there are bytes is enough, and more makes no difference. -/
theorem await_congr {m n : Nat} (hm : c.inbox.length < m) (hn : c.inbox.length < n) :
    c.await k m = c.await k n := by
  induction m generalizing c n with
  | zero => omega
  | succ m ih =>
    obtain ⟨n, rfl⟩ := Nat.exists_eq_add_one_of_ne_zero (Nat.ne_zero_of_lt hn)
    rw [await, await]
    cases hnext : c.next? with
    | none => rfl
    | some next =>
      obtain ⟨result, d⟩ := next
      cases result with
      | error problem => rfl
      | ok incoming =>
        obtain ⟨rest, rfl, hless⟩ := exists_of_next? hnext
        cases incoming with
        | event e => exact ih (by simp only; omega) (by simp only; omega)
        | other node =>
          have hlater : await k m { c with inbox := rest } = await k n { c with inbox := rest } :=
            ih (by simp only; omega) (by simp only; omega)
          simp only [hlater]

theorem next?_append (h : ¬ Frame.Partial c.inbox) (more : Bytes) :
    next? { c with inbox := c.inbox ++ more } =
      c.next?.map fun next => (next.1, { next.2 with inbox := next.2.inbox ++ more }) := by
  have hstart := Frame.start_append c.inbox more h
  cases hfront : Frame.start c.inbox with
  | frame payload rest => simp [next?, hstart, hfront]
  | tooLarge size rest => simp [next?, hstart, hfront]
  | partialHeader => exact absurd (.inl hfront) h
  | partialPayload => exact absurd (.inr hfront) h

/-- Waiting may be interrupted anywhere in what comes. -/
theorem await_append (live : c.ended = false) (enough : c.inbox.length < fuel) (more : Bytes) :
    await k (fuel + more.length) { c with inbox := c.inbox ++ more } =
      match c.await k fuel with
      | (some result, d) => (some result, { d with inbox := d.inbox ++ more })
      | (none, d) =>
        await k (d.inbox.length + more.length + 1) { d with inbox := d.inbox ++ more } := by
  induction fuel generalizing c with
  | zero => omega
  | succ fuel ih =>
    by_cases hpart : Frame.Partial c.inbox
    · have hnone : c.next? = none := by
        rcases hpart with h | h <;> simp [next?, h, live]
      rw [show c.await k (fuel + 1) = (none, c) by simp [await, hnone]]
      exact await_congr (by simp; omega) (by simp)
    · rw [Nat.add_right_comm, await, next?_append hpart, await]
      cases hnext : c.next? with
      | none => exact absurd (partial_of_next? hnext) hpart
      | some next =>
        obtain ⟨result, d⟩ := next
        cases result with
        | error problem => rfl
        | ok incoming =>
          obtain ⟨rest, rfl, hless⟩ := exists_of_next? hnext
          have hfuel : rest.length < fuel := by omega
          cases incoming with
          | event e =>
            exact @ih { c with pending := c.pending ++ [e], inbox := rest } live hfuel
          | other node =>
            cases hid : hasId k node with
            | true =>
              simp only [Option.map_some, hid, if_true]
              cases Response.decoder .top node with
              | none => rfl
              | some r => rfl
            | false =>
              simp only [Option.map_some, hid, Bool.false_eq_true, if_false]
              exact @ih { c with inbox := rest } live hfuel

/-- A request reaches a server that goes on, and what the client collects then is `more`. -/
structure Collected (c : Client) (command : Command) (s : Server) (more : Bytes) (t : Server) :
    Prop where
  sends : ∃ bytes, c.requestFrame command = .ok bytes ∧
    (s.receive c.connection bytes).collect c.connection = (more, t)
  isOpen : ((s.find? c.connection).map Connection.isOpen).getD false = true
  goes : t.sends c.connection = true

variable {command : Command} {s t : Server} {more : Bytes}

theorem Collected.request {o : Option (Except Problem Response)}
    (h : Collected c command s more t) (live : c.ended = false)
    (reads : await c.nextId (c.inbox.length + 1 + more.length)
      { c with nextId := c.nextId + 1, inbox := c.inbox ++ more } = (o, d)) :
    c.request s command = (o.getD (.error .closed), d, t) := by
  obtain ⟨⟨bytes, sends, collected⟩, isOpen, goes⟩ := h
  have hcollect : Client.collect { c with nextId := c.nextId + 1 }
      (s.receive c.connection bytes) =
        ({ c with nextId := c.nextId + 1, inbox := c.inbox ++ more }, t) := by
    simp [Client.collect, collected, goes, live]
  rw [Nat.add_right_comm, ← List.length_append] at reads
  simp only [Client.request, sends, isOpen, if_true, hcollect, reads]
  cases o with
  | none => rfl
  | some result => rfl

/-- The response may have come before the request is sent. -/
theorem Collected.request_early {result : Except Problem Response}
    (h : Collected c command s more t) (live : c.ended = false)
    (early : await c.nextId (c.inbox.length + 1) { c with nextId := c.nextId + 1 } =
      (some result, d)) :
    c.request s command = (result, { d with inbox := d.inbox ++ more }, t) := by
  have happend := @await_append { c with nextId := c.nextId + 1 } c.nextId (c.inbox.length + 1)
    live (Nat.lt_succ_self _) more
  rw [early] at happend
  exact h.request live happend

/-- Otherwise what is collected is read. -/
theorem Collected.request_late {e : Client} {o : Option (Except Problem Response)}
    (h : Collected c command s more t) (live : c.ended = false)
    (early : await c.nextId (c.inbox.length + 1) { c with nextId := c.nextId + 1 } = (none, d))
    (late : await c.nextId ((d.inbox ++ more).length + 1) { d with inbox := d.inbox ++ more } =
      (o, e)) :
    c.request s command = (o.getD (.error .closed), e, t) := by
  have happend := @await_append { c with nextId := c.nextId + 1 } c.nextId (c.inbox.length + 1)
    live (Nat.lt_succ_self _) more
  rw [early] at happend
  rw [List.length_append] at late
  exact h.request live (happend.trans late)

end Cut

end Client

end Ipc
end Lectern
