import Lectern.Proofs.Ipc.Awaiting
import Lectern.Proofs.Ipc.Numbering
import Lectern.Proofs.Ipc.Transport
import Mathlib.Logic.Relation

/-!
# Exchanges between a client and a host

The host sends frames whenever it likes, what it sends comes cut anywhere, and calls are made one
after another. Whatever happens, the events that calls have returned, those that are kept and
those that are not read yet are all events of the host in their order, and a request returns the
first response that carries its number.
-/

namespace Lectern
namespace Ipc

open Json Server

/-- What a call waits for. -/
inductive Waiting where
  | response (id : Nat)
  | event

/-- What a call has returned; a request has a number. -/
inductive Returned where
  | response (id : Nat) (result : Except Client.Problem Response)
  | event (result : Except Client.Problem Event)

def Waiting.number? : Waiting → Option Nat
  | response id => some id
  | event => none

def Returned.number? : Returned → Option Nat
  | response id _ => some id
  | event _ => none

def Returned.event? : Returned → Option (Except Client.Problem Event)
  | response _ _ => none
  | event result => some result

/-- A client, and what has passed between it and a host so far. -/
structure Exchange where
  client : Client
  waiting : Option Waiting
  /-- Bytes that the host has sent and that have not come yet. -/
  flight : Bytes
  sent : List Packet
  /-- The requests that have been made, with their numbers. -/
  requests : List (Nat × Command)
  returned : List Returned

namespace Exchange

open Client Packet

def fresh (c : Client) : Exchange := ⟨c, none, [], [], [], []⟩

/-- The call that waits returns. -/
def returns (x : Exchange) (c : Client) (r : Returned) : Exchange :=
  { x with client := c, waiting := none, returned := x.returned ++ [r] }

/-- The call that waits, if one does, reads what has come. -/
def proceed (x : Exchange) : Exchange :=
  match x.waiting with
  | none => x
  | some (.response id) =>
    match x.client.await id (x.client.inbox.length + 1) with
    | (none, c) => { x with client := c }
    | (some result, c) => x.returns c (.response id result)
  | some .event =>
    match x.client.nextEvent with
    | (none, c) => { x with client := c }
    | (some result, c) => x.returns c (.event result)

/-- A request is made: it has the next number, and whatever becomes of it the number is used. -/
def numbered (x : Exchange) (command : Command) : Exchange :=
  { x with
    client := { x.client with nextId := x.client.nextId + 1 }
    requests := x.requests ++ [(x.client.nextId, command)] }

/-- What can happen: the host sends a frame, part of what it sent comes, or a call is made while
none waits. The number of a request is in no response that was sent before. -/
inductive Step (x : Exchange) : Exchange → Prop
  | send (p : Packet) : Step x { x with flight := x.flight ++ p.bytes, sent := x.sent ++ [p] }
  | arrive {come rest : Bytes} (split : x.flight = come ++ rest) :
    Step x (proceed
      { x with client := { x.client with inbox := x.client.inbox ++ come }, flight := rest })
  | request {command : Command} {bytes : Bytes} (idle : x.waiting = none)
    (unanswered : ∀ p ∈ x.sent, p.number? ≠ some x.client.nextId)
    (sends : x.client.requestFrame command = .ok bytes) :
    Step x (proceed { x.numbered command with waiting := some (.response x.client.nextId) })
  | refuse {command : Command} {problem : Frame.Problem} (idle : x.waiting = none)
    (fails : x.client.requestFrame command = .error problem) :
    Step x { x.numbered command with
      returned := x.returned ++ [.response x.client.nextId (.error (.frame problem))] }
  | nextEvent (idle : x.waiting = none) : Step x (proceed { x with waiting := some .event })

/-- What a new connection can come to. -/
inductive Reachable : Exchange → Prop
  | connect {path : String} {s t : Server} {c : Client}
    (connected : Client.connect path s = .ok (c, t)) : Reachable (fresh c)
  | step {x y : Exchange} (earlier : Reachable x) (step : Step x y) : Reachable y

/-- What the calls for events have returned. -/
def handed (x : Exchange) : List (Except Problem Event) := x.returned.filterMap Returned.event?

/-- The requests that have returned, and the one that waits. -/
def accounted (x : Exchange) : List Nat :=
  x.returned.filterMap Returned.number? ++ x.waiting.toList.filterMap Waiting.number?

/-- A request returns the first response with its number, unless it is too large to be sent. -/
inductive Settles (sent : List Packet) (requests : List (Nat × Command)) (id : Nat) :
    Except Problem Response → Prop
  | answered {before after : List Packet} {p : Packet} {r : Response}
    (split : sent = before ++ p :: after) (first : ∀ q ∈ before, q.number? ≠ some id)
    (answer : p.message = .response (some id) r) : Settles sent requests id (.ok r)
  | refused {command : Command} {problem : Frame.Problem} (made : (id, command) ∈ requests)
    (fails : Frame.ofValue (Request.toJson ⟨some id, command⟩) = .error problem) :
    Settles sent requests id (.error (.frame problem))

/-- These packets have come whole. -/
def Come (x : Exchange) (ps : List Packet) : Prop :=
  ∃ later, x.sent = ps ++ later ∧ x.flight <:+ later.flatMap bytes

/-- The packets `read` have been read, and those `unread` have not. -/
structure Progress (x : Exchange) (read unread : List Packet) : Prop where
  live : x.client.ended = false
  sent : x.sent = read ++ unread
  whole : x.client.inbox ++ x.flight = unread.flatMap bytes
  events : x.handed ++ x.client.pending.map .ok = (Packet.events read).map .ok
  unanswered : ∀ id, x.waiting = some (.response id) → ∀ p ∈ read, p.number? ≠ some id
  settles : ∀ id result, .response id result ∈ x.returned → Settles x.sent x.requests id result
  accounted : x.accounted = x.requests.map Prod.fst
  numbers : x.requests.map Prod.fst = List.range' 1 x.requests.length
  next : x.client.nextId = x.requests.length + 1

/-- A call that waits has read all packets that have come whole, and none is kept from it. -/
structure Rests (x : Exchange) : Prop where
  part : x.waiting.isSome → Frame.Partial x.client.inbox
  none_kept : x.waiting = some .event → x.client.pending = []

variable {x y : Exchange} {read unread : List Packet} {id : Nat}

section Returns

variable {c : Client} {r : Returned} {w : Waiting}

@[simp] theorem client_returns : (x.returns c r).client = c := rfl

@[simp] theorem waiting_returns : (x.returns c r).waiting = none := rfl

@[simp] theorem sent_returns : (x.returns c r).sent = x.sent := rfl

@[simp] theorem requests_returns : (x.returns c r).requests = x.requests := rfl

@[simp] theorem returned_returns : (x.returns c r).returned = x.returned ++ [r] := rfl

@[simp] theorem handed_returns_response {result : Except Problem Response} :
    (x.returns c (.response id result)).handed = x.handed := by
  simp [handed, List.filterMap_cons, Returned.event?]

@[simp] theorem handed_returns_event {result : Except Problem Event} :
    (x.returns c (.event result)).handed = x.handed ++ [result] := by
  simp [handed, Returned.event?]

theorem accounted_returns (waits : x.waiting = some w) (same : r.number? = w.number?) :
    (x.returns c r).accounted = x.accounted := by
  simp [accounted, waits, List.filterMap_cons, same]

theorem proceed_idle (idle : x.waiting = none) : x.proceed = x := by simp [proceed, idle]

theorem proceed_request (waits : x.waiting = some (.response id))
    (goes : x.client.await id (x.client.inbox.length + 1) = (none, c)) :
    x.proceed = { x with client := c } := by
  simp [proceed, waits, goes]

theorem proceed_response {result : Except Problem Response}
    (waits : x.waiting = some (.response id))
    (goes : x.client.await id (x.client.inbox.length + 1) = (some result, c)) :
    x.proceed = x.returns c (.response id result) := by
  simp [proceed, waits, goes]

theorem proceed_nextEvent (waits : x.waiting = some .event)
    (goes : x.client.nextEvent = (none, c)) : x.proceed = { x with client := c } := by
  simp [proceed, waits, goes]

theorem proceed_event {result : Except Problem Event} (waits : x.waiting = some .event)
    (goes : x.client.nextEvent = (some result, c)) :
    x.proceed = x.returns c (.event result) := by
  simp [proceed, waits, goes]

end Returns

section Settles

variable {sent : List Packet} {requests : List (Nat × Command)} {result : Except Problem Response}

theorem Settles.send (h : Settles sent requests id result) (p : Packet) :
    Settles (sent ++ [p]) requests id result := by
  cases h with
  | answered split first answer =>
    rw [split, List.append_assoc, List.cons_append]
    exact .answered rfl first answer
  | refused made fails => exact .refused made fails

theorem Settles.request (h : Settles sent requests id result) (made : Nat × Command) :
    Settles sent (requests ++ [made]) id result := by
  cases h with
  | answered split first answer => exact .answered split first answer
  | refused member fails => exact .refused (List.mem_append_left _ member) fails

end Settles

theorem Progress.events_append (h : x.Progress read unread) (before : List Packet) :
    x.handed ++ (x.client.pending ++ Packet.events before).map .ok =
      (Packet.events (read ++ before)).map .ok := by
  rw [List.map_append, ← List.append_assoc, h.events, Packet.events_append, List.map_append]

theorem Progress.unanswered_append {before : List Packet} (h : x.Progress read unread)
    (waits : x.waiting = some (.response id)) (passed : ∀ p ∈ before, p.number? ≠ some id) :
    ∀ p ∈ read ++ before, p.number? ≠ some id := by
  intro p hp
  rcases List.mem_append.mp hp with hp | hp
  · exact h.unanswered id waits p hp
  · exact passed p hp

/-- Waiting for a response comes to its end or reads all that has come whole. -/
theorem Progress.proceed_response (h : x.Progress read unread)
    (waits : x.waiting = some (.response id)) :
    ∃ read' unread', x.proceed.Progress read' unread' ∧ x.proceed.Rests := by
  have hawaited := awaited (k := id) h.live h.whole (Nat.lt_succ_self _)
  generalize hgoes : x.client.await id (x.client.inbox.length + 1) = result at hawaited
  cases hawaited with
  | @waits before after left split passed whole part =>
    rw [proceed_request waits hgoes]
    refine ⟨read ++ before, after, { h with
      sent := by rw [h.sent, split, List.append_assoc]
      whole := whole
      events := h.events_append before
      unanswered := ?_ }, ⟨fun _ => part, by simp [waits]⟩⟩
    intro k hk
    obtain rfl : id = k := by simpa [waits] using hk
    exact h.unanswered_append waits passed
  | @found before after p r left split passed answer whole =>
    have hsent : x.sent = read ++ before ++ p :: after := by rw [h.sent, split, List.append_assoc]
    have hevents : Packet.events (read ++ before ++ [p]) = Packet.events (read ++ before) := by
      rw [Packet.events_append, events_cons_of_response answer, events_nil, List.append_nil]
    rw [Exchange.proceed_response waits hgoes]
    refine ⟨read ++ before ++ [p], after, { h with
      sent := by rw [sent_returns, hsent, List.append_assoc _ [p], List.singleton_append]
      whole := whole
      events := ?_
      unanswered := by simp
      settles := ?_
      accounted := (accounted_returns waits rfl).trans h.accounted }, ⟨by simp, by simp⟩⟩
    · rw [hevents, handed_returns_response]
      exact h.events_append before
    · intro k result hk
      rcases List.mem_append.mp hk with hk | hk
      · exact h.settles k result hk
      · obtain ⟨rfl, rfl⟩ : k = id ∧ result = .ok r := by simpa using hk
        exact .answered hsent (h.unanswered_append waits passed) answer

/-- An event that is kept is handed out before anything is read. -/
theorem Progress.proceed_kept {e : Event} {later : List Event} (h : x.Progress read unread)
    (waits : x.waiting = some .event) (kept : x.client.pending = e :: later) :
    x.proceed.Progress read unread ∧ x.proceed.Rests := by
  have hgoes : x.client.nextEvent = (some (.ok e), { x.client with pending := later }) := by
    simp [nextEvent, kept]
  rw [Exchange.proceed_event waits hgoes]
  refine ⟨{ h with
    events := ?_
    unanswered := by simp
    settles := by simpa using h.settles
    accounted := (accounted_returns waits rfl).trans h.accounted }, ⟨by simp, by simp⟩⟩
  rw [← h.events, handed_returns_event, kept]
  simp

/-- If none is kept, the first event that comes is handed out. -/
theorem Progress.proceed_awaited (h : x.Progress read unread) (waits : x.waiting = some .event)
    (empty : x.client.pending = []) :
    ∃ read' unread', x.proceed.Progress read' unread' ∧ x.proceed.Rests := by
  have hnext : x.client.nextEvent = x.client.awaitEvent (x.client.inbox.length + 1) := by
    simp [nextEvent, empty]
  have hread : x.handed = (Packet.events read).map .ok := by
    rw [← h.events, empty, List.map_nil, List.append_nil]
  have hawaited := awaitedEvent h.live h.whole (Nat.lt_succ_self _)
  rw [← hnext] at hawaited
  generalize hgoes : x.client.nextEvent = result at hawaited
  cases hawaited with
  | @waits before after left split passed whole part =>
    rw [proceed_nextEvent waits hgoes]
    refine ⟨read ++ before, after, { h with
      sent := by rw [h.sent, split, List.append_assoc]
      whole := whole
      events := ?_
      unanswered := by simp [waits] }, ⟨fun _ => part, fun _ => empty⟩⟩
    rw [Packet.events_append, passed, List.append_nil]
    exact h.events
  | @found before after p e left split passed event whole =>
    have hevents : Packet.events (read ++ before ++ [p]) = Packet.events read ++ [e] := by
      rw [Packet.events_append, Packet.events_append, passed, events_cons_of_event event,
        events_nil, List.append_nil]
    rw [Exchange.proceed_event waits hgoes]
    refine ⟨read ++ before ++ [p], after, { h with
      sent := by rw [sent_returns, h.sent, split]; simp
      whole := whole
      events := ?_
      unanswered := by simp
      settles := by simpa using h.settles
      accounted := (accounted_returns waits rfl).trans h.accounted }, ⟨by simp, by simp⟩⟩
    rw [hevents, List.map_append, ← hread, handed_returns_event, client_returns, empty]
    simp

theorem Progress.proceed (h : x.Progress read unread) :
    ∃ read' unread', x.proceed.Progress read' unread' ∧ x.proceed.Rests := by
  cases hw : x.waiting with
  | none =>
    rw [proceed_idle hw]
    exact ⟨read, unread, h, ⟨by simp [hw], by simp [hw]⟩⟩
  | some w =>
    cases w with
    | response id => exact h.proceed_response hw
    | event =>
      cases hpending : x.client.pending with
      | nil => exact h.proceed_awaited hw hpending
      | cons e later => exact ⟨read, unread, h.proceed_kept hw hpending⟩

/-- A request is numbered as its predecessors are. -/
theorem Progress.numbers_numbered (h : x.Progress read unread) (command : Command) :
    (x.numbered command).requests.map Prod.fst =
        List.range' 1 (x.numbered command).requests.length ∧
      (x.numbered command).client.nextId = (x.numbered command).requests.length + 1 := by
  simp [numbered, h.numbers, h.next, List.range'_concat]
  omega

/-- Whatever happens, what has been read is accounted for, and a call that waits has read all. -/
theorem Step.progress (step : Step x y) (h : x.Progress read unread) (rests : x.Rests) :
    ∃ read' unread', y.Progress read' unread' ∧ y.Rests := by
  cases step with
  | send p =>
    exact ⟨read, unread ++ [p], { h with
      sent := by rw [h.sent, List.append_assoc]
      whole := by rw [← List.append_assoc, h.whole]; simp
      settles := fun id result hreturned => (h.settles id result hreturned).send p },
      ⟨rests.part, rests.none_kept⟩⟩
  | @arrive come rest split =>
    refine @Progress.proceed _ read unread { h with whole := ?_ }
    rw [List.append_assoc, ← split]
    exact h.whole
  | @request command bytes idle unanswered sends =>
    obtain ⟨numbers, next⟩ := h.numbers_numbered command
    refine @Progress.proceed _ read unread { h with
      unanswered := ?_
      settles := fun id result hreturned => (h.settles id result hreturned).request _
      accounted := ?_
      numbers := numbers
      next := next }
    · rintro id ⟨⟩ p hp
      refine unanswered p ?_
      rw [h.sent]
      exact List.mem_append_left _ hp
    · simp [Exchange.accounted, numbered, ← h.accounted, idle, Waiting.number?]
  | @refuse command problem idle fails =>
    obtain ⟨numbers, next⟩ := h.numbers_numbered command
    refine ⟨read, unread, { h with
      events := ?_
      settles := ?_
      accounted := ?_
      numbers := numbers
      next := next }, ⟨by simp [numbered, idle], by simp [numbered, idle]⟩⟩
    · rw [← h.events]
      simp [handed, numbered, List.filterMap_cons, Returned.event?]
    · intro id result hreturned
      rcases List.mem_append.mp hreturned with hreturned | hreturned
      · exact (h.settles id result hreturned).request _
      · obtain ⟨rfl, rfl⟩ : id = x.client.nextId ∧ result = .error (.frame problem) := by
          simpa using hreturned
        exact .refused (List.mem_append_right _ List.mem_cons_self) fails
    · simp [Exchange.accounted, numbered, ← h.accounted, idle, Returned.number?]
  | nextEvent idle =>
    exact @Progress.proceed _ read unread { h with
      unanswered := by simp
      accounted := by rw [← h.accounted]; simp [Exchange.accounted, idle, Waiting.number?] }

theorem progress_connect {path : String} {s t : Server} {c : Client}
    (connected : Client.connect path s = .ok (c, t)) : (fresh c).Progress [] [] := by
  unfold Client.connect at connected
  split at connected
  · cases connected
    exact {
      live := rfl
      sent := rfl
      whole := rfl
      events := rfl
      unanswered := by simp
      settles := by simp [fresh]
      accounted := rfl
      numbers := rfl
      next := rfl }
  · cases connected

/-- At every point of a run there are packets that have been read and others that have not. -/
theorem Reachable.progress (h : Reachable x) :
    ∃ read unread, x.Progress read unread ∧ x.Rests := by
  induction h with
  | connect connected =>
    exact ⟨[], [], progress_connect connected, ⟨by simp [fresh], by simp [fresh]⟩⟩
  | step _ step ih =>
    obtain ⟨read, unread, progress, rests⟩ := ih
    exact step.progress progress rests

/-- What has come whole has been read when a call waits. -/
theorem Progress.prefix_read {ps : List Packet} (h : x.Progress read unread)
    (part : Frame.Partial x.client.inbox) (come : x.Come ps) : ps <+: read := by
  obtain ⟨later, hsent, begun, hbegun⟩ := come
  rw [h.sent] at hsent
  rcases List.append_eq_append_iff.mp hsent with ⟨more, hps, hunread⟩ | ⟨more, hread, -⟩
  · cases more with
    | nil => exact ⟨[], by simpa using hps⟩
    | cons p more =>
      -- a packet that has come whole would be at the front of what is not read
      have hinbox : x.client.inbox ++ x.flight =
          (p.bytes ++ (more.flatMap bytes ++ begun)) ++ x.flight := by
        rw [h.whole, hunread]
        simp [← hbegun]
      rw [List.append_cancel_right hinbox] at part
      rcases part with part | part <;> cases (start_bytes p _).symm.trans part
  · exact ⟨more, hread.symm⟩

section Request

open Relation

theorem Reachable.steps (h : Reachable x) (steps : ReflTransGen Step x y) : Reachable y := by
  induction steps with
  | refl => exact h
  | tail _ step ih => exact ih.step step

theorem steps_send (x : Exchange) (ps : List Packet) : ReflTransGen Step x
    { x with flight := x.flight ++ ps.flatMap bytes, sent := x.sent ++ ps } := by
  induction ps generalizing x with
  | nil => simpa using ReflTransGen.refl
  | cons p ps ih =>
    have hrest := ih { x with flight := x.flight ++ p.bytes, sent := x.sent ++ [p] }
    simp only [List.append_assoc, List.singleton_append] at hrest
    rw [List.flatMap_cons]
    exact .head (.send p) hrest

/-- Packets are sent, and everything in flight comes. -/
theorem steps_collect (x : Exchange) (ps : List Packet) : ReflTransGen Step x (proceed
    { x with
      client := { x.client with inbox := x.client.inbox ++ (x.flight ++ ps.flatMap bytes) }
      flight := []
      sent := x.sent ++ ps }) :=
  (steps_send x ps).tail (.arrive (List.append_nil _).symm)

variable {s t : Server} {command : Command} {ps : List Packet}

/-- A request to a server is made, answered and waited for in such steps, where the server sends
the packets `ps` meanwhile. -/
theorem request_runs (live : x.client.ended = false) (idle : x.waiting = none)
    (unanswered : ∀ p ∈ x.sent, p.number? ≠ some x.client.nextId)
    (collected : Collected x.client command s (x.flight ++ ps.flatMap bytes) t) :
    ∃ y result, ReflTransGen Step x y ∧ y.sent = x.sent ++ ps ∧ y.flight = [] ∧
      y.requests = x.requests ++ [(x.client.nextId, command)] ∧
      x.client.request s command = (result, y.client, t) ∧
      (y.waiting = none ∧ y.returned = x.returned ++ [.response x.client.nextId result] ∨
        y.waiting = some (.response x.client.nextId)) := by
  obtain ⟨bytes, sends, -⟩ := collected.sends
  have hstep : Step x _ := .request idle unanswered sends
  obtain ⟨first, d, hfirst⟩ : ∃ o d, await x.client.nextId (x.client.inbox.length + 1)
    { x.client with nextId := x.client.nextId + 1 } = (o, d) := ⟨_, _, rfl⟩
  cases first with
  | some result =>
    rw [Exchange.proceed_response rfl hfirst] at hstep
    have hcome := ReflTransGen.head hstep (steps_collect _ ps)
    rw [proceed_idle rfl] at hcome
    exact ⟨_, result, hcome, rfl, rfl, rfl, collected.request_early live hfirst, .inl ⟨rfl, rfl⟩⟩
  | none =>
    rw [proceed_request rfl hfirst] at hstep
    have hcome := ReflTransGen.head hstep (steps_collect _ ps)
    obtain ⟨second, e, hsecond⟩ : ∃ o e, await x.client.nextId
      ((d.inbox ++ (x.flight ++ ps.flatMap Packet.bytes)).length + 1)
      { d with inbox := d.inbox ++ (x.flight ++ ps.flatMap Packet.bytes) } = (o, e) := ⟨_, _, rfl⟩
    have hlate := collected.request_late live hfirst hsecond
    cases second with
    | some result =>
      rw [Exchange.proceed_response rfl hsecond] at hcome
      exact ⟨_, result, hcome, rfl, rfl, rfl, hlate, .inl ⟨rfl, rfl⟩⟩
    | none =>
      rw [proceed_request rfl hsecond] at hcome
      exact ⟨_, _, hcome, rfl, rfl, rfl, hlate, .inr rfl⟩

/-- No number is used before it is next. -/
theorem Progress.notMem_requests (h : x.Progress read unread) (command : Command) :
    (x.client.nextId, command) ∉ x.requests := by
  intro hmem
  have hnumber := List.mem_map_of_mem (f := Prod.fst) hmem
  rw [h.numbers, List.mem_range'_1, h.next] at hnumber
  omega

/-- So a request to a server returns a response if one with its number is among what the server
sends. -/
theorem Reachable.request (h : Reachable x) (idle : x.waiting = none)
    (unanswered : ∀ p ∈ x.sent, p.number? ≠ some x.client.nextId)
    (collected : Collected x.client command s (x.flight ++ ps.flatMap bytes) t)
    (answered : ∃ p ∈ ps, p.number? = some x.client.nextId) :
    ∃ (y : Exchange) (r : Response), y.Reachable ∧ y.sent = x.sent ++ ps ∧
      x.client.request s command = (.ok r, y.client, t) ∧
      y.returned = x.returned ++ [.response x.client.nextId (.ok r)] := by
  obtain ⟨before, after, progress, -⟩ := h.progress
  obtain ⟨y, result, steps, sent, flight, requests, request, ends⟩ :=
    request_runs progress.live idle unanswered collected
  have reachable := h.steps steps
  obtain ⟨read, unread, hy, rests⟩ := reachable.progress
  rcases ends with ⟨-, returned⟩ | waits
  · have hsettles := hy.settles x.client.nextId result (by simp [returned])
    cases hsettles with
    | answered _ _ _ => exact ⟨y, _, reachable, sent, request, returned⟩
    | refused made fails =>
      rw [requests] at made
      rcases List.mem_append.mp made with made | made
      · exact absurd made (progress.notMem_requests _)
      · obtain ⟨bytes, sends, -⟩ := collected.sends
        obtain rfl := (Prod.mk.inj (List.mem_singleton.mp made)).2
        cases sends.symm.trans fails
  · obtain ⟨p, hp, number⟩ := answered
    have hcome : y.Come y.sent := ⟨[], by simp, by simp [flight]⟩
    have hread := (hy.prefix_read (rests.part (by simp [waits])) hcome).subset
      (by rw [sent]; exact List.mem_append_right _ hp)
    exact absurd number (hy.unanswered _ waits p hread)

end Request

/-- The answer to a command is collected in one packet from a server that has no other
connections. -/
theorem collected_single (explain : Bytes → String) {h : Host} {n id : Nat} {command : Command}
    (passes : Client.Passes h id command) (hid : id < UInt64.size) :
    ∃ (p : Packet) (t : Server), p.number? = some id ∧
      Collected (ready id) command (single explain h [] [] n) p.bytes t := by
  have hnumber : ∀ k, some id = some k → k < UInt64.size := by
    rintro _ ⟨⟩
    exact hid
  obtain ⟨bytes, sends⟩ := passes.sendable
  have hrequest := request?_toBytes (r := ⟨some id, command⟩)
    ⟨hnumber, passes.representable⟩ passes.back
  obtain ⟨m, hreceive⟩ := receive_single explain h n sends hrequest passes.answered passes.fits
  let p : Packet := ⟨_, .response (some id) (h.dispatch command).1,
    length_le_of_fits passes.fits, bears_response passes.representable_response hnumber⟩
  have hbytes : p.bytes = frame p.message := bytes_eq_frame rfl
  refine ⟨p, single explain (h.dispatch command).2 [] [] m, rfl, ⟨⟨bytes, sends, ?_⟩, rfl, rfl⟩⟩
  rw [hbytes]
  exact congrArg (fun s => s.collect 0) hreceive

/-- Events are handed out in their order, without a gap; a request returns the first response with
its number; every request has a number of its own and returns once; nothing that has come is
waited for; and a request that a server answers at once is one of these. -/
theorem Reachable.loses_nothing (h : Reachable x) :
    (∃ later, x.handed ++ (x.client.pending ++ later).map .ok =
      (Packet.events x.sent).map .ok) ∧
    (∀ id result, .response id result ∈ x.returned → Settles x.sent x.requests id result) ∧
    (x.accounted = x.requests.map Prod.fst ∧ (x.requests.map Prod.fst).Nodup) ∧
    (∀ ps, x.Come ps →
      (x.waiting = some .event → (Packet.events ps).map .ok <+: x.handed) ∧
      ∀ id, x.waiting = some (.response id) → ∀ p ∈ ps, p.number? ≠ some id) ∧
    ∀ (s t : Server) (command : Command) (ps : List Packet), x.waiting = none →
      (∀ p ∈ x.sent, p.number? ≠ some x.client.nextId) →
      Collected x.client command s (x.flight ++ ps.flatMap bytes) t →
      (∃ p ∈ ps, p.number? = some x.client.nextId) →
      ∃ (y : Exchange) (r : Response), y.Reachable ∧ y.sent = x.sent ++ ps ∧
        x.client.request s command = (.ok r, y.client, t) ∧
        y.returned = x.returned ++ [.response x.client.nextId (.ok r)] := by
  obtain ⟨read, unread, progress, rests⟩ := h.progress
  refine ⟨?_, progress.settles, ⟨progress.accounted, ?_⟩, ?_, ?_⟩
  · refine ⟨Packet.events unread, ?_⟩
    rw [List.map_append, ← List.append_assoc, progress.events, progress.sent, events_append,
      List.map_append]
  · rw [progress.numbers]
    exact List.nodup_range'
  · intro ps come
    constructor
    · intro waits
      obtain ⟨more, rfl⟩ := progress.prefix_read (rests.part (by simp [waits])) come
      have hevents := progress.events
      rw [rests.none_kept waits, List.map_nil, List.append_nil, events_append,
        List.map_append] at hevents
      exact ⟨_, hevents.symm⟩
    · intro id waits p hp
      have hread := (progress.prefix_read (rests.part (by simp [waits])) come).subset hp
      exact progress.unanswered id waits p hread
  · intro s t command ps idle unanswered collected answered
    exact h.request idle unanswered collected answered

/-- What a host answers that has no library. -/
def unable : Response := .failure "No library"

/-- A response to a request, or to none. -/
def answering (id : Option Nat) (short :
    (Text.toBytes (Message.toJson (.response id unable)).chars).length ≤ Frame.maxSize)
    (hid : ∀ n, id = some n → n < UInt64.size) : Packet :=
  ⟨_, .response id unable, short, bears_response ⟨by simp [unable, Response.failure],
    by simp [unable, Response.failure]⟩ hid⟩

def stray : Packet := answering none (by decide +kernel) (by simp)

def news : Packet :=
  .ofSent (.event scaled) ⟨by decide +kernel, by decide +kernel⟩ (by decide +kernel)

def reply : Packet := answering (some 1) (by decide +kernel) (by rintro _ ⟨⟩; decide)

/-- What a client reads that has made its first request when the packets have come. -/
def reading : Client := ⟨0, 2, [], stray.bytes ++ (news.bytes ++ (reply.bytes ++ [])), false⟩

theorem await_reading : reading.await 1 (reading.inbox.length + 1) =
    (some (.ok unable), ⟨0, 2, [scaled], [], false⟩) := by
  calc reading.await 1 (reading.inbox.length + 1)
      = reading.await 1 (reading.inbox.length + 3) := await_congr (by omega) (by omega)
    _ = await 1 (reading.inbox.length + 2)
          { reading with inbox := news.bytes ++ (reply.bytes ++ []) } :=
        await_of_foreign (start_bytes stray _) rfl (by simp)
    _ = await 1 (reading.inbox.length + 1)
          { reading with pending := [scaled], inbox := reply.bytes ++ [] } :=
        await_of_event (start_bytes news _) rfl
    _ = (some (.ok unable), ⟨0, 2, [scaled], [], false⟩) :=
        await_of_answer (start_bytes reply _) rfl

/-- While the response to the first request is waited for, one without a number and an event
come before it; and the server of the hall answers its first request. -/
theorem loses_nothing_meanwhile :
    let x : Exchange := ⟨ready 2, none, [], [stray, news, reply], [(1, .ping)],
      [.response 1 (.ok unable), .event (.ok scaled)]⟩
    (x.Reachable ∧
      (∃ later, x.handed ++ (x.client.pending ++ later).map .ok =
        (Packet.events x.sent).map .ok) ∧
      Settles x.sent x.requests 1 (.ok unable) ∧ (x.requests.map Prod.fst).Nodup) ∧
    ∃ (y : Exchange) (r : Response), y.Reachable ∧ y.returned = [.response 1 (.ok r)] ∧
      ((ready 1).request (single explained hall [] [] Connection.stint) .toggleBlack).1 =
        .ok r := by
  intro x
  let asking : Exchange := ⟨ready 2, some (.response 1), [], [], [(1, .ping)], []⟩
  let answered : Exchange := ⟨⟨0, 2, [scaled], [], false⟩, none, [], [stray, news, reply],
    [(1, .ping)], [.response 1 (.ok unable)]⟩
  have connected :
      Client.connect "/run/host" (Server.start hall explained) = .ok (ready 1, _) := rfl
  have hasking : Step (fresh (ready 1)) asking := by
    obtain ⟨bytes, sends⟩ : ∃ bytes, (ready 1).requestFrame .ping = .ok bytes :=
      sendable_of_length (r := ⟨some 1, .ping⟩) (by decide +kernel)
    have h : Step (fresh (ready 1)) _ := .request rfl (by simp [fresh]) sends
    rw [proceed_request rfl (await_of_partial rfl Frame.partial_nil)] at h
    exact h
  have hanswered : Relation.ReflTransGen Step asking answered := by
    have hcome : proceed { asking with client := reading, sent := [stray, news, reply] } =
        answered := Exchange.proceed_response rfl await_reading
    rw [← hcome]
    exact steps_collect asking [stray, news, reply]
  have hx : Step answered x := by
    have h : Step answered _ := .nextEvent rfl
    rw [proceed_event rfl rfl] at h
    exact h
  have reachable := (((Reachable.connect connected).step hasking).steps hanswered).step hx
  obtain ⟨events, settles, ⟨-, distinct⟩, -, -⟩ := reachable.loses_nothing
  obtain ⟨-, -, -, -, requests⟩ := (Reachable.connect connected).loses_nothing
  obtain ⟨p, t, number, collected⟩ := collected_single explained (n := Connection.stint)
    passes_toggleBlack (by decide)
  obtain ⟨y, r, hy, -, hrequest, returned⟩ := requests _ t .toggleBlack [p] rfl (by simp [fresh])
    (by simpa [fresh] using collected) ⟨p, by simp, number⟩
  refine ⟨⟨reachable, events, settles 1 _ (by simp [x]), distinct⟩, y, r, hy, returned, ?_⟩
  exact congrArg Prod.fst hrequest

end Exchange

end Ipc
end Lectern
