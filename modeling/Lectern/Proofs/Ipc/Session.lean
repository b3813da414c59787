import Lectern.Proofs.Ipc.Answers

/-!
# Sessions

Whatever else happens to a server, the frames that come on a connection are answered in the
order in which they come, in whatever pieces they come. This holds as long as every message
that goes out on the connection fits in a frame, the events among them as well.
-/

namespace Lectern
namespace Ipc

open Json

namespace Server

variable {s t : Server} {k : ConnectionId} {c d : Connection}

/-- From `s` to `t` the bytes `arrived` come on a connection, the messages `ms` go out on it, and
its peer takes the bytes `taken`. -/
inductive Session (k : ConnectionId) (s : Server) :
    List Message → Bytes → Bytes → Server → Prop
  | start : Session k s [] [] [] s
  | read {ms : List Message} {arrived taken : Bytes} {t : Server}
    (earlier : Session k s ms arrived taken t) (bytes : Bytes) :
    Session k s (ms ++ t.readOut k bytes) (arrived ++ bytes) taken (t.read k bytes)
  | aside {ms : List Message} {arrived taken : Bytes} {t u : Server}
    (earlier : Session k s ms arrived taken t) (es : List Event)
    (told : ∀ c, t.find? k = some c → u.find? k = some (c.sendAll (es.map .event))) :
    Session k s (ms ++ es.map .event) arrived taken u
  | collect {ms : List Message} {arrived taken : Bytes} {t : Server}
    (earlier : Session k s ms arrived taken t) :
    Session k s ms arrived (taken ++ (t.collect k).1) (t.collect k).2

/-- The connection `c` has become `d`, which goes on: the messages `ms` are all that was sent on it,
and the answers to the payloads are among them, one for each and in their order. -/
structure Served (c : Connection) (payloads : List Bytes) (ms : List Message) (taken : Bytes)
    (d : Connection) : Prop where
  isOpen : d.isOpen = true
  canSend : d.canSend = true
  sent : taken ++ d.sent = c.sent ++ ms.flatMap frame
  answers : List.Forall₂ Answers payloads (ms.filterMap answer?)

namespace Session

variable {ms : List Message} {arrived taken : Bytes} {payloads : List Bytes}

/-- At each point of a session the payloads that have come whole are answered, and what else has
come begins the others. -/
theorem progress (session : Session k s ms arrived taken t) (found : s.find? k = some c)
    (fresh : c.received = []) (can : c.canSend = true) (isOpen : c.isOpen = true)
    (short : ∀ payload ∈ payloads, payload.length ≤ Frame.maxSize) {more : Bytes}
    (whole : arrived ++ more = payloads.flatMap framed) (fits : ∀ m ∈ ms, Fits m) :
    ∃ before after d, payloads = before ++ after ∧ t.find? k = some d ∧
      Served c before ms taken d ∧ Frame.Partial d.received ∧
      d.received ++ more = after.flatMap framed := by
  induction session generalizing more with
  | start =>
    have served : Served c [] [] [] c := ⟨isOpen, can, by simp, .nil⟩
    exact ⟨[], payloads, c, rfl, found, served, fresh ▸ Frame.partial_nil, fresh ▸ whole⟩
  | @read ms arrived taken t earlier bytes ih =>
    rw [List.append_assoc] at whole
    simp only [List.forall_mem_append] at fits
    obtain ⟨before, after, d, rfl, hfound, served, -, hleft⟩ := ih whole fits.1
    -- What came begins frames that were begun before, so it is divided together with the rest.
    rw [← List.append_assoc] at hleft
    obtain ⟨now, later, left, rfl, divides, hmore⟩ :=
      Frame.exists_divides (fun p hp => short p (List.mem_append_right _ hp)) hleft
    obtain ⟨⟨e, hread, went⟩, hnow⟩ := went_read divides hfound served.canSend served.isOpen fits.2
    refine ⟨before ++ now, later, e, (List.append_assoc ..).symm, hread,
      ⟨went.isOpen, went.canSend, ?_, ?_⟩, went.received ▸ divides.partial_left,
      went.received ▸ hmore⟩
    · rw [went.sent, ← List.append_assoc, served.sent, List.flatMap_append, List.append_assoc]
    · rw [List.filterMap_append]
      exact List.rel_append served.answers hnow
  | @aside ms arrived taken t u earlier es told ih =>
    simp only [List.forall_mem_append] at fits
    obtain ⟨before, after, d, rfl, hfound, served, hpart, hleft⟩ := ih whole fits.1
    have htold := told d hfound
    rw [Connection.sendAll_of_fits served.canSend fits.2] at htold
    refine ⟨before, after, _, rfl, htold, ⟨served.isOpen, served.canSend, ?_, ?_⟩, hpart, hleft⟩
    · rw [← List.append_assoc, served.sent, List.flatMap_append, List.append_assoc]
    · rw [List.filterMap_append, answer?_events, List.append_nil]
      exact served.answers
  | @collect ms arrived taken t earlier ih =>
    obtain ⟨before, after, d, rfl, hfound, served, hpart, hleft⟩ := ih whole fits
    refine ⟨before, after, { d with sent := [] }, rfl, find?_update_self (fun _ => rfl) hfound,
      ⟨served.isOpen, served.canSend, ?_, served.answers⟩, hpart, hleft⟩
    simp [Server.collect, hfound, served.sent]

theorem of_aside {u : Server} (earlier : Session k s ms arrived taken t) (aside : Aside k t u) :
    ∃ ns, Session k s ns arrived taken u := by
  obtain ⟨es, told⟩ := aside
  exact ⟨_, earlier.aside es told⟩

end Session

end Server

/-- What may happen to a server. -/
inductive Move where
  | connect
  | stop
  | receive (id : ConnectionId) (bytes : Bytes)
  | receiveLast (id : ConnectionId) (bytes : Bytes)
  | close (id : ConnectionId)
  | collect (id : ConnectionId)

/-- The bytes that come on a connection, behind which more may come. -/
def Move.arriving (k : ConnectionId) : Move → Bytes
  | receive id bytes => if id = k then bytes else []
  | _ => []

/-- The move does not end a connection. -/
def Move.Spares (k : ConnectionId) : Move → Prop
  | receiveLast id _ => id ≠ k
  | close id => id ≠ k
  | _ => True

namespace Server

variable {s t : Server} {k : ConnectionId} {c d : Connection}
variable {ms : List Message} {arrived taken payload : Bytes} {payloads : List Bytes}

def move (s : Server) : Move → Server
  | .connect => (s.connect.map Prod.snd).getD s
  | .stop => s.stop
  | .receive id bytes => s.receive id bytes
  | .receiveLast id bytes => s.receiveLast id bytes
  | .close id => s.close id
  | .collect id => (s.collect id).2

def run (s : Server) (moves : List Move) : Server := moves.foldl move s

@[simp] theorem run_nil (s : Server) : s.run [] = s := rfl

@[simp] theorem run_cons (s : Server) (m : Move) (moves : List Move) :
    s.run (m :: moves) = (s.move m).run moves := rfl

/-- The bytes that the peer of a connection takes in a move. -/
def taking (k : ConnectionId) (s : Server) : Move → Bytes
  | .collect id => if id = k then (s.collect k).1 else []
  | _ => []

/-- The bytes that the peer of a connection takes in a run. -/
def takings (k : ConnectionId) : Server → List Move → Bytes
  | _, [] => []
  | s, m :: rest => s.taking k m ++ takings k (s.move m) rest

theorem Session.move (session : Session k s ms arrived taken t) {m : Move} (spares : m.Spares k) :
    ∃ ns, Session k s ns (arrived ++ m.arriving k) (taken ++ t.taking k m) (t.move m) := by
  cases m with
  | connect =>
    simp only [Move.arriving, taking, List.append_nil, Server.move]
    cases h : t.connect with
    | none => exact ⟨ms, session⟩
    | some connected => exact session.of_aside (aside_connect h)
  | stop =>
    simp only [Move.arriving, taking, List.append_nil]
    exact session.of_aside (.of_find? rfl)
  | receive id bytes =>
    simp only [Move.arriving, taking, List.append_nil]
    by_cases hid : id = k
    · subst hid
      rw [if_pos rfl]
      exact (session.read bytes).of_aside (aside_forwardAll id _)
    · rw [if_neg hid, List.append_nil]
      exact session.of_aside ((aside_read (Ne.symm hid) t bytes).trans (aside_forwardAll k _))
  | receiveLast id bytes =>
    simp only [Move.arriving, taking, List.append_nil]
    exact session.of_aside
      ((aside_read (Ne.symm spares) t bytes).trans (aside_close (Ne.symm spares) _))
  | close id =>
    simp only [Move.arriving, taking, List.append_nil]
    exact session.of_aside (aside_close (Ne.symm spares) t)
  | collect id =>
    simp only [Move.arriving, taking, List.append_nil]
    by_cases hid : id = k
    · subst hid
      rw [if_pos rfl]
      exact ⟨ms, session.collect⟩
    · rw [if_neg hid, List.append_nil]
      exact session.of_aside (aside_update (Ne.symm hid) t fun _ => by rfl)

/-- Every run is a session of a connection that it does not end. -/
theorem Session.run (session : Session k s ms arrived taken t) {moves : List Move}
    (spared : ∀ m ∈ moves, m.Spares k) :
    ∃ ns, Session k s ns (arrived ++ moves.flatMap (Move.arriving k))
      (taken ++ t.takings k moves) (t.run moves) := by
  induction moves generalizing t ms arrived taken with
  | nil => exact ⟨ms, by simpa [takings] using session⟩
  | cons m moves ih =>
    obtain ⟨ns, hmove⟩ := session.move (spared m List.mem_cons_self)
    obtain ⟨os, hrun⟩ := ih hmove fun n hn => spared n (List.mem_cons_of_mem m hn)
    refine ⟨os, ?_⟩
    simpa [takings, List.append_assoc] using hrun

/-- What is no request changes nothing but what is sent on its connection. -/
theorem handle_of_rejected (rejected : request? payload = none) (goes : c.canSend = true)
    (s : Server) : s.handle c payload = s.update c.id fun c =>
      c.send (.response (requestId? payload) (s.rejection payload)) := by
  simp only [handle, answer, rejected, goes, if_true]

theorem unchanged_of_rejected (rejected : request? payload = none) (goes : c.canSend = true)
    (s : Server) : (s.handle c payload).host = s.host ∧ ∀ j,
      ((s.handle c payload).find? j).map Connection.subscription =
        (s.find? j).map Connection.subscription := by
  rw [handle_of_rejected rejected goes]
  refine ⟨rfl, fun j => ?_⟩
  rw [find?_update s c.id j fun c => by rw [Connection.send_eq], Option.map_map]
  cases s.find? j with
  | none => rfl
  | some d =>
    by_cases hj : j = c.id
    · rw [Option.map_some, Option.map_some, Function.comp_apply, if_pos hj, Connection.send_eq]
    · rw [Option.map_some, Option.map_some, Function.comp_apply, if_neg hj]

/-- Whatever comes in frames on a connection is answered, each payload once and in order, as long
as all that goes out on the connection fits in frames; and what is no request changes neither
the host nor a subscription. -/
theorem one_answer_each {moves : List Move} (found : s.find? k = some c) (fresh : c.received = [])
    (can : c.canSend = true) (isOpen : c.isOpen = true) (spared : ∀ m ∈ moves, m.Spares k)
    (short : ∀ payload ∈ payloads, payload.length ≤ Frame.maxSize)
    (whole : moves.flatMap (Move.arriving k) = payloads.flatMap framed) :
    (∃ ms, Session k s ms (payloads.flatMap framed) (s.takings k moves) (s.run moves)) ∧
    (∀ ms, Session k s ms (payloads.flatMap framed) (s.takings k moves) (s.run moves) →
      (∀ m ∈ ms, Fits m) →
      ∃ d, (s.run moves).find? k = some d ∧ d.received = [] ∧
        Served c payloads ms (s.takings k moves) d) ∧
    ∀ (t : Server) (d : Connection) (payload : Bytes), request? payload = none →
      d.canSend = true →
      (t.handle d payload).host = t.host ∧ ∀ j, ((t.handle d payload).find? j).map
        Connection.subscription = (t.find? j).map Connection.subscription := by
  refine ⟨?_, fun ms session fits => ?_,
    fun t d payload rejected goes => unchanged_of_rejected rejected goes t⟩
  · obtain ⟨ms, session⟩ := Session.run (.start (k := k) (s := s)) spared
    rw [whole] at session
    exact ⟨ms, session⟩
  · have hwhole : payloads.flatMap framed ++ [] = payloads.flatMap framed := List.append_nil _
    obtain ⟨before, after, d, rfl, hfound, served, hpart, hleft⟩ :=
      session.progress found fresh can isOpen short hwhole fits
    rw [List.append_nil] at hleft
    obtain rfl := Frame.eq_nil_of_partial
      (fun p hp => short p (List.mem_append_right _ hp)) (hleft ▸ hpart)
    rw [List.append_nil]
    exact ⟨d, hfound, hleft, served⟩

theorem forwardAll_of_quiet (quiet : ∀ c ∈ s.connections, c.subscription = none) :
    s.forwardAll = s := by
  unfold forwardAll
  generalize s.connections = connections at quiet
  induction connections with
  | nil => rfl
  | cons c rest ih =>
    have hforward : s.forward c = s := by
      simp [forward, forwardFirst, quiet c List.mem_cons_self]
    rw [List.foldl_cons, hforward]
    exact ih fun d hd => quiet d (List.mem_cons_of_mem c hd)

/-- What goes out while one piece is read, when nobody observes. -/
theorem Session.receive {k : ConnectionId} {bytes : Bytes}
    (quiet : ∀ c ∈ (s.read k bytes).connections, c.subscription = none) :
    Session k s (s.readOut k bytes) bytes (s.takings k [.receive k bytes])
      (s.run [.receive k bytes]) := by
  have session := Session.start (k := k) (s := s) |>.read bytes
  rw [List.nil_append, List.nil_append] at session
  rwa [run_cons, run_nil, Server.move, Server.receive, forwardAll_of_quiet quiet]

/-- A server that has one connection, on which nothing has come yet. -/
def opened : Server := ⟨hall, [.new 0], 1, true, explained⟩

def asking (id : Nat) (command : Command) : Bytes :=
  Text.toBytes (Request.toJson ⟨some id, command⟩).chars

theorem request?_asking {id : Nat} {command : Command} (number : id < UInt64.size)
    (representable : command.Representable) (plain : command.doubles = []) :
    request? (asking id command) = some ⟨some id, command⟩ :=
  request?_toBytes ⟨by rintro _ ⟨⟩; exact number, representable⟩ (by simp [plain])

/-- A payload that breaks off, and a request. -/
def asked : List Bytes := [Text.toBytes ['[', '7'], asking 7 .getLive]

theorem one_answer_each_two :
    (opened.find? 0 = some (.new 0) ∧
      (∀ m ∈ [Move.receive 0 (asked.flatMap framed)], m.Spares 0) ∧
      (∀ payload ∈ asked, payload.length ≤ Frame.maxSize) ∧
      [Move.receive 0 (asked.flatMap framed)].flatMap (Move.arriving 0) = asked.flatMap framed) ∧
    ∃ ms d, Session 0 opened ms (asked.flatMap framed)
        (opened.takings 0 [.receive 0 (asked.flatMap framed)])
        (opened.run [.receive 0 (asked.flatMap framed)]) ∧
      (∀ m ∈ ms, Fits m) ∧
      (opened.run [.receive 0 (asked.flatMap framed)]).find? 0 = some d ∧ d.received = [] ∧
      Served (.new 0) asked ms (opened.takings 0 [.receive 0 (asked.flatMap framed)]) d := by
  have found : opened.find? 0 = some (.new 0) := rfl
  have spared : ∀ m ∈ [Move.receive 0 (asked.flatMap framed)], m.Spares 0 := by
    simp [Move.Spares]
  have short : ∀ payload ∈ asked, payload.length ≤ Frame.maxSize := by decide +kernel
  have whole : [Move.receive 0 (asked.flatMap framed)].flatMap (Move.arriving 0) =
      asked.flatMap framed := by
    simp [Move.arriving]
  have quiet : ∀ c ∈ (opened.read 0 (asked.flatMap framed)).connections,
      c.subscription = none := by decide +kernel
  have small : ∀ m ∈ opened.readOut 0 (asked.flatMap framed),
      (Text.toBytes m.toJson.chars).length ≤ Frame.maxSize := by decide +kernel
  have fits (m : Message) (hm : m ∈ opened.readOut 0 (asked.flatMap framed)) : Fits m :=
    fits_of_length (small m hm)
  have session := Session.receive quiet
  obtain ⟨-, served, -⟩ := one_answer_each found rfl rfl rfl spared short whole
  obtain ⟨d, hd⟩ := served _ session fits
  exact ⟨⟨found, spared, short, whole⟩, _, d, session, fits, hd⟩

end Server
end Ipc
end Lectern
