import Mathlib.Data.List.Forall2
import Lectern.Proofs.Ipc.Connections
import Lectern.Proofs.Ipc.Frames
import Lectern.Proofs.Ipc.Message
import Lectern.Proofs.Ipc.Numbering

/-!
# Answers

A server answers the complete frames among the bytes of a connection, one after another. What
goes out on the connection meanwhile is computed beside the server; without the events it is
one answer for each payload.
-/

namespace Lectern
namespace Ipc

open Json

/-- What a response says, and the number it says it with. -/
def answer? : Message → Option (Option Nat × Response)
  | .response id r => some (id, r)
  | .event _ => none

theorem answer?_events (es : List Event) : (es.map Message.event).filterMap answer? = [] := by
  simp [List.filterMap_map, Function.comp_def, answer?]

/-- The answer to a payload: it has the number that the payload gives itself, and what is no
request is answered with an error. -/
structure Answers (payload : Bytes) (answer : Option Nat × Response) : Prop where
  id : ∀ n, answer.1 = some n ↔ Numbered payload n
  rejected : request? payload = none → answer.2.ok = false ∧ answer.2.error.isSome = true

namespace Server

variable {s : Server} {k : ConnectionId} {c d : Connection} {payload : Bytes}

theorem answer_answers (s : Server) (c : Connection) (payload : Bytes) :
    ∃ a, answer? (s.answer c payload).1 = some a ∧ Answers payload a := by
  unfold answer
  split
  · rename_i h
    exact ⟨_, rfl, fun n => requestId?_eq_some_iff, fun _ => ⟨rfl, rfl⟩⟩
  · rename_i id role h
    exact ⟨_, rfl, fun n => Request.id_eq_some_iff h, fun hnone => by simp [h] at hnone⟩
  · rename_i id command _ h
    exact ⟨_, rfl, fun n => Request.id_eq_some_iff h, fun hnone => by simp [h] at hnone⟩

/-- What goes out on a connection when the next frame takes more reads than are left. -/
def pausing (s : Server) (c : Connection) : List Message :=
  if Frame.reads c.received ≤ c.readsLeft then []
  else s.outgoing c (c.waiting s.host.desk)

/-- What goes out on a connection while the library is read for a payload. -/
def reading (s : Server) (c : Connection) (payload : Bytes) : List Message :=
  match request? payload with
  | none => []
  | some r =>
    match s.host.deskAtReading r.command with
    | none => []
    | some desk => outgoing { s with host := (s.host.dispatch r.command).2 } c (c.waiting desk)

/-- What goes out on a connection while a payload is answered. -/
def answering (s : Server) (c : Connection) (payload : Bytes) : List Message :=
  s.reading c payload ++ [(s.answer c payload).1]

/-- The first frame of what has come on a connection is read, and `rest` is left. -/
def advance (s : Server) (c : Connection) (rest : Bytes) : Server :=
  (s.spend c (Frame.reads c.received)).update c.id fun c => { c with received := rest }

/-- What goes out on a connection while the complete frames among its bytes are answered. -/
def putOut (k : ConnectionId) : Nat → Server → List Message
  | 0, _ => []
  | fuel + 1, s =>
    match s.find? k with
    | none => []
    | some c =>
      s.pausing c ++
        match Frame.start c.received with
        | .frame payload rest =>
          let t := s.advance c rest
          let c := { c with received := rest }
          t.answering c payload ++ putOut k fuel (t.handle c payload)
        | _ => []

theorem work_of_frame {rest : Bytes} (found : s.find? c.id = some c)
    (front : Frame.start c.received = .frame payload rest) (fuel : Nat) :
    work c.id (fuel + 1) s =
      work c.id fuel ((s.advance c rest).handle { c with received := rest } payload) := by
  simp only [work, found, front, advance]

theorem putOut_of_frame {rest : Bytes} (found : s.find? c.id = some c)
    (front : Frame.start c.received = .frame payload rest) (fuel : Nat) :
    putOut c.id (fuel + 1) s =
      s.pausing c ++ ((s.advance c rest).answering { c with received := rest } payload ++
        putOut c.id fuel ((s.advance c rest).handle { c with received := rest } payload)) := by
  simp only [putOut, found, front]

theorem work_of_partial (found : s.find? k = some c) (front : Frame.Partial c.received)
    (fuel : Nat) : work k (fuel + 1) s = s.spend c (Frame.reads c.received) := by
  rcases front with front | front <;> simp only [work, found, front]

theorem putOut_of_partial (found : s.find? k = some c) (front : Frame.Partial c.received)
    (fuel : Nat) : putOut k (fuel + 1) s = s.pausing c := by
  rcases front with front | front <;> simp [putOut, found, front]

/-- The connection `d` is `c` after it has sent `ms` and read all but `left`. -/
structure Went (c : Connection) (ms : List Message) (left : Bytes) (d : Connection) : Prop where
  canSend : d.canSend = true
  isOpen : d.isOpen = true
  received : d.received = left
  sent : d.sent = c.sent ++ ms.flatMap frame

theorem Went.trans {ms ns : List Message} {left left' : Bytes} {e : Connection}
    (first : Went c ms left d) (second : Went d ns left' e) : Went c (ms ++ ns) left' e where
  canSend := second.canSend
  isOpen := second.isOpen
  received := second.received
  sent := by rw [second.sent, first.sent, List.flatMap_append, List.append_assoc]

theorem find?_spend (found : s.find? k = some c) :
    ∃ n, (s.spend c (Frame.reads c.received)).find? k =
      some { c.sendAll (s.pausing c) with readsLeft := n } := by
  obtain rfl := id_of_find? found
  unfold spend pausing
  split
  · exact ⟨_, find?_update_self (fun _ => rfl) found⟩
  · exact ⟨_, find?_update_self (fun _ => rfl) (find?_forwardFirst_self found _)⟩

/-- Answering a payload sends what waited while the library was read. -/
theorem find?_answer (found : s.find? d.id = some c) (payload : Bytes) :
    ∃ subscription n, (s.answer d payload).2.find? d.id =
      some { c.sendAll (s.reading d payload) with subscription, readsLeft := n } := by
  cases h : request? payload with
  | none => exact ⟨c.subscription, c.readsLeft, by simp [answer, reading, h, found]⟩
  | some r =>
    obtain ⟨id, command⟩ := r
    by_cases hsub : ∃ role, command = .subscribe role
    · obtain ⟨role, rfl⟩ := hsub
      have hreading : s.reading d payload = [] := by
        simp [reading, h, Host.deskAtReading, Host.navigation?]
      obtain ⟨subscription, hfound⟩ := find?_subscribe_self found role
      refine ⟨subscription, c.readsLeft, ?_⟩
      rw [hreading]
      simpa [answer, h] using hfound
    · have hanswer := answer_of_request s d h fun role hrole => hsub ⟨role, hrole⟩
      rw [hanswer]
      cases hdesk : s.host.deskAtReading command with
      | none =>
        refine ⟨c.subscription, c.readsLeft, ?_⟩
        have hreading : s.reading d payload = [] := by simp [reading, h, hdesk]
        rw [hreading]
        exact found
      | some desk =>
        have hreading : s.reading d payload =
            outgoing { s with host := (s.host.dispatch command).2 } d (d.waiting desk) := by
          simp [reading, h, hdesk]
        have hfound : ({ s with host := (s.host.dispatch command).2 } : Server).find? d.id =
            some c := found
        refine ⟨(c.sendAll (s.reading d payload)).subscription, Connection.stint - 1, ?_⟩
        rw [hreading]
        exact find?_update_self (fun _ => rfl) (find?_forwardFirst_self hfound _)

theorem went_send {m : Message} (can : c.canSend = true) (isOpen : c.isOpen = true)
    (fits : Fits m) : Went c [m] c.received (c.send m) := by
  rw [Connection.send_of_fits can fits]
  exact ⟨can, isOpen, rfl, by simp⟩

theorem went_advance (found : s.find? c.id = some c) (can : c.canSend = true)
    (isOpen : c.isOpen = true) (fits : ∀ m ∈ s.pausing c, Fits m) (rest : Bytes) :
    ∃ d, (s.advance c rest).find? c.id = some d ∧ Went c (s.pausing c) rest d := by
  obtain ⟨n, hspend⟩ := find?_spend found
  rw [Connection.sendAll_of_fits can fits] at hspend
  exact ⟨_, find?_update_self (fun _ => rfl) hspend, can, isOpen, rfl, rfl⟩

/-- A payload is answered behind the events that waited while the library was read. -/
theorem went_handle (found : s.find? d.id = some c) (can : c.canSend = true)
    (isOpen : c.isOpen = true) (goes : d.canSend = true)
    (fits : ∀ m ∈ s.answering d payload, Fits m) :
    ∃ e, (s.handle d payload).find? d.id = some e ∧
      Went c (s.answering d payload) c.received e := by
  obtain ⟨subscription, n, hanswer⟩ := find?_answer found payload
  rw [Connection.sendAll_of_fits can fun m hm => fits m (List.mem_append_left _ hm)] at hanswer
  obtain ⟨e, hfound, went⟩ : ∃ e, (s.answer d payload).2.find? d.id = some e ∧
      Went c (s.reading d payload) c.received e := ⟨_, hanswer, can, isOpen, rfl, rfl⟩
  simp only [handle, goes, if_true]
  refine ⟨_, find?_update_self (fun c => by rw [Connection.send_eq]) hfound, ?_⟩
  rw [← went.received]
  exact went.trans (went_send went.canSend went.isOpen (fits _ (by simp [answering])))

theorem answer?_outgoing (s : Server) (c : Connection) (count : Nat) :
    (s.outgoing c count).filterMap answer? = [] := by
  unfold outgoing
  split
  · rfl
  · exact answer?_events _

theorem answer?_pausing (s : Server) (c : Connection) :
    (s.pausing c).filterMap answer? = [] := by
  unfold pausing
  split
  · rfl
  · exact answer?_outgoing s c _

theorem answer?_reading (s : Server) (c : Connection) (payload : Bytes) :
    (s.reading c payload).filterMap answer? = [] := by
  unfold reading
  split
  · rfl
  · split
    · rfl
    · exact answer?_outgoing _ c _

/-- Each complete frame is answered, one after another, as long as everything fits. -/
theorem went_work {stream left : Bytes} {payloads : List Bytes}
    (divides : Frame.Divides stream payloads left) {fuel : Nat} (enough : stream.length < fuel)
    (found : s.find? k = some c) (can : c.canSend = true) (isOpen : c.isOpen = true)
    (received : c.received = stream) (fits : ∀ m ∈ putOut k fuel s, Fits m) :
    (∃ d, (work k fuel s).find? k = some d ∧ Went c (putOut k fuel s) left d) ∧
      List.Forall₂ Answers payloads ((putOut k fuel s).filterMap answer?) := by
  induction divides generalizing s c fuel with
  | stop front =>
    obtain ⟨fuel, rfl⟩ : ∃ n, fuel = n + 1 := Nat.exists_eq_add_one.mpr (by omega)
    subst received
    rw [putOut_of_partial found front] at fits ⊢
    rw [work_of_partial found front]
    obtain ⟨n, hspend⟩ := find?_spend found
    rw [Connection.sendAll_of_fits can fits] at hspend
    refine ⟨⟨_, hspend, can, isOpen, rfl, rfl⟩, ?_⟩
    rw [answer?_pausing]
    exact .nil
  | @frame _ payload rest left payloads front later ih =>
    obtain ⟨fuel, rfl⟩ : ∃ n, fuel = n + 1 := Nat.exists_eq_add_one.mpr (by omega)
    obtain rfl := id_of_find? found
    subst received
    have hlength := Frame.length_lt_of_start front
    rw [putOut_of_frame found front] at fits ⊢
    rw [work_of_frame found front]
    simp only [List.forall_mem_append] at fits
    obtain ⟨hpausing, hanswering, hlater⟩ := fits
    obtain ⟨d, hadvance, wentd⟩ := went_advance found can isOpen hpausing rest
    obtain ⟨e, hhandle, wente⟩ := went_handle (d := { c with received := rest }) hadvance
      wentd.canSend wentd.isOpen can hanswering
    obtain ⟨⟨f, hwork, wentf⟩, hanswers⟩ := ih (by omega) hhandle wente.canSend wente.isOpen
      (wente.received.trans wentd.received) hlater
    refine ⟨⟨f, hwork, wentd.trans (wente.trans wentf)⟩, ?_⟩
    obtain ⟨a, ha, hanswer⟩ := answer_answers (s.advance c rest) { c with received := rest } payload
    have hmine : ((s.advance c rest).answering { c with received := rest } payload).filterMap
        answer? = [a] := by
      simp [answering, answer?_reading, ha]
    rw [List.filterMap_append, List.filterMap_append, answer?_pausing, hmine]
    exact .cons hanswer hanswers

/-- What goes out on a connection while what comes on it is read. -/
def readOut (s : Server) (k : ConnectionId) (bytes : Bytes) : List Message :=
  match s.find? k with
  | none => []
  | some c =>
    if c.isOpen then
      let received := c.received ++ bytes
      putOut k (received.length + 1)
        (s.update k fun c => { c with received, readsLeft := Connection.stint })
    else []

theorem went_read {bytes left : Bytes} {payloads : List Bytes}
    (divides : Frame.Divides (c.received ++ bytes) payloads left) (found : s.find? k = some c)
    (can : c.canSend = true) (isOpen : c.isOpen = true)
    (fits : ∀ m ∈ s.readOut k bytes, Fits m) :
    (∃ d, (s.read k bytes).find? k = some d ∧ Went c (s.readOut k bytes) left d) ∧
      List.Forall₂ Answers payloads ((s.readOut k bytes).filterMap answer?) := by
  simp only [readOut, read, found, isOpen, if_true] at fits ⊢
  have hfound : (s.update k fun d =>
      { d with received := c.received ++ bytes, readsLeft := Connection.stint }).find? k =
      some { c with received := c.received ++ bytes, readsLeft := Connection.stint } :=
    find?_update_self (fun _ => rfl) found
  obtain ⟨⟨d, hwork, went⟩, hanswers⟩ := went_work divides (Nat.lt_succ_self _) hfound can isOpen
    rfl fits
  exact ⟨⟨d, hwork, went.canSend, went.isOpen, went.received, went.sent⟩, hanswers⟩

end Server
end Ipc
end Lectern
