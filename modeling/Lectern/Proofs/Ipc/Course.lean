import Lectern.Proofs.Desk.Windows
import Lectern.Proofs.Ipc.Session
import Lectern.Proofs.Ipc.Streams

/-!
# The course of a server

A run of a server is made of few kinds of steps: connections come and end, payloads are
answered, events are sent, and a connection gets bytes or gives some away. What is kept by each
kind of step is kept by every run. A record is made of the payloads, of the windows they demand
and of the events that subscriptions hand out.
-/

namespace Lectern
namespace Ipc

open Windows

inductive Happening where
  | answered (payload : Bytes)
  | demanded (demand : Demand)
  | handed (subscription : Nat) (event : Event)

/-- What the connections have subscribed to. -/
abbrev Table := List (Option (Nat × Role))

/-- The connections are the same but for the bytes that have come and gone. -/
structure Connection.Same (c d : Connection) : Prop where
  id : d.id = c.id
  subscription : d.subscription = c.subscription
  isOpen : d.isOpen = c.isOpen
  canSend : d.canSend = c.canSend

theorem Connection.foldl_send (c : Connection) (es : List Event) :
    es.foldl (fun c e => c.send (.event e)) c = c.sendAll (es.map .event) := List.foldl_map.symm

namespace Server

variable {s t u : Server} {c d : Connection} {k : ConnectionId} {payload : Bytes}

/-- A connection is in the table with the subscription that it has. -/
def Holds (s : Server) (c : Connection) : Prop :=
  ∃ d, s.find? c.id = some d ∧ d.subscription = c.subscription

/-- The events that a subscription hands out when the first `count` of them are sent. -/
def handing (s : Server) (c : Connection) (count : Nat) : List Happening :=
  match c.subscription with
  | none => []
  | some (id, _) => (s.host.desk.hub.take id count).1.map (.handed id)

/-- What a payload demands, and what is handed out while the library is read for it. -/
def effects (s : Server) (c : Connection) (payload : Bytes) : List Happening :=
  match request? payload with
  | none => []
  | some r => (s.host.demands r.command).map .demanded ++
      match s.host.deskAtReading r.command with
      | none => []
      | some desk => handing { s with host := (s.host.dispatch r.command).2 } c (c.waiting desk)

/-- A payload is carried out and its answer is sent. -/
def reply (s : Server) (c : Connection) (payload : Bytes) : Server :=
  (s.answer c payload).2.update c.id fun d => d.send (s.answer c payload).1

/-- A session ends. -/
def quit (s : Server) (c : Connection) : Server :=
  (s.unsubscribe c).update c.id fun c =>
    { c with isOpen := false, canSend := false, received := [] }

/-- A single thing that happens to a server, and what is recorded of it. -/
inductive Step (s : Server) : List Happening → Server → Prop
  | connect {connected : ConnectionId × Server} (accepted : s.connect = some connected) :
    Step s [] connected.2
  | stop : Step s [] s.stop
  | adjust (k : ConnectionId) (change : Connection → Connection)
    (same : ∀ c, Connection.Same c (change c)) : Step s [] (s.update k change)
  | reply (c : Connection) (payload : Bytes) (holds : s.Holds c)
    (short : payload.length ≤ Frame.maxSize) :
    Step s (.answered payload :: s.effects c payload) (s.reply c payload)
  | forward (c : Connection) (count : Nat) (holds : s.Holds c) :
    Step s (s.handing c count) (s.forwardFirst c count)
  | quit (c : Connection) (holds : s.Holds c) : Step s [] (s.quit c)

/-- From `s` on one thing happens after another, and the record is kept of all of it. -/
inductive Course (s : Server) : List Happening → Server → Prop
  | start : Course s [] s
  | step {record more : List Happening} {t u : Server} (earlier : Course s record t)
    (step : Step t more u) : Course s (record ++ more) u

theorem Course.trans {record more : List Happening} (first : Course s record t)
    (second : Course t more u) : Course s (record ++ more) u := by
  induction second with
  | start => simpa using first
  | step _ step ih =>
    rw [← List.append_assoc]
    exact ih.step step

theorem Step.course {more : List Happening} (step : Step s more t) : Course s more t := by
  simpa using Course.start.step step

/-- No two connections have the same number, and the next one has a number of its own. -/
structure Distinct (s : Server) : Prop where
  nodup : (s.connections.map Connection.id).Nodup
  lt_next : ∀ c ∈ s.connections, c.id < s.nextConnection

/-- The same connections are in the table, whatever else is said of them. -/
structure Kept (s t : Server) : Prop where
  ids : t.connections.map Connection.id = s.connections.map Connection.id
  next : t.nextConnection = s.nextConnection

theorem Kept.trans (first : Kept s t) (second : Kept t u) : Kept s u :=
  ⟨second.ids.trans first.ids, second.next.trans first.next⟩

theorem Distinct.of_kept (distinct : s.Distinct) (kept : Kept s t) : t.Distinct where
  nodup := kept.ids ▸ distinct.nodup
  lt_next c hc := by
    have hid : c.id ∈ s.connections.map Connection.id :=
      kept.ids ▸ List.mem_map_of_mem hc
    obtain ⟨d, hd, heq⟩ := List.mem_map.mp hid
    rw [kept.next, ← heq]
    exact distinct.lt_next d hd

theorem kept_update {change : Connection → Connection} (s : Server) (k : ConnectionId)
    (keeps : ∀ c, (change c).id = c.id) : Kept s (s.update k change) := by
  refine ⟨?_, rfl⟩
  simp only [update, List.map_map]
  refine List.map_congr_left fun c _ => ?_
  simp only [Function.comp_apply]
  split
  · exact keeps c
  · rfl

theorem kept_setDesk (s : Server) (desk : Desk Registry) : Kept s (s.setDesk desk) := ⟨rfl, rfl⟩

theorem kept_unsubscribe (s : Server) (c : Connection) : Kept s (s.unsubscribe c) := by
  unfold unsubscribe
  split
  · exact ⟨rfl, rfl⟩
  · exact (kept_setDesk s _).trans (kept_update _ _ fun _ => by rfl)

theorem kept_forwardFirst (s : Server) (c : Connection) (count : Nat) :
    Kept s (s.forwardFirst c count) := by
  unfold forwardFirst
  split
  · exact ⟨rfl, rfl⟩
  · exact (kept_setDesk s _).trans (kept_update _ _ fun d => by
      rw [Connection.foldl_send, Connection.sendAll_eq])

def table (s : Server) : Table := s.connections.map Connection.subscription

theorem table_update_of_keeps {change : Connection → Connection} (s : Server) (k : ConnectionId)
    (keeps : ∀ c, (change c).subscription = c.subscription) :
    (s.update k change).table = s.table := by
  simp only [table, update, List.map_map]
  refine List.map_congr_left fun c _ => ?_
  simp only [Function.comp_apply]
  split
  · exact keeps c
  · rfl

/-- Events that are sent leave the subscriptions as they are. -/
theorem table_forwardFirst (s : Server) (c : Connection) (count : Nat) :
    (s.forwardFirst c count).table = s.table := by
  unfold forwardFirst
  split
  · rfl
  · exact table_update_of_keeps _ _ fun d => by
      rw [Connection.foldl_send, Connection.sendAll_eq]

theorem table_pauseForReading (s : Server) (c : Connection) (reading : Option (Desk Registry)) :
    (s.pauseForReading c reading).table = s.table := by
  cases reading with
  | none => rfl
  | some desk =>
    refine Eq.trans ?_ (table_forwardFirst s c (c.waiting desk))
    exact table_update_of_keeps _ c.id fun _ => rfl

theorem kept_answer (s : Server) (c : Connection) (payload : Bytes) :
    Kept s (s.answer c payload).2 := by
  unfold answer
  split
  · exact ⟨rfl, rfl⟩
  · exact ((kept_unsubscribe s c).trans (kept_setDesk _ _)).trans (kept_update _ _ fun _ => by rfl)
  · rename_i command _ _
    have hhost : Kept s { s with host := (s.host.dispatch command).2 } := ⟨rfl, rfl⟩
    refine hhost.trans ?_
    simp only [pauseForReading]
    split
    · exact ⟨rfl, rfl⟩
    · exact (kept_forwardFirst _ c _).trans (kept_update _ _ fun _ => by rfl)

theorem kept_reply (s : Server) (c : Connection) (payload : Bytes) :
    Kept s (s.reply c payload) :=
  (kept_answer s c payload).trans (kept_update _ _ fun d => by rw [Connection.send_eq])

theorem kept_quit (s : Server) (c : Connection) : Kept s (s.quit c) :=
  (kept_unsubscribe s c).trans (kept_update _ _ fun _ => by rfl)

theorem Distinct.connect (distinct : s.Distinct) {connected : ConnectionId × Server}
    (accepted : s.connect = some connected) : connected.2.Distinct := by
  unfold Server.connect at accepted
  split at accepted
  · cases accepted
    refine ⟨?_, fun c hc => ?_⟩
    · rw [List.map_append, List.nodup_append]
      refine ⟨distinct.nodup, List.nodup_singleton _, fun i hi j hj => ?_⟩
      obtain ⟨c, hc, rfl⟩ := List.mem_map.mp hi
      obtain rfl : j = s.nextConnection := by simpa [Connection.new] using hj
      exact Nat.ne_of_lt (distinct.lt_next c hc)
    · rcases List.mem_append.mp hc with hc | hc
      · exact Nat.lt_succ_of_lt (distinct.lt_next c hc)
      · obtain rfl := List.mem_singleton.mp hc
        exact Nat.lt_succ_self _
  · cases accepted

theorem Distinct.step {more : List Happening} (distinct : s.Distinct) (step : Step s more t) :
    t.Distinct := by
  cases step with
  | connect accepted => exact distinct.connect accepted
  | stop => exact ⟨distinct.nodup, distinct.lt_next⟩
  | adjust k change same => exact distinct.of_kept (kept_update s k fun c => (same c).id)
  | reply c payload => exact distinct.of_kept (kept_reply s c payload)
  | forward c count => exact distinct.of_kept (kept_forwardFirst s c count)
  | quit c => exact distinct.of_kept (kept_quit s c)

theorem Distinct.course {record : List Happening} (distinct : s.Distinct)
    (course : Course s record t) : t.Distinct := by
  induction course with
  | start => exact distinct
  | step _ step ih => exact ih.step step

theorem distinct_start (host : Host) (explain : Bytes → String) : (start host explain).Distinct :=
  ⟨List.nodup_nil, by simp [start]⟩

theorem Distinct.find?_of_mem (distinct : s.Distinct) (mem : c ∈ s.connections) :
    s.find? c.id = some c := by
  have hnodup := distinct.nodup
  unfold find?
  generalize s.connections = connections at mem hnodup ⊢
  induction connections with
  | nil => simp at mem
  | cons d rest ih =>
    rw [List.map_cons, List.nodup_cons] at hnodup
    rcases List.mem_cons.mp mem with rfl | mem
    · simp
    · have hne : d.id ≠ c.id := fun heq => hnodup.1 (heq ▸ List.mem_map_of_mem mem)
      simpa [hne] using ih mem hnodup.2

theorem holds_of_find? (found : s.find? k = some c) : s.Holds c := by
  obtain rfl := id_of_find? found
  exact ⟨c, found, rfl⟩

theorem Holds.forwardFirst (holds : s.Holds c) (d : Connection) (count : Nat) :
    (s.forwardFirst d count).Holds c := by
  obtain ⟨e, found, hsub⟩ := holds
  rw [Holds, find?_forwardFirst, found]
  refine ⟨_, rfl, ?_⟩
  dsimp only
  split
  · rw [Connection.sendAll_eq]
    exact hsub
  · exact hsub

theorem Holds.adjust (holds : s.Holds c) (k : ConnectionId) (change : Connection → Connection)
    (same : ∀ c, Connection.Same c (change c)) : (s.update k change).Holds c := by
  obtain ⟨e, found, hsub⟩ := holds
  rw [Holds, find?_update s k c.id fun c => (same c).id, found]
  refine ⟨_, rfl, ?_⟩
  split
  · rw [(same e).subscription]
    exact hsub
  · exact hsub

/-- Something is done that a record can be kept of. -/
def Goes (s t : Server) : Prop := ∃ record, Course s record t

theorem Goes.refl (s : Server) : Goes s s := ⟨[], .start⟩

theorem Goes.trans (first : Goes s t) (second : Goes t u) : Goes s u := by
  obtain ⟨_, hfirst⟩ := first
  obtain ⟨_, hsecond⟩ := second
  exact ⟨_, hfirst.trans hsecond⟩

theorem Goes.distinct (goes : Goes s t) (distinct : s.Distinct) : t.Distinct := by
  obtain ⟨_, course⟩ := goes
  exact distinct.course course

theorem Step.goes {more : List Happening} (step : Step s more t) : Goes s t := ⟨more, step.course⟩

theorem goes_adjust (s : Server) (k : ConnectionId) (change : Connection → Connection)
    (same : ∀ c, Connection.Same c (change c)) :
    Goes s (s.update k change) := (Step.adjust k change same).goes

theorem goes_forwardAll (distinct : s.Distinct) : Goes s s.forwardAll := by
  have each (connections : List Connection) (t : Server)
      (hold : ∀ c ∈ connections, t.Holds c) : Goes t (connections.foldl forward t) := by
    induction connections generalizing t with
    | nil => exact .refl t
    | cons c rest ih =>
      have hstep := Step.forward c (c.waiting t.host.desk) (hold c List.mem_cons_self)
      refine hstep.goes.trans (ih _ fun d hd => ?_)
      exact (hold d (List.mem_cons_of_mem c hd)).forwardFirst c _
  exact each s.connections s fun c hc => ⟨c, distinct.find?_of_mem hc, rfl⟩

theorem goes_close (distinct : s.Distinct) (k : ConnectionId) : Goes s (s.close k) := by
  unfold close
  split
  · exact .refl s
  · rename_i c found
    obtain rfl := id_of_find? found
    split
    · show Goes s (s.quit c).forwardAll
      have hquit : Goes s (s.quit c) := (Step.quit c (holds_of_find? found)).goes
      exact hquit.trans (goes_forwardAll (hquit.distinct distinct))
    · exact .refl s

theorem handle_of_canSend (can : c.canSend = true) (payload : Bytes) :
    s.handle c payload = s.reply c payload := by
  simp only [handle, can, if_true]
  rfl

theorem goes_handle (distinct : s.Distinct) (holds : s.Holds c)
    (short : payload.length ≤ Frame.maxSize) : Goes s (s.handle c payload) := by
  have hreply : Goes s (s.reply c payload) := (Step.reply c payload holds short).goes
  simp only [handle]
  split
  · exact hreply
  · exact hreply.trans (goes_close (hreply.distinct distinct) c.id)

theorem goes_spend (holds : s.Holds c) (reads : Nat) : Goes s (s.spend c reads) := by
  unfold spend
  split
  · exact goes_adjust s c.id _ fun _ => ⟨rfl, rfl, rfl, rfl⟩
  · exact (Step.forward c _ holds).goes.trans
      (goes_adjust _ c.id _ fun _ => ⟨rfl, rfl, rfl, rfl⟩)

theorem Holds.spend (holds : s.Holds c) (reads : Nat) : (s.spend c reads).Holds c := by
  unfold Server.spend
  split
  · exact holds.adjust c.id _ fun _ => ⟨rfl, rfl, rfl, rfl⟩
  · exact (holds.forwardFirst c _).adjust c.id _ fun _ => ⟨rfl, rfl, rfl, rfl⟩

theorem goes_advance (holds : s.Holds c) (rest : Bytes) : Goes s (s.advance c rest) :=
  (goes_spend holds _).trans (goes_adjust _ c.id _ fun _ => ⟨rfl, rfl, rfl, rfl⟩)

theorem Holds.advance (holds : s.Holds c) (rest : Bytes) :
    (s.advance c rest).Holds { c with received := rest } :=
  (holds.spend _).adjust c.id (fun c => { c with received := rest }) fun _ => ⟨rfl, rfl, rfl, rfl⟩

/-- Answering all that has come is done in steps. -/
theorem goes_work (distinct : s.Distinct) (k : ConnectionId) (fuel : Nat) :
    Goes s (work k fuel s) := by
  induction fuel generalizing s with
  | zero => exact .refl s
  | succ fuel ih =>
    unfold work
    split
    · exact .refl s
    · rename_i c found
      have holds := holds_of_find? found
      have hspend := goes_spend holds (Frame.reads c.received)
      split
      · rename_i payload rest front
        obtain rfl := id_of_find? found
        have hread : Frame.read c.received = .frame payload rest := by rw [Frame.read, front]
        obtain ⟨short, -⟩ := Frame.read_eq_frame_iff.mp hread
        have hadvance := goes_advance holds rest
        have hhandle := hadvance.trans
          (goes_handle (hadvance.distinct distinct) (holds.advance rest) short)
        exact hhandle.trans (ih (hhandle.distinct distinct))
      · exact hspend.trans (goes_close (hspend.distinct distinct) k)
      · exact hspend
      · exact hspend

theorem goes_read (distinct : s.Distinct) (k : ConnectionId) (bytes : Bytes) :
    Goes s (s.read k bytes) := by
  unfold read
  split
  · exact .refl s
  · rename_i c _
    split
    · have harrive := goes_adjust s k
        (fun d => { d with received := c.received ++ bytes, readsLeft := Connection.stint })
        fun _ => ⟨rfl, rfl, rfl, rfl⟩
      exact harrive.trans (goes_work (harrive.distinct distinct) k _)
    · exact .refl s

theorem goes_move (distinct : s.Distinct) (m : Move) : Goes s (s.move m) := by
  cases m with
  | connect =>
    simp only [move]
    cases h : s.connect with
    | none => exact .refl s
    | some connected => exact (Step.connect h).goes
  | stop => exact Step.stop.goes
  | receive k bytes =>
    have hread := goes_read distinct k bytes
    exact hread.trans (goes_forwardAll (hread.distinct distinct))
  | receiveLast k bytes =>
    have hread := goes_read distinct k bytes
    exact hread.trans (goes_close (hread.distinct distinct) k)
  | close k => exact goes_close distinct k
  | collect k => exact goes_adjust s k _ fun _ => ⟨rfl, rfl, rfl, rfl⟩

/-- Every run can be gone through step by step. -/
theorem goes_run (distinct : s.Distinct) (moves : List Move) : Goes s (s.run moves) := by
  induction moves generalizing s with
  | nil => exact .refl s
  | cons m moves ih =>
    have hmove := goes_move distinct m
    exact hmove.trans (ih (hmove.distinct distinct))

end Server
end Ipc
end Lectern
