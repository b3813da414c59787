import Lectern.Ipc.Server

/-!
# What happens to a connection

The server changes its connections one at a time. Whatever it does for one of them leaves
the others as they are, apart from the events that are sent on all of them in the end.
-/

namespace Lectern
namespace Ipc

open Json Windows

/-- A message that is small enough for a frame. -/
def Fits (m : Message) : Prop := ∃ bytes, Frame.ofValue m.toJson = .ok bytes

/-- The frame of a message, if it fits in one. -/
def frame (m : Message) : Bytes :=
  match Frame.ofValue m.toJson with
  | .ok bytes => bytes
  | .error _ => []

theorem fits_of_length {m : Message}
    (h : (Text.toBytes m.toJson.chars).length ≤ Frame.maxSize) : Fits m :=
  ⟨_, if_neg (Nat.not_lt.mpr h)⟩

theorem length_le_of_fits {m : Message} (h : Fits m) :
    (Text.toBytes m.toJson.chars).length ≤ Frame.maxSize := by
  obtain ⟨bytes, h⟩ := h
  unfold Frame.ofValue Frame.write at h
  split at h
  · cases h
  · exact Nat.not_lt.mp ‹_›

/-- A host that has just started, without songs, plans and verses. -/
def hall : Host where
  desk := .initial .default (.steady 1000 1) .empty
  sources := ⟨.ofCatalogue (.ok .empty), .ofDataset []⟩
  serverTime := "TIME"

/-- What is said of a list that breaks off behind its first number. -/
def explained (_ : Bytes) : String := "EOF while parsing a list at line 1 column 2"

namespace Connection

variable {c : Connection} {m : Message} {ms : List Message}

def sendAll (c : Connection) (ms : List Message) : Connection := ms.foldl send c

@[simp] theorem sendAll_nil (c : Connection) : c.sendAll [] = c := rfl

@[simp] theorem sendAll_cons (c : Connection) (m : Message) (ms : List Message) :
    c.sendAll (m :: ms) = (c.send m).sendAll ms := rfl

@[simp] theorem sendAll_append (c : Connection) (ms ns : List Message) :
    c.sendAll (ms ++ ns) = (c.sendAll ms).sendAll ns := List.foldl_append

theorem send_of_fits (can : c.canSend = true) (fits : Fits m) :
    c.send m = { c with sent := c.sent ++ frame m } := by
  obtain ⟨bytes, hbytes⟩ := fits
  simp [send, can, frame, hbytes]

theorem sendAll_of_fits (can : c.canSend = true) (fits : ∀ m ∈ ms, Fits m) :
    c.sendAll ms = { c with sent := c.sent ++ ms.flatMap frame } := by
  induction ms generalizing c with
  | nil => simp
  | cons m ms ih =>
    have hm := send_of_fits can (fits m List.mem_cons_self)
    rw [sendAll_cons, hm, ih]
    · simp
    · exact can
    · exact fun n hn => fits n (List.mem_cons_of_mem m hn)

/-- Sending changes what is sent and whether more can be sent. -/
theorem send_eq (c : Connection) (m : Message) :
    c.send m = { c with sent := (c.send m).sent, canSend := (c.send m).canSend } := by
  unfold send
  repeat' split
  all_goals rfl

theorem sendAll_eq (c : Connection) (ms : List Message) :
    c.sendAll ms =
      { c with sent := (c.sendAll ms).sent, canSend := (c.sendAll ms).canSend } := by
  induction ms generalizing c with
  | nil => rfl
  | cons m ms ih =>
    rw [sendAll_cons, ih (c.send m), send_eq c m]

theorem sendAll_of_mute (mute : c.canSend = false) (ms : List Message) : c.sendAll ms = c := by
  induction ms with
  | nil => rfl
  | cons m ms ih =>
    have hm : c.send m = c := by simp [send, mute]
    rw [sendAll_cons, hm, ih]

/-- Nothing is sent any more after a message that does not fit. -/
theorem sendAll_of_not_fits (can : c.canSend = true) (large : ¬ Fits m) (ms : List Message) :
    c.sendAll (m :: ms) = { c with canSend := false } := by
  have hm : c.send m = { c with canSend := false } := by
    cases h : Frame.ofValue m.toJson with
    | ok bytes => exact absurd ⟨bytes, h⟩ large
    | error problem => simp [send, can, h]
  rw [sendAll_cons, hm, sendAll_of_mute rfl]

end Connection

namespace Server

variable {s t u : Server} {j k : ConnectionId} {c d : Connection}

theorem id_of_find? (h : s.find? k = some c) : c.id = k := by
  simpa using List.find?_some h

/-- A change of a connection that keeps its id is seen in that connection only. -/
theorem find?_update (s : Server) (j k : ConnectionId) {change : Connection → Connection}
    (keeps : ∀ c, (change c).id = c.id) :
    (s.update j change).find? k = (s.find? k).map fun c => if k = j then change c else c := by
  simp only [find?, update]
  induction s.connections with
  | nil => rfl
  | cons d rest ih =>
    by_cases hk : d.id = k
    · subst hk
      by_cases hj : d.id = j <;> simp [hj, keeps]
    · have hchanged : (if d.id == j then change d else d).id = d.id := by
        split
        · exact keeps d
        · rfl
      have hne : (d.id == k) = false := beq_eq_false_iff_ne.mpr hk
      simp only [List.map_cons, List.find?_cons, hchanged, hne]
      exact ih

theorem find?_update_self {change : Connection → Connection} (keeps : ∀ c, (change c).id = c.id)
    (found : s.find? k = some c) : (s.update k change).find? k = some (change c) := by
  simp [find?_update s k k keeps, found]

theorem find?_update_of_ne {change : Connection → Connection} (keeps : ∀ c, (change c).id = c.id)
    (ne : k ≠ j) : (s.update j change).find? k = s.find? k := by
  rw [find?_update s j k keeps]
  cases s.find? k <;> simp [ne]

/-- The messages that go out on a connection when the first `count` of its events are sent. -/
def outgoing (s : Server) (c : Connection) (count : Nat) : List Message :=
  match c.subscription with
  | none => []
  | some (id, _) => (s.host.desk.hub.take id count).1.map .event

theorem find?_forwardFirst (s : Server) (c : Connection) (count : Nat) (k : ConnectionId) :
    (s.forwardFirst c count).find? k =
      (s.find? k).map fun d => if k = c.id then d.sendAll (s.outgoing c count) else d := by
  cases hsub : c.subscription with
  | none => simp [forwardFirst, outgoing, hsub]
  | some subscription =>
    have hsend (d : Connection) : (s.host.desk.hub.take subscription.1 count).1.foldl
        (fun c e => c.send (.event e)) d =
        d.sendAll ((s.host.desk.hub.take subscription.1 count).1.map .event) := by
      rw [Connection.sendAll, List.foldl_map]
    simp only [forwardFirst, outgoing, hsub, hsend]
    rw [find?_update _ _ _ fun d => by rw [Connection.sendAll_eq]]
    rfl

theorem find?_forwardFirst_self (found : s.find? c.id = some d) (count : Nat) :
    (s.forwardFirst c count).find? c.id = some (d.sendAll (s.outgoing c count)) := by
  simp [find?_forwardFirst, found]

/-- A command that is not a subscription is carried out by the host. -/
theorem answer_of_request (s : Server) (c : Connection) {payload : Bytes} {id : Option Nat}
    {command : Command} (request : request? payload = some ⟨id, command⟩)
    (answered : ∀ role, command ≠ .subscribe role) :
    s.answer c payload = (.response id (s.host.dispatch command).1,
      { s with host := (s.host.dispatch command).2 }.pauseForReading c
        (s.host.deskAtReading command)) := by
  simp only [answer, request]

theorem answer_of_subscribe (s : Server) (c : Connection) {payload : Bytes} {id : Option Nat}
    {role : Role} (request : request? payload = some ⟨id, .subscribe role⟩) :
    s.answer c payload =
      (.response id (.success (snapshot (s.subscribe c role).2.host role)),
        (s.subscribe c role).2) := by
  simp only [answer, request]
  rfl

theorem find?_unsubscribe_self (found : s.find? c.id = some d) :
    ∃ subscription, (s.unsubscribe c).find? c.id = some { d with subscription } := by
  cases h : c.subscription with
  | none => exact ⟨d.subscription, by simp [unsubscribe, h, found]⟩
  | some subscription =>
    simp only [unsubscribe, h]
    exact ⟨none, find?_update_self (fun _ => rfl) found⟩

theorem find?_subscribe_self (found : s.find? c.id = some d) (role : Role) :
    ∃ subscription, (s.subscribe c role).2.find? c.id = some { d with subscription } := by
  obtain ⟨old, hold⟩ := find?_unsubscribe_self found
  have hdesk (desk : Desk Registry) :
      ((s.unsubscribe c).setDesk desk).find? c.id = some { d with subscription := old } := hold
  refine ⟨some (((s.unsubscribe c).host.desk.subscribe role).1, role), ?_⟩
  simp only [subscribe]
  rw [find?_update_self _ (hdesk _)]
  exact fun _ => rfl

/-- From `s` to `t` nothing happens to a connection, except that events are sent on it. -/
def Aside (k : ConnectionId) (s t : Server) : Prop :=
  ∃ es : List Event, ∀ c, s.find? k = some c → t.find? k = some (c.sendAll (es.map .event))

theorem Aside.of_find? (h : t.find? k = s.find? k) : Aside k s t :=
  ⟨[], fun _ found => h.trans found⟩

theorem Aside.refl (k : ConnectionId) (s : Server) : Aside k s s := .of_find? rfl

theorem Aside.trans (first : Aside k s t) (second : Aside k t u) : Aside k s u := by
  obtain ⟨es, hes⟩ := first
  obtain ⟨fs, hfs⟩ := second
  refine ⟨es ++ fs, fun c found => ?_⟩
  rw [List.map_append, Connection.sendAll_append]
  exact hfs _ (hes c found)

theorem aside_update {change : Connection → Connection} (ne : k ≠ j) (s : Server)
    (keeps : ∀ c, (change c).id = c.id) : Aside k s (s.update j change) :=
  .of_find? (find?_update_of_ne keeps ne)

theorem aside_forwardFirst (k : ConnectionId) (s : Server) (c : Connection) (count : Nat) :
    Aside k s (s.forwardFirst c count) := by
  by_cases h : k = c.id
  · subst h
    cases hsub : c.subscription with
    | none => exact .of_find? (by simp [forwardFirst, hsub])
    | some subscription =>
      refine ⟨(s.host.desk.hub.take subscription.1 count).1, fun d found => ?_⟩
      rw [find?_forwardFirst_self found]
      simp [outgoing, hsub]
  · refine .of_find? ?_
    rw [find?_forwardFirst]
    simp [h]

theorem aside_forwardAll (k : ConnectionId) (s : Server) : Aside k s s.forwardAll := by
  unfold forwardAll
  generalize s.connections = connections
  induction connections generalizing s with
  | nil => exact .refl k s
  | cons c rest ih => exact (aside_forwardFirst k s c _).trans (ih (s.forward c))

theorem aside_unsubscribe (ne : k ≠ c.id) (s : Server) : Aside k s (s.unsubscribe c) := by
  unfold unsubscribe
  split
  · exact .refl k s
  · exact .of_find? (find?_update_of_ne (fun _ => rfl) ne)

theorem aside_subscribe (ne : k ≠ c.id) (s : Server) (role : Role) :
    Aside k s (s.subscribe c role).2 :=
  (aside_unsubscribe ne s).trans (.of_find? (find?_update_of_ne (fun _ => rfl) ne))

theorem aside_answer (ne : k ≠ c.id) (s : Server) (payload : Bytes) :
    Aside k s (s.answer c payload).2 := by
  unfold answer
  split
  · exact .refl k s
  · exact aside_subscribe ne s _
  · rename_i command _ _
    have hhost : Aside k s { s with host := (s.host.dispatch command).2 } := .of_find? rfl
    refine hhost.trans ?_
    simp only [pauseForReading]
    split
    · exact .refl k _
    · exact (aside_forwardFirst k _ c _).trans (aside_update ne _ fun _ => by rfl)

theorem aside_close (ne : k ≠ j) (s : Server) : Aside k s (s.close j) := by
  unfold close
  split
  · exact .refl k s
  · rename_i c found
    split
    · have hid := id_of_find? found
      exact ((aside_unsubscribe (hid ▸ ne) s).trans
        (aside_update ne _ fun _ => by rfl)).trans (aside_forwardAll k _)
    · exact .refl k s

theorem find?_close (found : s.find? k = some c) (isOpen : c.isOpen = true) :
    (s.close k).find? k = some
      { c with subscription := none, isOpen := false, canSend := false, received := [] } := by
  obtain rfl := id_of_find? found
  have hended : (s.unsubscribe c).find? c.id = some { c with subscription := none } := by
    cases h : c.subscription with
    | none =>
      have hc : { c with subscription := none } = c := by rw [← h]
      rw [hc]
      simpa [unsubscribe, h] using found
    | some subscription =>
      simp only [unsubscribe, h]
      exact find?_update_self (fun _ => rfl) found
  obtain ⟨es, told⟩ := aside_forwardAll c.id ((s.unsubscribe c).update c.id fun c =>
    { c with isOpen := false, canSend := false, received := [] })
  have hforward := told _ (find?_update_self (fun _ => rfl) hended)
  rw [Connection.sendAll_of_mute rfl] at hforward
  simpa only [close, found, isOpen, if_true] using hforward

theorem aside_handle (ne : k ≠ c.id) (s : Server) (payload : Bytes) :
    Aside k s (s.handle c payload) := by
  have hsend : Aside k (s.answer c payload).2
      ((s.answer c payload).2.update c.id fun d => d.send (s.answer c payload).1) :=
    aside_update ne _ fun d => by rw [Connection.send_eq]
  have hanswer := (aside_answer ne s payload).trans hsend
  simp only [handle]
  split
  · exact hanswer
  · exact hanswer.trans (aside_close ne _)

theorem aside_spend (ne : k ≠ c.id) (s : Server) (reads : Nat) : Aside k s (s.spend c reads) := by
  unfold spend
  split
  · exact aside_update ne s fun _ => by rfl
  · exact (aside_forwardFirst k s c _).trans (aside_update ne _ fun _ => by rfl)

/-- What is done for one connection is told to another one, and otherwise leaves it alone. -/
theorem aside_work (ne : k ≠ j) (fuel : Nat) (s : Server) : Aside k s (work j fuel s) := by
  induction fuel generalizing s with
  | zero => exact .refl k s
  | succ fuel ih =>
    unfold work
    split
    · exact .refl k s
    · rename_i c found
      have hid : k ≠ c.id := id_of_find? found ▸ ne
      have hspend := aside_spend hid s (Frame.reads c.received)
      split
      · rename_i payload rest _
        exact ((hspend.trans (aside_update ne _ fun _ => by rfl)).trans
          (aside_handle (c := { c with received := rest }) hid _ payload)).trans (ih _)
      · exact hspend.trans (aside_close ne _)
      · exact hspend
      · exact hspend

theorem aside_read (ne : k ≠ j) (s : Server) (bytes : Bytes) : Aside k s (s.read j bytes) := by
  unfold read
  split
  · exact .refl k s
  · split
    · exact (aside_update ne s fun _ => by rfl).trans (aside_work ne _ _)
    · exact .refl k s

theorem aside_connect {connected : ConnectionId × Server} (h : s.connect = some connected) :
    Aside k s connected.2 := by
  unfold connect at h
  split at h
  · cases h
    refine ⟨[], fun c found => ?_⟩
    simp only [find?, List.find?_append] at found ⊢
    simp [found]
  · cases h

end Server
end Ipc
end Lectern
