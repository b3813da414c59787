import Lectern.Proofs.Ipc.Course

/-!
# A server at rest

When a server has done what a move makes it do, no event waits for a connection: whatever was
published for it has been handed out.
-/

namespace Lectern
namespace Ipc

open Windows

namespace Server

variable {s : Server} {c d : Connection} {k : ConnectionId} {n : Nat} {payload : Bytes}

/-- No event waits for a connection. -/
def AtRest (s : Server) : Prop :=
  ∀ n role, some (n, role) ∈ s.table → s.host.desk.hub.queue n = []

theorem AtRest.waiting (rest : s.AtRest) (mem : c ∈ s.connections) :
    c.waiting s.host.desk = 0 := by
  unfold Connection.waiting
  split
  · rfl
  · rename_i n role h
    have hmem : some (n, role) ∈ s.table := h ▸ List.mem_map_of_mem mem
    simp [rest n role hmem]

theorem AtRest.update (rest : s.AtRest) (k : ConnectionId) (change : Connection → Connection)
    (keeps : ∀ c, (change c).subscription = c.subscription) :
    (s.update k change).AtRest := by
  unfold AtRest
  rw [table_update_of_keeps s k keeps]
  exact rest

theorem queue_forwardFirst (s : Server) (c : Connection) (count : Nat)
    (empty : s.host.desk.hub.queue n = []) :
    (s.forwardFirst c count).host.desk.hub.queue n = [] := by
  unfold forwardFirst
  split
  · exact empty
  · rename_i m _ _
    have htake := Hub.queue_take s.host.desk.hub m count n
    by_cases h : n = m
    · subst h
      rw [if_pos rfl, empty, List.drop_nil] at htake
      exact htake
    · rw [if_neg h, empty] at htake
      exact htake

theorem AtRest.forwardFirst (rest : s.AtRest) (c : Connection) (count : Nat) :
    (s.forwardFirst c count).AtRest := by
  intro n role mem
  rw [table_forwardFirst] at mem
  exact queue_forwardFirst s c count (rest n role mem)

/-- What waits for a connection is gone when all of it is sent. -/
theorem queue_forward (s : Server) {role : Role} (subscribed : c.subscription = some (n, role)) :
    (s.forward c).host.desk.hub.queue n = [] := by
  have htake := Hub.queue_take s.host.desk.hub n (s.host.desk.hub.queue n).length n
  rw [if_pos rfl, List.drop_length] at htake
  simp only [forward, forwardFirst, Connection.waiting, subscribed]
  exact htake

theorem atRest_forwardAll (s : Server) : s.forwardAll.AtRest := by
  have each (connections : List Connection) (t : Server) :
      (connections.foldl forward t).table = t.table ∧
      (∀ n, t.host.desk.hub.queue n = [] →
        (connections.foldl forward t).host.desk.hub.queue n = []) ∧
      ∀ c ∈ connections, ∀ n role, c.subscription = some (n, role) →
        (connections.foldl forward t).host.desk.hub.queue n = [] := by
    induction connections generalizing t with
    | nil => simp
    | cons c rest ih =>
      obtain ⟨htable, hkept, hrest⟩ := ih (t.forward c)
      refine ⟨htable.trans (table_forwardFirst t c _), fun n empty => ?_, ?_⟩
      · exact hkept n (queue_forwardFirst t c _ empty)
      · intro d hd n role hsub
        rcases List.mem_cons.mp hd with rfl | hd
        · exact hkept n (queue_forward t hsub)
        · exact hrest d hd n role hsub
  obtain ⟨htable, -, hempty⟩ := each s.connections s
  intro n role mem
  have hmem : some (n, role) ∈ s.table := htable ▸ mem
  obtain ⟨c, hc, hsub⟩ := List.mem_map.mp hmem
  exact hempty c hc n role hsub

/-- The session of a connection is over, and nothing waits. -/
structure Over (k : ConnectionId) (s : Server) : Prop where
  atRest : s.AtRest
  closed : ∀ c, s.find? k = some c → c.isOpen = false ∧ c.received = []

/-- A session goes on or it is over. -/
def Settles (k : ConnectionId) (s : Server) : Prop :=
  (∃ c, s.find? k = some c ∧ c.isOpen = true) ∨ s.Over k

theorem over_close (found : s.find? k = some c) (isOpen : c.isOpen = true) :
    (s.close k).Over k := by
  have hclosed := find?_close found isOpen
  refine ⟨?_, fun d hd => ?_⟩
  · unfold close
    rw [found]
    simp only [isOpen, if_true]
    exact atRest_forwardAll _
  · obtain rfl := Option.some.inj (hclosed.symm.trans hd)
    exact ⟨rfl, rfl⟩

theorem Settles.close (settles : s.Settles k) : (s.close k).AtRest := by
  rcases settles with ⟨c, found, isOpen⟩ | ended
  · exact (over_close found isOpen).atRest
  · unfold Server.close
    split
    · exact ended.atRest
    · rename_i c found
      rw [(ended.closed c found).1]
      exact ended.atRest

theorem settles_handle (found : s.find? d.id = some c) (isOpen : c.isOpen = true)
    (payload : Bytes) : (s.handle d payload).Settles d.id := by
  obtain ⟨subscription, n, hanswer⟩ := find?_answer found payload
  rw [Connection.sendAll_eq] at hanswer
  have hsent : ((s.answer d payload).2.update d.id fun e =>
      e.send (s.answer d payload).1).find? d.id = some _ :=
    find?_update_self (fun e => by rw [Connection.send_eq]) hanswer
  rw [Connection.send_eq] at hsent
  simp only [handle]
  split
  · exact .inl ⟨_, hsent, isOpen⟩
  · exact .inr (over_close hsent isOpen)

/-- Whatever has come is answered, and then the session goes on or it is over. -/
theorem settles_work (settles : s.Settles k) (fuel : Nat) : (work k fuel s).Settles k := by
  induction fuel generalizing s with
  | zero => exact settles
  | succ fuel ih =>
    unfold work
    split
    · exact settles
    · rename_i c found
      obtain rfl := id_of_find? found
      obtain ⟨n, hspend⟩ := find?_spend found
      rw [Connection.sendAll_eq] at hspend
      rcases settles with ⟨c', found', isOpen⟩ | ended
      · obtain rfl := Option.some.inj (found.symm.trans found')
        split
        · rename_i payload rest _
          have hadvance : ((s.spend c (Frame.reads c.received)).update c.id fun c =>
              { c with received := rest }).find? c.id = some _ :=
            find?_update_self (fun _ => rfl) hspend
          exact ih (settles_handle (d := { c with received := rest }) hadvance isOpen payload)
        · exact .inr (over_close hspend isOpen)
        · exact .inl ⟨_, hspend, isOpen⟩
        · exact .inl ⟨_, hspend, isOpen⟩
      · obtain ⟨closed, received⟩ := ended.closed c found
        have hstart : Frame.start c.received = .partialHeader := by rw [received]; rfl
        rw [hstart]
        refine .inr ⟨?_, fun d hd => ?_⟩
        · unfold spend
          split
          · exact ended.atRest.update _ _ fun _ => by rfl
          · exact (ended.atRest.forwardFirst c _).update _ _ fun _ => by rfl
        · obtain rfl := Option.some.inj (hspend.symm.trans hd)
          exact ⟨closed, received⟩

theorem AtRest.connect (rest : s.AtRest) {connected : ConnectionId × Server}
    (accepted : s.connect = some connected) : connected.2.AtRest := by
  unfold Server.connect at accepted
  split at accepted
  · cases accepted
    intro n role mem
    refine rest n role ?_
    simpa [table, Connection.new] using mem
  · cases accepted

theorem AtRest.close (rest : s.AtRest) (k : ConnectionId) : (s.close k).AtRest := by
  unfold Server.close
  split
  · exact rest
  · split
    · exact atRest_forwardAll _
    · exact rest

theorem AtRest.move (rest : s.AtRest) (m : Move) : (s.move m).AtRest := by
  cases m with
  | connect =>
    simp only [Server.move]
    cases h : s.connect with
    | none => exact rest
    | some connected => exact rest.connect h
  | stop => exact rest
  | receive k bytes => exact atRest_forwardAll _
  | receiveLast k bytes =>
    simp only [Server.move, receiveLast, read]
    split
    · exact rest.close k
    · rename_i c found
      split
      · rename_i isOpen
        have harrive : (s.update k fun d => { d with
            received := c.received ++ bytes
            readsLeft := Connection.stint }).find? k = some _ :=
          find?_update_self (fun _ => rfl) found
        exact (settles_work (.inl ⟨_, harrive, isOpen⟩) _).close
      · exact rest.close k
  | close k => exact rest.close k
  | collect k => exact rest.update k _ fun _ => by rfl

/-- Between moves nothing waits. -/
theorem AtRest.run (rest : s.AtRest) (moves : List Move) : (s.run moves).AtRest := by
  induction moves generalizing s with
  | nil => exact rest
  | cons m moves ih => exact ih (rest.move m)

theorem atRest_start (host : Host) (explain : Bytes → String) : (start host explain).AtRest := by
  intro n role mem
  simp [start, table] at mem

end Server
end Ipc
end Lectern
