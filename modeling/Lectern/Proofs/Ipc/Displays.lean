import Lectern.Proofs.Ipc.Rest

/-!
# Displays and their windows

The hub and the registry of windows keep up with the table of subscriptions, whichever way a
subscription begins or ends: the hub has one for each entry, and the registry counts the displays
of each surface. Of the demands for windows it remembers the last about each surface.
-/

namespace Lectern
namespace Ipc

open Json Windows

namespace Table

/-- How many connections display a surface. -/
def displays (table : Table) (s : Surface) : Nat :=
  table.countP fun subscription => subscription.map Prod.snd = some (.display s)

/-- The numbers of all subscriptions. -/
def numbers (table : Table) : List Nat :=
  table.filterMap fun subscription => subscription.map Prod.fst

theorem displays_split (before after : Table) (subscription : Option (Nat × Role)) (s : Surface) :
    displays (before ++ subscription :: after) s = displays before s + displays after s +
      if subscription.map Prod.snd = some (.display s) then 1 else 0 := by
  simp only [displays, List.countP_append, List.countP_cons, decide_eq_true_eq]
  omega

theorem mem_numbers_iff {table : Table} {n : Nat} :
    n ∈ table.numbers ↔ ∃ role, some (n, role) ∈ table := by
  simp [numbers, List.mem_filterMap]

theorem numbers_split (before after : Table) (subscription : Option (Nat × Role)) :
    numbers (before ++ subscription :: after) =
      numbers before ++ (subscription.map Prod.fst).toList ++ numbers after := by
  cases subscription <;> simp [numbers]

end Table

namespace Happening

/-- The demands of a record. -/
def demand? : Happening → Option Demand
  | demanded d => some d
  | _ => none

def demands (record : List Happening) : List Demand := record.filterMap demand?

/-- The event that a subscription hands out. -/
def event? (n : Nat) : Happening → Option Event
  | handed m e => if m = n then some e else none
  | _ => none

/-- The events that a subscription has handed out. -/
def heard (n : Nat) (record : List Happening) : List Event := record.filterMap (event? n)

theorem demands_append (record more : List Happening) :
    demands (record ++ more) = demands record ++ demands more := List.filterMap_append

theorem heard_append (n : Nat) (record more : List Happening) :
    heard n (record ++ more) = heard n record ++ heard n more := List.filterMap_append

/-- The demands of a record and the record itself have the same last demand about a surface. -/
theorem stands_demands_iff (s : Surface) (record : List Happening) :
    Demand.Stands s (demands record) ↔
      ∃ before after, record = before ++ demanded ⟨s, true⟩ :: after ∧
        demanded ⟨s, false⟩ ∉ after := by
  have mem (d : Demand) (record : List Happening) :
      d ∈ demands record ↔ demanded d ∈ record := by
    refine List.mem_filterMap.trans ⟨?_, fun h => ⟨_, h, rfl⟩⟩
    rintro ⟨happening, h, heq⟩
    cases happening with
    | demanded e =>
      obtain rfl : e = d := by simpa [demand?] using heq
      exact h
    | answered payload => simp [demand?] at heq
    | handed n e => simp [demand?] at heq
  constructor
  · rintro ⟨before, after, heq, hafter⟩
    obtain ⟨earlier, rest, rfl, -, hrest⟩ := List.filterMap_eq_append_iff.mp heq
    obtain ⟨silent, happening, later, rfl, hsilent, hhere, rfl⟩ :=
      List.filterMap_eq_cons_iff.mp hrest
    obtain rfl : happening = demanded ⟨s, true⟩ := by
      cases happening <;> simp_all [demand?]
    refine ⟨earlier ++ silent, later, by simp, ?_⟩
    rwa [← mem]
  · rintro ⟨before, after, rfl, hafter⟩
    refine ⟨demands before, demands after, ?_, ?_⟩
    · rw [demands_append]
      rfl
    · rwa [mem]

theorem demands_map_demanded (ds : List Demand) : demands (ds.map demanded) = ds := by
  simp [demands, List.filterMap_map, Function.comp_def, demand?]

theorem heard_map_demanded (n : Nat) (ds : List Demand) : heard n (ds.map demanded) = [] := by
  simp [heard, List.filterMap_map, Function.comp_def, event?]

theorem demands_map_handed (m : Nat) (es : List Event) : demands (es.map (handed m)) = [] := by
  simp [demands, List.filterMap_map, Function.comp_def, demand?]

theorem heard_map_handed (n m : Nat) (es : List Event) :
    heard n (es.map (handed m)) = if m = n then es else [] := by
  by_cases h : m = n <;> simp [heard, List.filterMap_map, Function.comp_def, event?, h]

end Happening

namespace Server

variable {d : Desk Registry} {s : Surface}

/-- A window opens with its first display and is closed with its last one. -/
theorem reports_windowsAfter (d : Desk Registry) (s : Surface) (change : Slot → Slot) :
    d.Reports (windowsAfter d s (d.windows.update s change)) := by
  have others (x : Surface) (hx : x ≠ s) :
      (d.windows.update s change).2.isOpen x = d.windows.isOpen x :=
    Registry.isOpen_update_of_ne hx _ _
  have self : (d.windows.update s change).2.isOpen s = (change (d.windows.slots.get s)).isOpen := by
    simp [Registry.isOpen, Registry.get_update]
  by_cases flip : (d.windows.slots.get s).isOpen = (change (d.windows.slots.get s)).isOpen
  · have hkept : (d.windows.update s change).1 = none := if_pos flip
    refine ⟨[], ?_, fun x => ?_⟩
    · simp [windowsAfter, hkept, Hub.publishAll]
    · simp only [windowsAfter, hkept, windowAfter_nil]
      by_cases hx : x = s
      · rw [hx, self, ← flip, Registry.isOpen]
      · rw [others x hx]
  · have hflipped : (d.windows.update s change).1 =
        some ((d.windows.update s change).2.isOpen s) := by
      rw [self]
      exact if_neg flip
    simp only [windowsAfter, hflipped]
    exact Desk.reports_windowChanged d others

theorem windowsAfter_windows (d : Desk Registry) (s : Surface)
    (change : Option Bool × Registry) : (windowsAfter d s change).windows = change.2 := by
  unfold windowsAfter
  dsimp only
  split <;> rfl

theorem reports_displayConnected (d : Desk Registry) (role : Role) :
    d.Reports (displayConnected d role) := by
  cases role with
  | control => exact (Desk.Still.refl d).reports
  | display s => exact reports_windowsAfter d s _

theorem reports_displayDisconnected (d : Desk Registry) (role : Role) :
    d.Reports (displayDisconnected d role) := by
  cases role with
  | control => exact (Desk.Still.refl d).reports
  | display s => exact reports_windowsAfter d s _

theorem connected_displayConnected (d : Desk Registry) (role : Role) (x : Surface) :
    (displayConnected d role).windows.connected x =
      d.windows.connected x + if role = .display x then 1 else 0 := by
  cases role with
  | control => simp [displayConnected]
  | display s =>
    rw [displayConnected, windowsAfter_windows, Registry.connect, Registry.connected,
      Registry.get_update]
    by_cases h : x = s
    · simp [h, Registry.connected]
    · simp [h, Ne.symm h, Registry.connected]

theorem connected_displayDisconnected (d : Desk Registry) (role : Role) (x : Surface) :
    (displayDisconnected d role).windows.connected x =
      d.windows.connected x - if role = .display x then 1 else 0 := by
  cases role with
  | control => simp [displayDisconnected]
  | display s =>
    rw [displayDisconnected, windowsAfter_windows, Registry.disconnect, Registry.connected,
      Registry.get_update]
    by_cases h : x = s
    · simp [h, Registry.connected]
    · simp [h, Ne.symm h, Registry.connected]

theorem requested_displayConnected (d : Desk Registry) (role : Role) (x : Surface) :
    (displayConnected d role).windows.requested x = d.windows.requested x := by
  cases role with
  | control => rfl
  | display s =>
    rw [displayConnected, windowsAfter_windows, Registry.connect, Registry.requested,
      Registry.get_update]
    split <;> rfl

theorem requested_displayDisconnected (d : Desk Registry) (role : Role) (x : Surface) :
    (displayDisconnected d role).windows.requested x = d.windows.requested x := by
  cases role with
  | control => rfl
  | display s =>
    rw [displayDisconnected, windowsAfter_windows, Registry.disconnect, Registry.requested,
      Registry.get_update]
    split <;> rfl

end Server
/-- The hub has every subscription of the table, each under a number of its own. -/
structure Registered (table : Table) (h : Hub) : Prop where
  fresh : h.Fresh
  known : ∀ n role, some (n, role) ∈ table → ∃ queue, h.find? n = some ⟨n, role, queue⟩
  apart : table.numbers.Nodup

namespace Registered

variable {table before after : Table} {h : Hub} {n : Nat} {role : Role}

theorem publishAll (registered : Registered table h) (es : List Event) :
    Registered table (h.publishAll es) where
  fresh := registered.fresh.publishAll es
  known m role mem := by
    obtain ⟨queue, found⟩ := registered.known m role mem
    exact ⟨_, Hub.find?_publishAll found es⟩
  apart := registered.apart

theorem setQueue (registered : Registered table h) (n : Nat) (queue : List Event) :
    Registered table (h.setQueue n queue) where
  fresh := registered.fresh.setQueue n queue
  known m role mem := by
    obtain ⟨old, found⟩ := registered.known m role mem
    by_cases hn : n = m
    · subst hn
      exact ⟨queue, Hub.find?_setQueue_self found queue⟩
    · exact ⟨old, Hub.find?_setQueue_of_ne found hn queue⟩
  apart := registered.apart

theorem connect (registered : Registered table h) : Registered (table ++ [none]) h where
  fresh := registered.fresh
  known m role mem := registered.known m role (by simpa using mem)
  apart := by simpa [Table.numbers] using registered.apart

/-- A subscription that ends takes no other with it. -/
theorem dispose (registered : Registered (before ++ some (n, role) :: after) h) :
    Registered (before ++ none :: after) (h.dispose n) := by
  have hapart := registered.apart
  rw [Table.numbers_split] at hapart
  have hlist : before.numbers ++ [n] ++ after.numbers = before.numbers ++ n :: after.numbers := by
    simp
  rw [Option.map_some, Option.toList_some, hlist] at hapart
  have hmiddle := List.nodup_middle.mp hapart
  rw [List.nodup_cons] at hmiddle
  refine ⟨fun s hs => registered.fresh s (List.mem_filter.mp hs).1, fun m other mem => ?_, ?_⟩
  · have hothers : some (m, other) ∈ before ∨ some (m, other) ∈ after := by simpa using mem
    have hnumber : m ∈ before.numbers ++ after.numbers :=
      List.mem_append.mpr (hothers.imp (fun h => Table.mem_numbers_iff.mpr ⟨other, h⟩)
        fun h => Table.mem_numbers_iff.mpr ⟨other, h⟩)
    have hne : n ≠ m := fun heq => hmiddle.1 (heq ▸ hnumber)
    obtain ⟨queue, found⟩ := registered.known m other (by
      rcases hothers with h | h <;> simp [h])
    exact ⟨queue, Hub.find?_dispose found hne⟩
  · simpa [Table.numbers_split] using hmiddle.2

/-- A new subscription has a number that no other has. -/
theorem subscribe (registered : Registered (before ++ none :: after) h) (role : Role) :
    Registered (before ++ some (h.nextId, role) :: after) (h.subscribe role).2 := by
  have hothers (m : Nat) (other : Role)
      (mem : some (m, other) ∈ before ∨ some (m, other) ∈ after) :
      ∃ queue, h.find? m = some ⟨m, other, queue⟩ :=
    registered.known m other (by rcases mem with h | h <;> simp [h])
  have hlt (m : Nat) (hm : m ∈ before.numbers ++ after.numbers) : m < h.nextId := by
    have hmem : ∃ other, some (m, other) ∈ before ∨ some (m, other) ∈ after := by
      simpa [Table.mem_numbers_iff, exists_or] using hm
    obtain ⟨other, mem⟩ := hmem
    obtain ⟨queue, found⟩ := hothers m other mem
    exact registered.fresh _ (List.mem_of_find?_eq_some found)
  refine ⟨registered.fresh.subscribe role, fun m other mem => ?_, ?_⟩
  · have hsplit : some (m, other) ∈ before ∨ (m = h.nextId ∧ other = role) ∨
        some (m, other) ∈ after := by simpa using mem
    rcases hsplit with hm | ⟨rfl, rfl⟩ | hm
    · obtain ⟨queue, found⟩ := hothers m other (.inl hm)
      exact ⟨queue, Hub.find?_subscribe found role⟩
    · exact ⟨[], registered.fresh.find?_subscribe_new other⟩
    · obtain ⟨queue, found⟩ := hothers m other (.inr hm)
      exact ⟨queue, Hub.find?_subscribe found role⟩
  · have hapart : (before.numbers ++ after.numbers).Nodup := by
      simpa [Table.numbers_split] using registered.apart
    have hnew : h.nextId ∉ before.numbers ++ after.numbers := fun hm =>
      Nat.lt_irrefl _ (hlt _ hm)
    have hmiddle := List.nodup_middle.mpr (List.nodup_cons.mpr ⟨hnew, hapart⟩)
    simpa [Table.numbers_split] using hmiddle

end Registered

/-- The windows stand as the displays in the table and the demands have them. -/
structure Attended (demands : List Demand) (table : Table) (d : Desk Registry) : Prop where
  registered : Registered table d.hub
  connected : ∀ s, d.windows.connected s = table.displays s
  requested : ∀ s, d.windows.requested s = true ↔ Demand.Stands s demands

namespace Attended

variable {demands more : List Demand} {table before after : Table} {d d' : Desk Registry}
  {n : Nat} {role : Role}

theorem heeds (attended : Attended demands table d) (heeds : d.Heeds more d') :
    Attended (demands ++ more) table d' where
  registered := by
    obtain ⟨es, hhub, -⟩ := heeds.reports
    rw [hhub]
    exact attended.registered.publishAll es
  connected s := by rw [heeds.windows, Registry.connected_meetAll, attended.connected]
  requested s := by
    rw [heeds.windows]
    exact Registry.requested_meetAll (attended.requested s) more

theorem take (attended : Attended demands table d) (n count : Nat) :
    Attended demands table { d with hub := (d.hub.take n count).2 } :=
  ⟨attended.registered.setQueue n _, attended.connected, attended.requested⟩

theorem connect (attended : Attended demands table d) : Attended demands (table ++ [none]) d :=
  ⟨attended.registered.connect, fun s => by
    rw [attended.connected, Table.displays_split]
    simp [Table.displays], attended.requested⟩

theorem disconnected (attended : Attended demands (before ++ some (n, role) :: after) d) :
    Attended demands (before ++ none :: after)
      (Server.displayDisconnected (d.dispose n) role) where
  registered := by
    obtain ⟨es, hhub, -⟩ := Server.reports_displayDisconnected (d.dispose n) role
    rw [hhub]
    exact attended.registered.dispose.publishAll es
  connected s := by
    have hcount := attended.connected s
    rw [Table.displays_split, Option.map_some] at hcount
    rw [Server.connected_displayDisconnected, Table.displays_split, Desk.dispose, hcount]
    simp
  requested s := by
    rw [Server.requested_displayDisconnected]
    exact attended.requested s

theorem subscribed (attended : Attended demands (before ++ none :: after) d) (role : Role) :
    Attended demands (before ++ some ((d.subscribe role).1, role) :: after)
      (Server.displayConnected (d.subscribe role).2 role) where
  registered := by
    obtain ⟨es, hhub, -⟩ := Server.reports_displayConnected (d.subscribe role).2 role
    rw [hhub]
    exact (attended.registered.subscribe role).publishAll es
  connected s := by
    have hcount := attended.connected s
    rw [Table.displays_split] at hcount
    rw [Server.connected_displayConnected, Table.displays_split, Desk.subscribe, hcount]
    simp
  requested s := by
    rw [Server.requested_displayConnected]
    exact attended.requested s

end Attended

namespace Server

variable {s t : Server} {c : Connection} {k : ConnectionId} {demands : List Demand}
  {record more : List Happening} {payload : Bytes}

/-- A change of one connection is a change at one place of the table. -/
theorem table_update (distinct : s.Distinct) (found : s.find? k = some c) :
    ∃ before after, s.table = before ++ c.subscription :: after ∧
      ∀ change : Connection → Connection,
        (s.update k change).table = before ++ (change c).subscription :: after := by
  obtain rfl := id_of_find? found
  obtain ⟨-, left, right, hsplit, hleft⟩ := List.find?_eq_some_iff_append.mp found
  have hnodup := distinct.nodup
  rw [hsplit, List.map_append, List.map_cons, List.nodup_middle, List.nodup_cons] at hnodup
  have hright : ∀ d ∈ right, d.id ≠ c.id := fun d hd heq =>
    hnodup.1 (heq ▸ List.mem_append_right _ (List.mem_map_of_mem hd))
  refine ⟨left.map Connection.subscription, right.map Connection.subscription, ?_, fun change => ?_⟩
  · simp [table, hsplit]
  · have other (ds : List Connection) (h : ∀ d ∈ ds, d.id ≠ c.id) :
        ds.map (fun d => if d.id == c.id then change d else d) = ds := by
      rw [List.map_congr_left (g := id) fun d hd => by simp [h d hd], List.map_id]
    have hleft' : ∀ d ∈ left, d.id ≠ c.id := by simpa using hleft
    have hupdated : (s.update c.id change).connections = left ++ change c :: right := by
      simp only [update, hsplit, List.map_append, List.map_cons, other left hleft',
        other right hright, beq_self_eq_true, if_true]
    simp [table, hupdated]

theorem find?_unsubscribe (holds : s.Holds c) :
    ∃ d, (s.unsubscribe c).find? c.id = some d ∧ d.subscription = none := by
  obtain ⟨d, found, hsub⟩ := holds
  cases h : c.subscription with
  | none => exact ⟨d, by simpa only [unsubscribe, h] using found, hsub.trans h⟩
  | some subscription =>
    simp only [unsubscribe, h]
    exact ⟨_, find?_update_self (fun _ => rfl) found, rfl⟩

theorem table_unsubscribe (distinct : s.Distinct) (holds : s.Holds c) :
    ∃ before after, s.table = before ++ c.subscription :: after ∧
      (s.unsubscribe c).table = before ++ none :: after := by
  obtain ⟨d, found, hsub⟩ := holds
  obtain ⟨before, after, htable, hupdate⟩ := table_update distinct found
  rw [hsub] at htable
  refine ⟨before, after, htable, ?_⟩
  cases h : c.subscription with
  | none => simpa only [unsubscribe, h] using htable
  | some subscription =>
    simp only [unsubscribe, h]
    exact hupdate fun c => { c with subscription := none }

/-- The old subscription is gone before the new one begins. -/
theorem table_subscribe (distinct : s.Distinct) (holds : s.Holds c) (role : Role) :
    ∃ before after, (s.unsubscribe c).table = before ++ none :: after ∧
      (s.subscribe c role).2.table =
        before ++ some (((s.unsubscribe c).host.desk.subscribe role).1, role) :: after := by
  obtain ⟨d, found, hsub⟩ := find?_unsubscribe holds
  obtain ⟨before, after, htable, hupdate⟩ :=
    table_update (distinct.of_kept (kept_unsubscribe s c)) found
  rw [hsub] at htable
  exact ⟨before, after, htable, hupdate fun e =>
    { e with subscription := some (((s.unsubscribe c).host.desk.subscribe role).1, role) }⟩

/-- The windows of a server stand as its displays and the demands have them. -/
structure Attends (demands : List Demand) (s : Server) : Prop where
  distinct : s.Distinct
  attended : Attended demands s.table s.host.desk

namespace Attends

theorem adjust (attends : s.Attends demands) (k : ConnectionId)
    (change : Connection → Connection) (id : ∀ c, (change c).id = c.id)
    (subscription : ∀ c, (change c).subscription = c.subscription) :
    (s.update k change).Attends demands where
  distinct := attends.distinct.of_kept (kept_update s k id)
  attended := by
    rw [table_update_of_keeps s k subscription]
    exact attends.attended

theorem forwardFirst (attends : s.Attends demands) (c : Connection) (count : Nat) :
    (s.forwardFirst c count).Attends demands where
  distinct := attends.distinct.of_kept (kept_forwardFirst s c count)
  attended := by
    rw [table_forwardFirst]
    unfold Server.forwardFirst
    split
    · exact attends.attended
    · exact attends.attended.take _ _

theorem unsubscribe (attends : s.Attends demands) (holds : s.Holds c) :
    (s.unsubscribe c).Attends demands := by
  refine ⟨attends.distinct.of_kept (kept_unsubscribe s c), ?_⟩
  obtain ⟨before, after, htable, hended⟩ := table_unsubscribe attends.distinct holds
  have attended := attends.attended
  rw [htable] at attended
  rw [hended]
  cases h : c.subscription with
  | none =>
    rw [h] at attended
    simpa only [Server.unsubscribe, h] using attended
  | some subscription =>
    obtain ⟨n, role⟩ := subscription
    rw [h] at attended
    simp only [Server.unsubscribe, h]
    exact attended.disconnected

theorem subscribe (attends : s.Attends demands) (holds : s.Holds c) (role : Role) :
    (s.subscribe c role).2.Attends demands := by
  have ended := attends.unsubscribe holds
  obtain ⟨before, after, htable, hbegun⟩ := table_subscribe attends.distinct holds role
  have attended := ended.attended
  rw [htable] at attended
  refine ⟨ended.distinct.of_kept ((kept_setDesk _ _).trans (kept_update _ _ fun _ => by rfl)), ?_⟩
  rw [hbegun]
  exact attended.subscribed role

theorem dispatch (attends : s.Attends demands) (command : Command) :
    ({ s with host := (s.host.dispatch command).2 } : Server).Attends
      (demands ++ s.host.demands command) :=
  ⟨⟨attends.distinct.nodup, attends.distinct.lt_next⟩,
    attends.attended.heeds (s.host.heeds_dispatch command)⟩

theorem connect (attends : s.Attends demands) {connected : ConnectionId × Server}
    (accepted : s.connect = some connected) : connected.2.Attends demands := by
  refine ⟨attends.distinct.connect accepted, ?_⟩
  unfold Server.connect at accepted
  split at accepted
  · cases accepted
    have htable := attends.attended.connect
    simpa [table, Connection.new] using htable
  · cases accepted

theorem demands_handing (s : Server) (c : Connection) (count : Nat) :
    Happening.demands (s.handing c count) = [] := by
  unfold handing
  split
  · rfl
  · exact Happening.demands_map_handed _ _

theorem answer (attends : s.Attends demands) (holds : s.Holds c) (payload : Bytes) :
    (s.answer c payload).2.Attends (demands ++ Happening.demands (s.effects c payload)) := by
  cases h : request? payload with
  | none => simpa [Server.answer, effects, h, Happening.demands] using attends
  | some r =>
    obtain ⟨id, command⟩ := r
    by_cases hsub : ∃ role, command = .subscribe role
    · obtain ⟨role, rfl⟩ := hsub
      have hnone : Happening.demands (s.effects c payload) = [] := by
        simp [effects, h, Host.demands, Host.navigation?, Host.deskAtReading, Happening.demands]
      rw [hnone, List.append_nil]
      simpa [Server.answer, h] using attends.subscribe holds role
    · rw [answer_of_request s c h fun role hrole => hsub ⟨role, hrole⟩]
      have hdispatch := attends.dispatch command
      have hdemands : Happening.demands (s.effects c payload) = s.host.demands command := by
        simp only [effects, h, Happening.demands_append, Happening.demands_map_demanded]
        split
        · exact List.append_nil _
        · rw [demands_handing, List.append_nil]
      rw [hdemands]
      simp only [pauseForReading]
      split
      · exact hdispatch
      · exact (hdispatch.forwardFirst c _).adjust c.id _ (fun _ => rfl) fun _ => rfl

theorem step (attends : s.Attends demands) (step : Step s more t) :
    t.Attends (demands ++ Happening.demands more) := by
  cases step with
  | connect accepted => simpa [Happening.demands] using attends.connect accepted
  | stop =>
    rw [show Happening.demands [] = [] from rfl, List.append_nil]
    exact ⟨⟨attends.distinct.nodup, attends.distinct.lt_next⟩, attends.attended⟩
  | adjust k change same =>
    simpa [Happening.demands] using
      attends.adjust k change (fun c => (same c).id) fun c => (same c).subscription
  | reply c payload holds short =>
    refine (attends.answer holds payload).adjust c.id _ (fun d => ?_) fun d => ?_
    · rw [Connection.send_eq]
    · rw [Connection.send_eq]
  | forward c count holds =>
    rw [demands_handing, List.append_nil]
    exact attends.forwardFirst c count
  | quit c holds =>
    rw [show Happening.demands [] = [] from rfl, List.append_nil]
    exact (attends.unsubscribe holds).adjust c.id _ (fun _ => rfl) fun _ => rfl

theorem course (attends : s.Attends demands) (course : Course s record t) :
    t.Attends (demands ++ Happening.demands record) := by
  induction course with
  | start => simpa [Happening.demands] using attends
  | step _ step ih =>
    rw [Happening.demands_append, ← List.append_assoc]
    exact ih.step step

end Attends

end Server
end Ipc
end Lectern
