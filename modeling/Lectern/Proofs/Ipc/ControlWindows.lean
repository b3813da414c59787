import Lectern.Proofs.Ipc.Displays

/-!
# What control windows know

A display counts while its subscription lasts, whichever connection has it and however often
connections subscribe again. The window of a surface is open while displays of it are counted,
or when the last demand about it was that it be opened. A control window that goes by the
snapshot it began with and by the events it has been handed since knows which windows are open.
-/

namespace Lectern
namespace Ipc

open Json Windows

/-- Whoever began with what is known, and hears the events and those that wait in the subscription
`n`, knows which windows are open, unless the subscription has ended. -/
def Watched (n : Nat) (known : Surface → Bool) (es : List Event) (d : Desk Registry) : Prop :=
  d.hub.Gone n ∨ ∃ queue, d.hub.find? n = some ⟨n, .control, queue⟩ ∧
    ∀ s, windowAfter s (known s) (es ++ queue) = d.windows.isOpen s

namespace Watched

variable {n : Nat} {known : Surface → Bool} {es : List Event} {d d' : Desk Registry}

theorem reports (watched : Watched n known es d) (reports : d.Reports d') :
    Watched n known es d' := by
  obtain ⟨fs, hhub, hfs⟩ := reports
  rcases watched with gone | ⟨queue, found, hknown⟩
  · exact .inl (hhub ▸ gone.publishAll fs)
  · have hall : fs.filter Role.control.hears = fs := List.filter_eq_self.mpr fun _ _ => rfl
    have hfound := Hub.find?_publishAll found fs
    rw [← hhub, hall] at hfound
    refine .inr ⟨queue ++ fs, hfound, fun s => ?_⟩
    rw [← List.append_assoc, windowAfter_append, hknown, hfs]

/-- What observers do changes what has been heard and what is left to be heard. -/
theorem observe (watched : Watched n known es d) (fresh : d.hub.Fresh) (o : Observation) :
    Watched n known (es ++ o.handed n d.hub) { d with hub := o.apply d.hub } := by
  rcases watched with gone | ⟨queue, found, hknown⟩
  · exact .inl (gone.observe o)
  · by_cases ends : o = .dispose n
    · subst ends
      exact .inl (fresh.gone_dispose found)
    · obtain ⟨rest, hrest, hqueue⟩ := Observation.find?_apply found ends
      refine .inr ⟨rest, hrest, fun s => ?_⟩
      rw [List.append_assoc, hqueue, hknown]

/-- As long as the subscription lasts, the windows are known. -/
theorem isOpen {table : Table} (watched : Watched n known es d)
    (registered : Registered table d.hub) (subscribed : some (n, .control) ∈ table) (s : Surface) :
    windowAfter s (known s) (es ++ d.hub.queue n) = d.windows.isOpen s := by
  obtain ⟨queue, found⟩ := registered.known n .control subscribed
  rcases watched with gone | ⟨queue, found, hknown⟩
  · cases gone.missing.symm.trans found
  · rw [Hub.queue_of_find? found]
    exact hknown s

end Watched

namespace Server

variable {s t : Server} {c : Connection} {demands : List Demand} {record more : List Happening}
  {payload : Bytes} {n : Nat} {known : Surface → Bool} {es : List Event}

theorem watched_unsubscribe (watched : Watched n known es s.host.desk)
    (fresh : s.host.desk.hub.Fresh) (c : Connection) :
    Watched n known es (s.unsubscribe c).host.desk := by
  cases h : c.subscription with
  | none => simpa only [unsubscribe, h] using watched
  | some subscription =>
    obtain ⟨m, role⟩ := subscription
    have hdispose := watched.observe fresh (.dispose m)
    rw [Observation.handed, List.append_nil] at hdispose
    simp only [unsubscribe, h]
    exact hdispose.reports (reports_displayDisconnected (s.host.desk.dispose m) role)

theorem watched_subscribe (watched : Watched n known es s.host.desk) (attends : s.Attends demands)
    (holds : s.Holds c) (role : Role) : Watched n known es (s.subscribe c role).2.host.desk := by
  have ended := watched_unsubscribe watched attends.attended.registered.fresh c
  have fresh := (attends.unsubscribe holds).attended.registered.fresh
  have hsubscribe := ended.observe fresh (.subscribe role)
  rw [Observation.handed, List.append_nil] at hsubscribe
  exact hsubscribe.reports
    (reports_displayConnected ((s.unsubscribe c).host.desk.subscribe role).2 role)

theorem watched_forwardFirst (watched : Watched n known es s.host.desk)
    (fresh : s.host.desk.hub.Fresh) (c : Connection) (count : Nat) :
    Watched n known (es ++ Happening.heard n (s.handing c count))
      (s.forwardFirst c count).host.desk := by
  cases h : c.subscription with
  | none => simpa [forwardFirst, handing, h, Happening.heard] using watched
  | some subscription =>
    obtain ⟨m, role⟩ := subscription
    simp only [forwardFirst, handing, h, Happening.heard_map_handed]
    exact watched.observe fresh (.take m count)

theorem watched_answer (watched : Watched n known es s.host.desk) (attends : s.Attends demands)
    (holds : s.Holds c) (payload : Bytes) :
    Watched n known (es ++ Happening.heard n (s.effects c payload))
      (s.answer c payload).2.host.desk := by
  cases h : request? payload with
  | none => simpa [answer, effects, h, Happening.heard] using watched
  | some r =>
    obtain ⟨id, command⟩ := r
    by_cases hsub : ∃ role, command = .subscribe role
    · obtain ⟨role, rfl⟩ := hsub
      have hnone : Happening.heard n (s.effects c payload) = [] := by
        simp [effects, h, Host.demands, Host.navigation?, Host.deskAtReading, Happening.heard]
      rw [hnone, List.append_nil]
      simpa [answer, h] using watched_subscribe watched attends holds role
    · rw [answer_of_request s c h fun role hrole => hsub ⟨role, hrole⟩]
      have hdispatch := watched.reports (s.host.heeds_dispatch command).reports
      have fresh := (attends.dispatch command).attended.registered.fresh
      simp only [effects, h, Happening.heard_append, Happening.heard_map_demanded,
        List.nil_append]
      cases s.host.deskAtReading command with
      | none => simpa [pauseForReading, Happening.heard] using hdispatch
      | some desk =>
        exact watched_forwardFirst (s := { s with host := (s.host.dispatch command).2 }) hdispatch
          fresh c (c.waiting desk)

theorem watched_step (watched : Watched n known es s.host.desk) (attends : s.Attends demands)
    (step : Step s more t) : Watched n known (es ++ Happening.heard n more) t.host.desk := by
  have fresh := attends.attended.registered.fresh
  have hnil : es ++ Happening.heard n [] = es := List.append_nil es
  cases step with
  | connect accepted =>
    unfold Server.connect at accepted
    split at accepted
    · cases accepted
      rwa [hnil]
    · cases accepted
  | stop => rwa [hnil]
  | adjust k change same => rwa [hnil]
  | reply c payload holds short => exact watched_answer watched attends holds payload
  | forward c count holds => exact watched_forwardFirst watched fresh c count
  | quit c holds =>
    rw [hnil]
    exact watched_unsubscribe watched fresh c

/-- The answer to the payload begins the subscription `n` of a control window, and tells how the
windows stand. -/
structure Begins (s : Server) (c : Connection) (payload : Bytes) (n : Nat)
    (infos : List SurfaceInfo) : Prop where
  request : ∃ id, request? payload = some ⟨id, .subscribe .control⟩
  answer : ∃ id v, (s.answer c payload).1 = .response id (.success v) ∧
    v.field? "surfaces" = some (.list (infos.map SurfaceInfo.toJson))
  surfaces : infos.map SurfaceInfo.surface = Surface.all
  subscribed : ∃ d, (s.reply c payload).find? c.id = some d ∧ d.subscription = some (n, .control)

theorem begins_reply (attends : s.Attends demands) (holds : s.Holds c) {id : Option Nat}
    (request : request? payload = some ⟨id, .subscribe .control⟩) :
    s.Begins c payload (s.unsubscribe c).host.desk.hub.nextId
        (s.reply c payload).host.desk.surfaces ∧
      Watched (s.unsubscribe c).host.desk.hub.nextId (s.reply c payload).host.desk.windows.isOpen []
        (s.reply c payload).host.desk := by
  have hanswer := answer_of_subscribe s c request
  have hdesk : (s.reply c payload).host.desk =
      ((s.unsubscribe c).host.desk.subscribe .control).2 := by
    simp only [reply, hanswer]
    rfl
  have fresh := (attends.unsubscribe holds).attended.registered.fresh
  refine ⟨⟨⟨id, request⟩, ⟨id, _, by rw [hanswer], ?_⟩, rfl, ?_⟩, .inr ⟨[], ?_, fun x => rfl⟩⟩
  · rw [hdesk]
    rfl
  · obtain ⟨d, found, -⟩ := find?_unsubscribe holds
    have hsubscribed : (s.subscribe c .control).2.find? c.id = some
        { d with subscription := some ((s.unsubscribe c).host.desk.hub.nextId, .control) } :=
      find?_update_self (fun _ => rfl) found
    refine ⟨Connection.send { d with
      subscription := some ((s.unsubscribe c).host.desk.hub.nextId, .control) }
      (s.answer c payload).1, ?_, ?_⟩
    · rw [reply, hanswer]
      exact find?_update_self (fun e => by rw [Connection.send_eq]) hsubscribed
    · rw [Connection.send_eq]
  · rw [hdesk]
    exact fresh.find?_subscribe_new .control

/-- In the course of a server the subscription `n` of a control window began with an answer that
told `infos`; `later` is the record since. -/
inductive Told (host : Host) (explain : Bytes → String) (n : Nat) (infos : List SurfaceInfo)
    (later : List Happening) : List Happening → Server → Prop
  | intro {earlier : List Happening} {t u : Server} {c : Connection} {payload : Bytes}
    (before : Course (start host explain) earlier t) (begins : t.Begins c payload n infos)
    (after : Course (t.reply c payload) later u) :
    Told host explain n infos later
      (earlier ++ .answered payload :: t.effects c payload ++ later) u

theorem Told.step {host : Host} {explain : Bytes → String} {infos : List SurfaceInfo}
    {later : List Happening} (told : Told host explain n infos later record s)
    (step : Step s more t) :
    Told host explain n infos (later ++ more) (record ++ more) t := by
  obtain ⟨before, begins, after⟩ := told
  rw [List.append_assoc]
  exact .intro before begins (after.step step)

theorem mem_table_unsubscribe (distinct : s.Distinct) (holds : s.Holds c) {role : Role}
    (mem : some (n, role) ∈ (s.unsubscribe c).table) : some (n, role) ∈ s.table := by
  obtain ⟨before, after, htable, hended⟩ := table_unsubscribe distinct holds
  rw [hended] at mem
  rw [htable]
  simp only [List.mem_append, List.mem_cons, reduceCtorEq, false_or] at mem ⊢
  exact mem.imp_right .inr

theorem mem_table_subscribe (distinct : s.Distinct) (holds : s.Holds c) {role asked : Role}
    (mem : some (n, role) ∈ (s.subscribe c asked).2.table) :
    some (n, role) ∈ s.table ∨ n = (s.unsubscribe c).host.desk.hub.nextId ∧ role = asked := by
  obtain ⟨before, after, htable, hbegun⟩ := table_subscribe distinct holds asked
  rw [hbegun] at mem
  have hmem : some (n, role) ∈ before ∨
      (n = (s.unsubscribe c).host.desk.hub.nextId ∧ role = asked) ∨ some (n, role) ∈ after := by
    simpa [Desk.subscribe, Hub.subscribe] using mem
  have hold (h : some (n, role) ∈ before ∨ some (n, role) ∈ after) : some (n, role) ∈ s.table := by
    refine mem_table_unsubscribe distinct holds ?_
    rw [htable]
    rcases h with h | h <;> simp [h]
  rcases hmem with h | h | h
  · exact .inl (hold (.inl h))
  · exact .inr h
  · exact .inl (hold (.inr h))

/-- A subscription in the table was there before the step, or the step has begun it. -/
theorem mem_table_step (distinct : s.Distinct) (step : Step s more t) {role : Role}
    (mem : some (n, role) ∈ t.table) :
    some (n, role) ∈ s.table ∨ ∃ c payload id, s.Holds c ∧
      request? payload = some ⟨id, .subscribe role⟩ ∧
      n = (s.unsubscribe c).host.desk.hub.nextId ∧ t = s.reply c payload ∧
      more = .answered payload :: s.effects c payload := by
  cases step with
  | connect accepted =>
    unfold Server.connect at accepted
    split at accepted
    · cases accepted
      exact .inl (by simpa [table, Connection.new] using mem)
    · cases accepted
  | stop => exact .inl mem
  | adjust k change same =>
    rw [table_update_of_keeps s k fun c => (same c).subscription] at mem
    exact .inl mem
  | forward c count => exact .inl (table_forwardFirst s c count ▸ mem)
  | quit c holds =>
    have hended : (s.quit c).table = (s.unsubscribe c).table :=
      table_update_of_keeps _ _ fun _ => rfl
    exact .inl (mem_table_unsubscribe distinct holds (hended ▸ mem))
  | reply c payload holds short =>
    have hsent : (s.reply c payload).table = (s.answer c payload).2.table :=
      table_update_of_keeps _ _ fun d => by rw [Connection.send_eq]
    rw [hsent] at mem
    cases h : request? payload with
    | none => exact .inl (by simpa only [answer, h] using mem)
    | some r =>
      obtain ⟨id, command⟩ := r
      by_cases hsub : ∃ asked, command = .subscribe asked
      · obtain ⟨asked, rfl⟩ := hsub
        rw [answer_of_subscribe s c h] at mem
        rcases mem_table_subscribe distinct holds mem with old | ⟨rfl, rfl⟩
        · exact .inl old
        · exact .inr ⟨c, payload, id, holds, h, rfl, rfl, rfl⟩
      · rw [answer_of_request s c h fun asked hasked => hsub ⟨asked, hasked⟩] at mem
        rw [table_pauseForReading] at mem
        exact .inl mem

/-- Every control window has been told how the windows stood when it began, and by what it has
heard since it knows how they stand now. -/
theorem told_of_course {host : Host} {explain : Bytes → String}
    (attends : (start host explain).Attends [])
    (course : Course (start host explain) record s) (subscribed : some (n, .control) ∈ s.table) :
    ∃ infos later known, Told host explain n infos later record s ∧
      Watched n known (Happening.heard n later) s.host.desk ∧
      ∀ info ∈ infos, known info.surface = info.isOpen := by
  induction course with
  | start => simp [start, table] at subscribed
  | @step record more t u earlier step ih =>
    have attendst := attends.course earlier
    rcases mem_table_step attendst.distinct step subscribed with
      old | ⟨c, payload, id, holds, request, rfl, rfl, rfl⟩
    · obtain ⟨infos, later, known, told, watched, hinfos⟩ := ih old
      refine ⟨infos, later ++ more, known, told.step step, ?_, hinfos⟩
      rw [Happening.heard_append]
      exact watched_step watched attendst step
    · obtain ⟨begins, watched⟩ := begins_reply attendst holds request
      have told := Told.intro earlier begins .start
      rw [List.append_nil] at told
      exact ⟨_, [], _, told, watched, by simp [Desk.surfaces, Windows.isOpen]⟩

theorem attends_start {host : Host} (explain : Bytes → String)
    (windows : host.desk.windows = .empty) (hub : host.desk.hub = .empty) :
    (start host explain).Attends [] where
  distinct := distinct_start host explain
  attended := by
    refine ⟨⟨?_, by simp [start, table], List.nodup_nil⟩, fun s => ?_, fun s => ?_⟩
    · exact hub ▸ Hub.fresh_empty
    · show host.desk.windows.connected s = 0
      rw [windows]
      simp [Registry.connected, Registry.empty]
    · refine iff_of_false ?_ (Demand.not_stands_nil s)
      show ¬ host.desk.windows.requested s = true
      rw [windows]
      simp [Registry.requested, Registry.empty]

/-- Whatever happens to a server that begins without windows and observers: the displays of a
surface are counted, its window is open exactly while there are some or a demand for it stands,
and every control window that goes by its snapshot and the events since knows that. Between
moves it has been handed all of them. -/
theorem windows_accounted (host : Host) (explain : Bytes → String)
    (windows : host.desk.windows = .empty) (hub : host.desk.hub = .empty) :
    (∀ moves, (∃ record, Course (start host explain) record ((start host explain).run moves)) ∧
      ∀ c ∈ ((start host explain).run moves).connections,
        c.waiting ((start host explain).run moves).host.desk = 0) ∧
    ∀ record s, Course (start host explain) record s →
      (∀ x, s.host.desk.windows.connected x =
          s.connections.countP fun c => c.subscription.map Prod.snd = some (.display x)) ∧
      (∀ x, s.host.desk.windows.isOpen x = true ↔
        0 < (s.connections.countP fun c => c.subscription.map Prod.snd = some (.display x)) ∨
          ∃ before after, record = before ++ .demanded ⟨x, true⟩ :: after ∧
            .demanded ⟨x, false⟩ ∉ after) ∧
      ∀ c ∈ s.connections, ∀ n, c.subscription = some (n, .control) →
        ∃ infos later, Told host explain n infos later record s ∧ ∀ info ∈ infos,
          windowAfter info.surface info.isOpen
              (Happening.heard n later ++ s.host.desk.hub.queue n) =
            s.host.desk.windows.isOpen info.surface := by
  have attends := attends_start explain windows hub
  refine ⟨fun moves => ⟨goes_run attends.distinct moves, fun c hc => ?_⟩, fun record s course => ?_⟩
  · exact ((atRest_start host explain).run moves).waiting hc
  · obtain ⟨-, attended⟩ := attends.course course
    have connected (x : Surface) : s.host.desk.windows.connected x =
        s.connections.countP fun c => c.subscription.map Prod.snd = some (.display x) := by
      rw [attended.connected, Table.displays, table, List.countP_map]
      rfl
    refine ⟨connected, fun x => ?_, fun c hc n hsub => ?_⟩
    · rw [Registry.isOpen_iff, connected, attended.requested, List.nil_append,
        Happening.stands_demands_iff]
    · have subscribed : some (n, .control) ∈ s.table := hsub ▸ List.mem_map_of_mem hc
      obtain ⟨infos, later, known, told, watched, hinfos⟩ :=
        told_of_course attends course subscribed
      refine ⟨infos, later, told, fun info hinfo => ?_⟩
      rw [← hinfos info hinfo]
      exact watched.isOpen attended.registered subscribed info.surface

/-- A control window and a display come, and the window of A is demanded. -/
def visits : List Move :=
  [.connect, .connect, .receive 0 (framed (asking 1 (.subscribe .control))),
    .receive 1 (framed (asking 1 (.subscribe (.display .b)))),
    .receive 0 (framed (asking 2 (.openSurface .a)))]

theorem windows_accounted_visits :
    hall.desk.windows = .empty ∧ hall.desk.hub = .empty ∧
      ∃ record, Course (start hall explained) record ((start hall explained).run visits) ∧
        ((start hall explained).run visits).host.desk.windows.isOpen .b = true ∧
        (∃ before after, record = before ++ .demanded ⟨.a, true⟩ :: after ∧
          .demanded ⟨.a, false⟩ ∉ after) ∧
        ∃ n infos later,
          Told hall explained n infos later record ((start hall explained).run visits) ∧
          ∀ info ∈ infos, windowAfter info.surface info.isOpen (Happening.heard n later ++
              ((start hall explained).run visits).host.desk.hub.queue n) =
            ((start hall explained).run visits).host.desk.windows.isOpen info.surface := by
  obtain ⟨runs, accounted⟩ := windows_accounted hall explained rfl rfl
  obtain ⟨⟨record, course⟩, -⟩ := runs visits
  obtain ⟨-, isOpen, told⟩ := accounted record _ course
  obtain ⟨displayed, demanded, undisplayed, watching⟩ :
      (0 < ((start hall explained).run visits).connections.countP fun c =>
        c.subscription.map Prod.snd = some (.display .b)) ∧
      ((start hall explained).run visits).host.desk.windows.isOpen .a = true ∧
      ¬ (0 < ((start hall explained).run visits).connections.countP fun c =>
        c.subscription.map Prod.snd = some (.display .a)) ∧
      ∃ c ∈ ((start hall explained).run visits).connections,
        c.subscription = some (1, .control) := by
    decide +kernel
  obtain ⟨c, hc, hsub⟩ := watching
  obtain ⟨infos, later, htold, hinfos⟩ := told c hc 1 hsub
  refine ⟨rfl, rfl, record, course, (isOpen .b).mpr (.inl displayed), ?_, 1, infos, later, htold,
    hinfos⟩
  exact ((isOpen .a).mp demanded).resolve_left undisplayed

end Server
end Ipc
end Lectern
