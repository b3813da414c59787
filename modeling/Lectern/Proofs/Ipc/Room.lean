import Lectern.Proofs.Desk.Replies
import Lectern.Proofs.Ipc.Course
import Lectern.Proofs.Ipc.Message

/-!
# Room for every answer

A response may tell of everything that the host holds: three screens, each with two colours and a
content, and the plan that is gone through. A rejection may quote from the payload. As long as
frames are ten times as long as requests and have room for what the sources show, all that the
server sends fits, and every connection lasts.
-/

namespace Lectern
namespace Ipc

open Json Windows

/-- A request hands on no more than its payload has. -/
theorem span_le_of_request? {payload : Bytes} {r : Request} (h : request? payload = some r) :
    r.command.span ≤ payload.length := by
  obtain ⟨n, hn, hr⟩ := Option.bind_eq_some_iff.mp h
  obtain ⟨cs, hcs, hread⟩ := Option.bind_eq_some_iff.mp hn
  have hcommand := Request.span_le_of_decoder hr
  have hnode := Node.span_read? hread
  rw [Text.width, Text.toBytes_of_ofBytes? hcs] at hnode
  exact Nat.le_trans hcommand hnode

/-- All that is sent fits in so many bytes when requests and what the sources show are short. -/
def room (small shown : Nat) : Nat := 10 * small + 3 * shown + 8192

theorem fits_of_allowance {m : Message} {small shown : Nat}
    (fits : room small shown ≤ Frame.maxSize) (h : m.toJson.allowance ≤ room small shown) :
    Fits m :=
  fits_of_length (Nat.le_trans (Value.length_toBytes_chars_le _) (Nat.le_trans h fits))

theorem fits_event {small shown : Nat} (fits : room small shown ≤ Frame.maxSize) {e : Event}
    (h : e.Within small shown) : Fits (.event e) := by
  refine fits_of_allowance fits ?_
  unfold room
  cases e with
  | screen s screen =>
    have hspan := h.display.span_le
    have hallowance := Message.allowance_screen_le s h.updatedAt
    omega
  | window s isOpen =>
    have hallowance := Message.allowance_window_le s isOpen
    omega
  | live state =>
    have hplan := h.planId
    have hallowance := Message.allowance_live_le h.cursor h.updatedAt
    omega

theorem fits_events {small shown : Nat} (fits : room small shown ≤ Frame.maxSize)
    {es : List Event} (h : ∀ e ∈ es, e.Within small shown) :
    ∀ m ∈ es.map Message.event, Fits m := by
  intro m hm
  obtain ⟨e, he, rfl⟩ := List.mem_map.mp hm
  exact fits_event fits (h e he)

theorem fits_response {small shown : Nat} (fits : room small shown ≤ Frame.maxSize)
    {id : Option Nat} (hid : ∀ n, id = some n → n < UInt64.size) {r : Response}
    (h : r.allowance ≤ 10 * small + 3 * shown + 8000) : Fits (.response id r) := by
  refine fits_of_allowance fits ?_
  have hallowance := Message.allowance_response_le hid r
  unfold Response.allowance at h
  unfold room
  omega

/-- What is said of a payload that is no request is a few words and at most one piece of the
payload, of which each byte takes up ten at most. -/
def Brief (explain : Bytes → String) : Prop :=
  ∀ payload, Json.span (explain payload) ≤ 10 * payload.length + 4096

theorem Connection.canSend_sendAll {c : Connection} {ms : List Message}
    (can : c.isOpen = true → c.canSend = true) (fits : ∀ m ∈ ms, Fits m) :
    (c.sendAll ms).isOpen = true → (c.sendAll ms).canSend = true := by
  intro isOpen
  rw [sendAll_eq] at isOpen
  rw [sendAll_of_fits (can isOpen) fits]
  exact can isOpen

namespace Server

variable {small shown : Nat} {s t u : Server} {c d : Connection} {k : ConnectionId}
  {payload : Bytes}

/-- The host is within its limits, and whoever is connected can be sent something. -/
structure Within (small shown : Nat) (s : Server) : Prop where
  host : s.host.Within small shown
  brief : Brief s.explain
  canSend : ∀ c ∈ s.connections, c.isOpen = true → c.canSend = true

theorem Within.setDesk (h : s.Within small shown) {desk : Desk Registry}
    (hdesk : desk.Within small shown) : (s.setDesk desk).Within small shown :=
  ⟨h.host.setDesk hdesk, h.brief, h.canSend⟩

theorem Within.update (h : s.Within small shown) (k : ConnectionId)
    {change : Connection → Connection}
    (keeps : ∀ c, (c.isOpen = true → c.canSend = true) →
      (change c).isOpen = true → (change c).canSend = true) :
    (s.update k change).Within small shown := by
  refine ⟨h.host, h.brief, fun c hc => ?_⟩
  obtain ⟨d, hd, rfl⟩ := List.mem_map.mp hc
  split
  · exact keeps d (h.canSend d hd)
  · exact h.canSend d hd

theorem within_windowsAfter {desk : Desk Registry} (h : desk.Within small shown)
    (surface : Surface) (change : Option Bool × Registry) :
    (windowsAfter desk surface change).Within small shown := by
  unfold windowsAfter
  dsimp only
  split
  · exact (h.windows _).windowChanged surface _
  · exact h.windows _

theorem Within.unsubscribe (h : s.Within small shown) (c : Connection) :
    (s.unsubscribe c).Within small shown := by
  unfold Server.unsubscribe
  split
  · exact h
  · rename_i id role _
    have hdispose : (s.host.desk.dispose id).Within small shown :=
      ⟨h.host.desk.screens, h.host.desk.live, h.host.desk.events.dispose id⟩
    cases role with
    | control => exact (h.setDesk hdispose).update c.id fun _ can => can
    | display surface =>
      exact (h.setDesk (within_windowsAfter hdispose surface _)).update c.id fun _ can => can

theorem Within.subscribe (h : s.Within small shown) (c : Connection) (role : Role) :
    (s.subscribe c role).2.Within small shown := by
  have hended := h.unsubscribe c
  have hsubscribe : ((s.unsubscribe c).host.desk.subscribe role).2.Within small shown :=
    ⟨hended.host.desk.screens, hended.host.desk.live, hended.host.desk.events.subscribe role⟩
  cases role with
  | control => exact (hended.setDesk hsubscribe).update c.id fun _ can => can
  | display surface =>
    exact (hended.setDesk (within_windowsAfter hsubscribe surface _)).update c.id fun _ can => can

/-- A snapshot tells of everything at once. -/
theorem allowance_snapshot_le {h : Host} (hw : h.Within small shown) (role : Role) :
    (snapshot h role).allowance ≤ 10 * small + 3 * shown + 8000 := by
  have keys : (["live", "role", "states", "surfaces", "A", "B", "C"].map Json.span).sum = 25 := by
    decide
  have hlive := hw.desk.live.allowance_le
  have hrole := role.allowance_toJson_le
  have ha := (hw.desk.screens .a).allowance_le
  have hb := (hw.desk.screens .b).allowance_le
  have hc := (hw.desk.screens .c).allowance_le
  have hsurfaces := h.allowance_surfacesJson_le
  simp only [List.map_cons, List.map_nil, List.sum_cons, List.sum_nil] at keys
  simp only [snapshot, Surface.all, Surface.name, List.map_cons, List.map_nil, Value.allowance,
    Value.fieldsAllowance]
  omega

/-- A payload that is no request, a subscription, or a command that the host carries out. -/
theorem answer_cases (s : Server) (c : Connection) (payload : Bytes) :
    (request? payload = none ∧ s.answer c payload =
        (.response (requestId? payload) (s.rejection payload), s)) ∨
      (∃ id role, request? payload = some ⟨id, .subscribe role⟩ ∧
        s.answer c payload = (.response id (s.subscribe c role).1, (s.subscribe c role).2)) ∨
      ∃ id command, request? payload = some ⟨id, command⟩ ∧
        s.answer c payload = (.response id (s.host.dispatch command).1,
          { s with host := (s.host.dispatch command).2 }.pauseForReading c
            (s.host.deskAtReading command)) := by
  unfold answer
  split
  · rename_i request
    exact .inl ⟨request, rfl⟩
  · rename_i id role request
    exact .inr (.inl ⟨id, role, request, rfl⟩)
  · rename_i id command _ request
    exact .inr (.inr ⟨id, command, request, rfl⟩)

/-- The answer to a subscription tells of the host as it is then. -/
theorem subscribe_response (s : Server) (c : Connection) (role : Role) :
    (s.subscribe c role).1 = .success (snapshot (s.subscribe c role).2.host role) := rfl

/-- What is known of a request when its payload is short. -/
theorem limits_of_request {id : Option Nat} {command : Command}
    (request : request? payload = some ⟨id, command⟩) (short : payload.length ≤ small) :
    command.span ≤ small ∧ (∀ n, id = some n → n < UInt64.size) ∧ command.Representable := by
  obtain ⟨n, -, hn⟩ := Option.bind_eq_some_iff.mp request
  have hrepresentable := Request.representable_of_decoder hn
  exact ⟨Nat.le_trans (span_le_of_request? request) short, hrepresentable.id,
    hrepresentable.command⟩

variable (fits : room small shown ≤ Frame.maxSize)
include fits

/-- The events that go out fit. -/
theorem Within.fits_outgoing (h : s.Within small shown) (c : Connection) (count : Nat) :
    ∀ m ∈ s.outgoing c count, Fits m := by
  intro m hm
  unfold outgoing at hm
  split at hm
  · cases hm
  · rename_i id _ _
    exact fits_events fits (h.host.desk.events.take id count).1 m hm

theorem Within.forwardFirst (h : s.Within small shown) (c : Connection) (count : Nat) :
    (s.forwardFirst c count).Within small shown := by
  unfold Server.forwardFirst
  split
  · exact h
  · rename_i id _ _
    obtain ⟨htaken, hleft⟩ := h.host.desk.events.take id count
    have hdesk : ({ s.host.desk with hub := (s.host.desk.hub.take id count).2 } :
        Desk Registry).Within small shown :=
      ⟨h.host.desk.screens, h.host.desk.live, hleft⟩
    refine (h.setDesk hdesk).update c.id fun d can => ?_
    rw [Connection.foldl_send]
    exact Connection.canSend_sendAll can (fits_events fits htaken)

theorem Within.pauseForReading (h : s.Within small shown) (c : Connection)
    (reading : Option (Desk Registry)) : (s.pauseForReading c reading).Within small shown := by
  cases reading with
  | none => exact h
  | some desk => exact (h.forwardFirst fits c _).update c.id fun _ can => can

/-- A short payload is answered within the limits, and all that goes out meanwhile fits. -/
theorem Within.answer (h : s.Within small shown) (c : Connection) (short : payload.length ≤ small) :
    (s.answer c payload).2.Within small shown ∧ ∀ m ∈ s.answering c payload, Fits m := by
  simp only [answering, List.forall_mem_append, List.forall_mem_singleton]
  rcases s.answer_cases c payload with
    ⟨request, heq⟩ | ⟨id, role, request, heq⟩ | ⟨id, command, request, heq⟩
  · rw [heq]
    refine ⟨h, by simp [reading, request], fits_response fits (fun n hn => ?_) ?_⟩
    · obtain ⟨_, -, hn⟩ := Option.bind_eq_some_iff.mp hn
      exact Decoder.lt_size_of_nat hn
    · have hwords : Json.span "Invalid request: " ≤ 20 := by decide
      have hbrief := h.brief payload
      rw [rejection, Response.allowance_failure, span_append]
      omega
  · rw [heq]
    obtain ⟨-, hid, -⟩ := limits_of_request request short
    have hsubscribe := h.subscribe c role
    have hsnapshot := allowance_snapshot_le hsubscribe.host role
    refine ⟨hsubscribe, by simp [reading, request, Host.deskAtReading, Host.navigation?],
      fits_response fits hid ?_⟩
    rwa [subscribe_response, Response.allowance_success]
  · rw [heq]
    obtain ⟨hspan, hid, hrepresentable⟩ := limits_of_request request short
    have hreplies := h.host.replies hspan hrepresentable
    have hhost : ({ s with host := (s.host.dispatch command).2 } : Server).Within small shown :=
      ⟨hreplies.host, h.brief, h.canSend⟩
    have hshort := hreplies.short
    refine ⟨hhost.pauseForReading fits c _, ?_, fits_response fits hid (by omega)⟩
    simp only [reading, request]
    split
    · simp
    · exact hhost.fits_outgoing fits c _

theorem Within.reply (h : s.Within small shown) (c : Connection) (short : payload.length ≤ small) :
    (s.reply c payload).Within small shown := by
  obtain ⟨hanswer, hfits⟩ := h.answer fits c short
  have hmine : ∀ m ∈ [(s.answer c payload).1], Fits m := fun m hm =>
    hfits m (List.mem_append_right _ hm)
  exact hanswer.update c.id fun d can => Connection.canSend_sendAll can hmine

/-- Whatever happens to a server as long as payloads are short, it is within its limits and can
send to everyone. -/
theorem Within.step {more : List Happening} (h : s.Within small shown) (step : Step s more t)
    (short : ∀ p, .answered p ∈ more → p.length ≤ small) : t.Within small shown := by
  cases step with
  | @connect connected accepted =>
    unfold connect at accepted
    split at accepted
    · cases accepted
      refine ⟨h.host, h.brief, fun c hc isOpen => ?_⟩
      rcases List.mem_append.mp hc with hc | hc
      · exact h.canSend c hc isOpen
      · rw [List.mem_singleton.mp hc]
        rfl
    · cases accepted
  | stop => exact ⟨h.host, h.brief, h.canSend⟩
  | adjust k change same =>
    refine h.update k fun c can isOpen => ?_
    rw [(same c).isOpen] at isOpen
    rw [(same c).canSend]
    exact can isOpen
  | reply c payload holds _ => exact h.reply fits c (short payload List.mem_cons_self)
  | forward c count holds => exact h.forwardFirst fits c count
  | quit c holds => exact (h.unsubscribe c).update c.id fun _ _ isOpen => by cases isOpen

theorem Within.course {record : List Happening} (h : s.Within small shown)
    (course : Course s record t) (short : ∀ p, .answered p ∈ record → p.length ≤ small) :
    t.Within small shown := by
  induction course with
  | start => exact h
  | step _ step ih =>
    have hearlier := ih fun p hp => short p (List.mem_append_left _ hp)
    exact hearlier.step fits step fun p hp => short p (List.mem_append_right _ hp)

theorem Within.spend (h : s.Within small shown) (c : Connection) (reads : Nat) :
    (s.spend c reads).Within small shown := by
  unfold Server.spend
  split
  · exact h.update c.id fun _ can => can
  · exact (h.forwardFirst fits c _).update c.id fun _ can => can

theorem Within.fits_pausing (h : s.Within small shown) (c : Connection) :
    ∀ m ∈ s.pausing c, Fits m := by
  unfold pausing
  split
  · simp
  · exact h.fits_outgoing fits c _

theorem Within.advance (h : s.Within small shown) (c : Connection) (rest : Bytes) :
    (s.advance c rest).Within small shown :=
  (h.spend fits c _).update c.id fun _ can => can

/-- While short payloads are answered the limits are kept, and all that goes out fits. -/
theorem Within.work {stream left : Bytes} {payloads : List Bytes}
    (divides : Frame.Divides stream payloads left) {fuel : Nat} (enough : stream.length < fuel)
    (h : s.Within small shown) (short : ∀ p ∈ payloads, p.length ≤ small)
    (found : s.find? k = some c) (isOpen : c.isOpen = true) (received : c.received = stream) :
    (work k fuel s).Within small shown ∧ ∀ m ∈ putOut k fuel s, Fits m := by
  induction divides generalizing s c fuel with
  | stop front =>
    obtain ⟨fuel, rfl⟩ : ∃ n, fuel = n + 1 := Nat.exists_eq_add_one.mpr (by omega)
    subst received
    rw [putOut_of_partial found front, work_of_partial found front]
    exact ⟨h.spend fits c _, h.fits_pausing fits c⟩
  | @frame _ payload rest left payloads front later ih =>
    obtain ⟨fuel, rfl⟩ : ∃ n, fuel = n + 1 := Nat.exists_eq_add_one.mpr (by omega)
    obtain rfl := id_of_find? found
    subst received
    have enough : rest.length < fuel := by
      have hlength := Frame.length_lt_of_start front
      omega
    have can := h.canSend c (List.mem_of_find?_eq_some found) isOpen
    obtain ⟨hpayload, hpayloads⟩ := List.forall_mem_cons.mp short
    rw [work_of_frame found front, putOut_of_frame found front]
    -- Before the payload is answered the connection may have paused.
    have hpausing := h.fits_pausing fits c
    obtain ⟨d, hadvance, wentd⟩ := went_advance found can isOpen hpausing rest
    have hwithin := h.advance fits c rest
    have hreply := handle_of_canSend (s := s.advance c rest) (c := { c with received := rest }) can
      payload
    have hanswering := (hwithin.answer fits { c with received := rest } hpayload).2
    obtain ⟨e, hhandle, wente⟩ := went_handle (d := { c with received := rest }) hadvance
      wentd.canSend wentd.isOpen can hanswering
    obtain ⟨hlimits, hlater⟩ := ih enough (hreply ▸ hwithin.reply fits _ hpayload)
      hpayloads hhandle wente.isOpen (wente.received.trans wentd.received)
    simp only [List.forall_mem_append]
    exact ⟨hlimits, hpausing, hanswering, hlater⟩

omit fits in
theorem within_start {host : Host} (h : host.Within small shown) {explain : Bytes → String}
    (brief : Brief explain) : (start host explain).Within small shown :=
  ⟨h, brief, by simp [start]⟩

end Server

open Server

/-- As long as requests are short, every payload that comes on an open connection is answered, all
that goes out on the connection fits in frames, and every connection can be sent more. -/
theorem answered_in_room {host : Host} {small shown : Nat} (limited : host.Within small shown)
    (fits : room small shown ≤ Frame.maxSize) {explain : Bytes → String} (brief : Brief explain)
    {record : List Happening} {s : Server} (course : Course (start host explain) record s)
    (asked : ∀ p, .answered p ∈ record → p.length ≤ small) {k : ConnectionId} {c : Connection}
    (found : s.find? k = some c) (isOpen : c.isOpen = true)
    {bytes left : Bytes} {payloads : List Bytes}
    (divides : Frame.Divides (c.received ++ bytes) payloads left)
    (short : ∀ p ∈ payloads, p.length ≤ small) :
    (∀ m ∈ s.readOut k bytes, Fits m) ∧
      (∃ d, (s.read k bytes).find? k = some d ∧ Went c (s.readOut k bytes) left d) ∧
      List.Forall₂ Answers payloads ((s.readOut k bytes).filterMap answer?) ∧
      ∀ d ∈ (s.read k bytes).connections, d.isOpen = true → d.canSend = true := by
  have hwithin := (within_start limited brief).course fits course asked
  have can := hwithin.canSend c (List.mem_of_find?_eq_some found) isOpen
  have hfits : (s.read k bytes).Within small shown ∧ ∀ m ∈ s.readOut k bytes, Fits m := by
    have hfound : (s.update k fun d =>
        { d with received := c.received ++ bytes, readsLeft := Connection.stint }).find? k =
        some { c with received := c.received ++ bytes, readsLeft := Connection.stint } :=
      find?_update_self (fun _ => rfl) found
    simp only [readOut, Server.read, found, isOpen, if_true]
    exact (hwithin.update k fun _ can => by exact can).work fits divides (Nat.lt_succ_self _)
      short hfound isOpen rfl
  obtain ⟨hwent, hanswers⟩ := went_read divides found can isOpen hfits.2
  exact ⟨hfits.2, hwent, hanswers, hfits.1.canSend⟩

theorem within_hall : hall.Within 1000 10 where
  desk := Desk.within_initial _ _ ⟨by decide, by decide, Nat.zero_le _⟩
  sources := {
    items := by
      intro id p h
      simp [hall, Library.ofCatalogue, Catalogue.plan?, Catalogue.empty, Except.map] at h
    blocks := by
      intro id song h
      simp [hall, Library.ofCatalogue, Catalogue.song?, Catalogue.empty, Except.map] at h
    verses := by
      intro reference vs h
      simp [hall, Bible.ofDataset, Scripture.lookup?, Scripture.sortVerses] at h
    failures := by
      intro id f h
      simp [hall, Library.ofCatalogue, Except.map] at h }
  serverTime := by decide

/-- The hall after its first request. -/
def blanked : Server := opened.reply (.new 0) (asking 6 .toggleBlack)

/-- A subscription, whose answer tells of all surfaces, and a list that breaks off. -/
def watching : List Bytes := [asking 7 (.subscribe .control), Text.toBytes ['[', '7']]

theorem course_blanked :
    Course (start hall explained) [.answered (asking 6 .toggleBlack)] blanked := by
  have hconnect : (start hall explained).connect = some (0, opened) := rfl
  have holds : opened.Holds (.new 0) := ⟨_, rfl, rfl⟩
  have hrequest : request? (asking 6 .toggleBlack) = some ⟨some 6, .toggleBlack⟩ :=
    request?_asking (by decide) trivial rfl
  have heffects : opened.effects (.new 0) (asking 6 .toggleBlack) = [] := by
    simp only [effects, hrequest]
    rfl
  have hreply : Step opened (.answered (asking 6 .toggleBlack) ::
      opened.effects (.new 0) (asking 6 .toggleBlack)) blanked :=
    .reply _ _ holds (by decide +kernel)
  rw [heffects] at hreply
  exact (Step.connect hconnect).course.step hreply

theorem brief_explained : Brief explained := fun _ => by
  have hwords : Json.span "EOF while parsing a list at line 1 column 2" ≤ 4096 := by decide
  exact Nat.le_trans hwords (Nat.le_add_left _ _)

theorem answered_in_room_watching :
    (hall.Within 1000 10 ∧ room 1000 10 ≤ Frame.maxSize ∧ Brief explained ∧
      Course (start hall explained) [.answered (asking 6 .toggleBlack)] blanked ∧
      (∀ p, .answered p ∈ [Happening.answered (asking 6 .toggleBlack)] → p.length ≤ 1000) ∧
      ∀ p ∈ watching, p.length ≤ 1000) ∧
    ∃ c, blanked.find? 0 = some c ∧ c.isOpen = true ∧
      Frame.Divides (c.received ++ watching.flatMap framed) watching [] ∧
      (∀ m ∈ blanked.readOut 0 (watching.flatMap framed), Fits m) ∧
      (∃ d, (blanked.read 0 (watching.flatMap framed)).find? 0 = some d ∧
        Went c (blanked.readOut 0 (watching.flatMap framed)) [] d) ∧
      List.Forall₂ Answers watching
        ((blanked.readOut 0 (watching.flatMap framed)).filterMap answer?) ∧
      ∀ d ∈ (blanked.read 0 (watching.flatMap framed)).connections,
        d.isOpen = true → d.canSend = true := by
  have fits : room 1000 10 ≤ Frame.maxSize := by decide
  have asked : ∀ p, .answered p ∈ [Happening.answered (asking 6 .toggleBlack)] →
      p.length ≤ 1000 := by
    intro p hp
    obtain rfl : p = asking 6 .toggleBlack := by simpa using hp
    decide +kernel
  have short : ∀ p ∈ watching, p.length ≤ 1000 := by decide +kernel
  have hconnection : (blanked.find? 0).map (fun c => (c.isOpen, c.received)) = some (true, []) := by
    decide +kernel
  obtain ⟨c, found, hc⟩ := Option.map_eq_some_iff.mp hconnection
  obtain ⟨isOpen, received⟩ := Prod.mk.inj hc
  have divides : Frame.Divides (c.received ++ watching.flatMap framed) watching [] := by
    rw [received]
    exact Frame.divides_flatMap (by decide +kernel)
  exact ⟨⟨within_hall, fits, brief_explained, course_blanked, asked, short⟩, c, found, isOpen,
    divides, answered_in_room within_hall fits brief_explained course_blanked asked found isOpen
      divides short⟩

end Ipc
end Lectern
