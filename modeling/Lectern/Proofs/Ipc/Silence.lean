import Lectern.Proofs.Ipc.Overflow

/-!
# Silence

Nothing more is sent on a connection after a message that does not fit in a frame. An event
that is too large therefore keeps a client from the answers to its next requests, however
small they are. What one client writes can silence another one that way.
-/

namespace Lectern
namespace Ipc

open Json Projection Windows

namespace Server

variable {s : Server} {c d : Connection} {k : ConnectionId} {payload : Bytes}

theorem update_update (s : Server) (k : ConnectionId) {first second : Connection → Connection}
    (keeps : ∀ c, (first c).id = c.id) :
    (s.update k first).update k second = s.update k fun c => second (first c) := by
  simp only [update, List.map_map]
  refine congrArg (fun connections => { s with connections }) (List.map_congr_left fun c _ => ?_)
  by_cases hc : c.id = k
  · simp [hc, keeps]
  · simp [hc]

/-- A frame has come on a connection, and a new stint begins. -/
def reached (s : Server) (k : ConnectionId) (payload : Bytes) : Server :=
  s.update k fun c => { c with received := framed payload, readsLeft := Connection.stint }

/-- The frame has been read, and the payload waits for its answer. -/
def attentive (s : Server) (k : ConnectionId) : Server :=
  s.update k fun c => { c with received := [], readsLeft := Connection.stint - 2 }

theorem advance_reached (s : Server) (c : Connection) (reads : Frame.reads c.received = 2)
    (stint : c.readsLeft = Connection.stint) :
    (s.reached c.id payload).advance c [] = s.attentive c.id := by
  have hreads : 2 ≤ Connection.stint := by decide
  rw [advance, spend, reads, stint, if_pos hreads, reached,
    update_update s c.id (fun _ => by rfl), update_update s c.id (fun _ => by rfl)]
  rfl

/-- A frame that comes whole is read within the stint, and nothing goes out before its answer. -/
theorem read_framed (found : s.find? k = some c) (isOpen : c.isOpen = true)
    (fresh : c.received = []) (short : payload.length ≤ Frame.maxSize) (nonempty : payload ≠ []) :
    ∃ fuel, s.read k (framed payload) = work k (fuel + 1) ((s.attentive k).handle
        { c with received := [], readsLeft := Connection.stint } payload) ∧
      s.readOut k (framed payload) = (s.attentive k).answering
          { c with received := [], readsLeft := Connection.stint } payload ++
        putOut k (fuel + 1) ((s.attentive k).handle
          { c with received := [], readsLeft := Connection.stint } payload) := by
  obtain rfl := id_of_find? found
  have hstart := Frame.start_framed_nil short
  have hreads : Frame.reads (framed payload) = 2 := by
    simp [Frame.reads, hstart, nonempty]
  obtain ⟨fuel, hfuel⟩ : ∃ fuel, (framed payload).length = fuel + 1 :=
    Nat.exists_eq_add_one.mpr (by simpa using Frame.length_lt_of_start hstart)
  have hread : s.read c.id (framed payload) = work c.id (fuel + 2) (s.reached c.id payload) := by
    simp only [Server.read, found, isOpen, if_true, fresh, List.nil_append, hfuel]
    rfl
  have hout : s.readOut c.id (framed payload) =
      putOut c.id (fuel + 2) (s.reached c.id payload) := by
    simp only [readOut, found, isOpen, if_true, fresh, List.nil_append, hfuel]
    rfl
  have hfound : (s.reached c.id payload).find? c.id =
      some { c with received := framed payload, readsLeft := Connection.stint } :=
    find?_update_self (fun _ => rfl) found
  -- The connection as it is now gets a name of its own, and so its fields need not be computed.
  obtain ⟨d, hd, id, received, stint, hempty⟩ : ∃ d,
      (s.reached c.id payload).find? c.id = some d ∧ d.id = c.id ∧ d.received = framed payload ∧
      d.readsLeft = Connection.stint ∧
      { d with received := [] } = { c with received := [], readsLeft := Connection.stint } :=
    ⟨_, hfound, rfl, rfl, rfl, rfl⟩
  have hpausing : (s.reached c.id payload).pausing d = [] := by
    simp [pausing, received, stint, hreads, Connection.stint]
  have hadvance : (s.reached d.id payload).advance d [] = s.attentive d.id :=
    advance_reached s d (received ▸ hreads) stint
  rw [id] at hadvance
  rw [← id] at hd
  have hwork := work_of_frame hd (received ▸ hstart) (fuel + 1)
  have hput := putOut_of_frame hd (received ▸ hstart) (fuel + 1)
  rw [hempty, id, hadvance] at hwork hput
  rw [hpausing, List.nil_append] at hput
  exact ⟨fuel, hread.trans hwork, hout.trans hput⟩

/-- The payload that comes when nothing can be sent any more is the last one: it is answered, and
the answer is not sent. -/
theorem read_of_mute (found : s.find? k = some c) (isOpen : c.isOpen = true)
    (mute : c.canSend = false) (fresh : c.received = [])
    (short : payload.length ≤ Frame.maxSize) (nonempty : payload ≠ []) :
    (∃ d, (s.read k (framed payload)).find? k = some d ∧ d.isOpen = false ∧
      d.canSend = false ∧ d.sent = c.sent) ∧
    (s.readOut k (framed payload)).filterMap answer? =
      [((s.attentive k).answer { c with received := [], readsLeft := Connection.stint }
        payload).1].filterMap answer? := by
  obtain ⟨fuel, hread, hout⟩ := read_framed found isOpen fresh short nonempty
  obtain rfl := id_of_find? found
  have hfound : (s.attentive c.id).find? c.id =
      some { c with received := [], readsLeft := Connection.stint - 2 } :=
    find?_update_self (fun _ => rfl) found
  obtain ⟨e, he, hclosed, hcan, hempty, hsent⟩ := @handle_of_mute (s.attentive c.id)
    { c with received := [], readsLeft := Connection.stint - 2 }
    { c with received := [], readsLeft := Connection.stint } payload hfound isOpen mute mute
  have hpartial : Frame.Partial e.received := hempty ▸ Frame.partial_nil
  obtain ⟨n, hspend⟩ := find?_spend he
  rw [Connection.sendAll_of_mute hcan] at hspend
  refine ⟨⟨{ e with readsLeft := n }, ?_, hclosed, hcan, hsent⟩, ?_⟩
  · rw [hread, work_of_partial he hpartial, hspend]
  · rw [hout, putOut_of_partial he hpartial, answering]
    simp only [List.filterMap_append, answer?_reading, answer?_pausing, List.nil_append,
      List.append_nil]

theorem asking_ne_nil (id : Nat) (command : Command) : asking id command ≠ [] := by
  intro h
  have hback := Text.ofBytes?_toBytes (Request.toJson ⟨some id, command⟩).chars
  have hchars := Value.length_lt_onto (Request.toJson ⟨some id, command⟩) []
  rw [show Text.toBytes (Request.toJson ⟨some id, command⟩).chars = [] from h] at hback
  have hnil : [] = (Request.toJson ⟨some id, command⟩).chars := Option.some.inj hback
  rw [Value.chars] at hnil
  simp [← hnil] at hchars

theorem need_screen (body : String) :
    span body + 120 < (Message.toJson (.event (.screen .a (written body)))).need := by
  have hjson : Message.toJson (.event (.screen .a (written body))) = .object [
      ("event", .object [("state", (written body).toJson), ("surface", .text "A"),
        ("type", .text "surface-state-changed")])] := rfl
  have hwritten := need_written body
  have keys : Json.span "state" + Json.span "surface" = 12 := by decide
  simp only [hjson, Value.need, Value.fieldsNeed]
  omega

/-- The hall once a control window has subscribed. -/
def watched : Host := { hall with desk := (hall.desk.subscribe .control).2 }

/-- A server that has two connections. -/
def pair (h : Host) (c d : Connection) : Server := ⟨h, [c, d], 2, true, explained⟩

/-- The second connection, once it is that of a control window. -/
def window (sent : Bytes) (can : Bool) (n : Nat) : Connection :=
  ⟨1, some (1, .control), [], sent, can, true, n⟩

/-- The answer to the subscription. -/
def welcome : Response := .success (snapshot watched .control)

/-- The bytes of that answer. -/
def welcoming : Bytes := frame (.response (some 1) welcome)

theorem fits_welcome : Fits (.response (some 1) welcome) := fits_of_length (by decide +kernel)

variable {h : Host} {id : Option Nat} {command : Command} {sent : Bytes} {n : Nat}

theorem update_first (first : c.id = 0) (second : d.id = 1) (change : Connection → Connection) :
    (pair h c d).update 0 change = pair h (change c) d := by
  simp [pair, update, first, second]

theorem update_second (first : c.id = 0) (second : d.id = 1) (change : Connection → Connection) :
    (pair h c d).update 1 change = pair h c (change d) := by
  simp [pair, update, first, second]

theorem find?_second (first : c.id = 0) (second : d.id = 1) :
    (pair h c d).find? 1 = some d := by
  simp [pair, find?, first, second]

theorem send_window {m : Message} (fits : Fits m) (sent : Bytes) (n : Nat) :
    (window sent true n).send m = window (sent ++ frame m) true n :=
  Connection.send_of_fits rfl fits

/-- A control window subscribes, and is answered. -/
theorem receive_subscribe (request : request? payload = some ⟨some 1, .subscribe .control⟩)
    (short : payload.length ≤ Frame.maxSize) (nonempty : payload ≠ []) :
    (pair hall (.new 0) (.new 1)).receive 1 (framed payload) =
        pair watched (.new 0) (window welcoming true (Connection.stint - 3)) ∧
      (pair hall (.new 0) (.new 1)).readOut 1 (framed payload) =
        [.response (some 1) welcome] := by
  have can : (Connection.new 1).canSend = true := rfl
  obtain ⟨s, hs⟩ : ∃ s, s = (pair hall (.new 0) (.new 1)).attentive 1 := ⟨_, rfl⟩
  obtain ⟨fuel, hread, hout⟩ : ∃ fuel,
      (pair hall (.new 0) (.new 1)).read 1 (framed payload) =
        work 1 (fuel + 1) (s.handle (.new 1) payload) ∧
      (pair hall (.new 0) (.new 1)).readOut 1 (framed payload) =
        s.answering (.new 1) payload ++ putOut 1 (fuel + 1) (s.handle (.new 1) payload) :=
    hs ▸ read_framed (c := .new 1) rfl rfl rfl short nonempty
  have hanswer : s.answer (.new 1) payload =
      (.response (some 1) welcome, pair watched (.new 0) (window [] true (Connection.stint - 2))) :=
    hs ▸ answer_of_subscribe ((pair hall (.new 0) (.new 1)).attentive 1) (.new 1) request
  have hanswering : s.answering (.new 1) payload = [.response (some 1) welcome] := by
    simp only [answering, reading, request, hanswer]
    rfl
  have hhandle : s.handle (.new 1) payload =
      pair watched (.new 0) (window welcoming true (Connection.stint - 2)) := by
    rw [handle_of_canSend can, reply, hanswer]
    refine (update_second rfl rfl _).trans ?_
    rw [send_window fits_welcome, List.nil_append, welcoming]
  have hforward (sent : Bytes) :
      ((pair watched (.new 0) (window sent true (Connection.stint - 2))).spend
        (window sent true (Connection.stint - 2)) (Frame.reads [])).forwardAll =
      pair watched (.new 0) (window sent true (Connection.stint - 3)) := rfl
  have hfound : (pair watched (.new 0) (window welcoming true (Connection.stint - 2))).find? 1 =
      some (window welcoming true (Connection.stint - 2)) := find?_second rfl rfl
  rw [hhandle, work_of_partial hfound Frame.partial_nil] at hread
  rw [hhandle, hanswering, putOut_of_partial hfound Frame.partial_nil] at hout
  refine ⟨?_, hout⟩
  rw [receive, hread]
  exact hforward welcoming

/-- What waits for the window goes out; behind what does not fit nothing more goes out. -/
theorem forwardAll_pair {e : Event} {rest : List Event} (first : c.id = 0)
    (quiet : c.subscription = none) (queue : h.desk.hub.queue 1 = e :: rest)
    (large : ¬ Fits (.event e)) :
    ∃ hub, (pair h c (window sent true n)).forwardAll =
      pair { h with desk := { h.desk with hub } } c (window sent false n) := by
  have hfirst : (pair h c (window sent true n)).forward c = pair h c (window sent true n) := by
    simp [forward, forwardFirst, quiet]
  have hforward : (pair h c (window sent true n)).forwardAll =
      ((pair h c (window sent true n)).forward c).forward (window sent true n) := rfl
  have htake : (h.desk.hub.take 1 ((window sent true n).waiting h.desk)).1 = e :: rest := by
    simp [Hub.take, Connection.waiting, window, queue]
  have hsend : (window sent true n).sendAll ((e :: rest).map .event) = window sent false n :=
    Connection.sendAll_of_not_fits rfl large (rest.map .event)
  refine ⟨(h.desk.hub.take 1 ((window sent true n).waiting h.desk)).2, ?_⟩
  rw [← hsend, ← Connection.foldl_send, ← htake, hforward, hfirst]
  exact update_second (h := { h with desk := { h.desk with
    hub := (h.desk.hub.take 1 ((window sent true n).waiting h.desk)).2 } })
    (d := window sent true n) first rfl _

/-- A client that has an event announced which is too large silences the control window. -/
theorem receive_silencing {e : Event} {rest : List Event}
    (request : request? payload = some ⟨id, command⟩) (answered : ∀ role, command ≠ .subscribe role)
    (still : h.deskAtReading command = none)
    (queue : (h.dispatch command).2.desk.hub.queue 1 = e :: rest) (large : ¬ Fits (.event e))
    (short : payload.length ≤ Frame.maxSize) (nonempty : payload ≠ []) (sent : Bytes) (n : Nat) :
    ∃ c g, c.id = 0 ∧ g.desk.live = (h.dispatch command).2.desk.live ∧
      (pair h (.new 0) (window sent true n)).receive 0 (framed payload) =
        pair g c (window sent false n) := by
  have can : (Connection.new 0).canSend = true := rfl
  obtain ⟨s, hs⟩ : ∃ s, s = (pair h (.new 0) (window sent true n)).attentive 0 := ⟨_, rfl⟩
  obtain ⟨fuel, hread, -⟩ : ∃ fuel,
      (pair h (.new 0) (window sent true n)).read 0 (framed payload) =
        work 0 (fuel + 1) (s.handle (.new 0) payload) ∧
      (pair h (.new 0) (window sent true n)).readOut 0 (framed payload) =
        s.answering (.new 0) payload ++ putOut 0 (fuel + 1) (s.handle (.new 0) payload) :=
    hs ▸ read_framed (c := .new 0) rfl rfl rfl short nonempty
  have hstill : s.host.deskAtReading command = none := hs ▸ still
  have hanswer : s.answer (.new 0) payload = (.response id (h.dispatch command).1,
      pair (h.dispatch command).2 { Connection.new 0 with readsLeft := Connection.stint - 2 }
        (window sent true n)) := by
    rw [answer_of_request _ _ request answered, hstill, hs]
    rfl
  -- Whether the client gets its own answer does not matter.
  obtain ⟨c, hc, client⟩ : ∃ c,
      Connection.send { Connection.new 0 with readsLeft := Connection.stint - 2 }
        (.response id (h.dispatch command).1) = c ∧
      ∃ sent can, c = ⟨0, none, [], sent, can, true, Connection.stint - 2⟩ :=
    ⟨_, rfl, _, _, Connection.send_eq _ _⟩
  have hhandle : s.handle (.new 0) payload =
      pair (h.dispatch command).2 c (window sent true n) := by
    rw [handle_of_canSend can, reply, hanswer, ← hc]
    exact update_first rfl rfl _
  obtain ⟨own, mute, rfl⟩ := client
  obtain ⟨hub, hforward⟩ : ∃ hub, (pair (h.dispatch command).2
        ⟨0, none, [], own, mute, true, Connection.stint - 3⟩ (window sent true n)).forwardAll =
      pair { (h.dispatch command).2 with desk := { (h.dispatch command).2.desk with hub } }
        ⟨0, none, [], own, mute, true, Connection.stint - 3⟩ (window sent false n) :=
    forwardAll_pair rfl rfl queue large
  have hfound : (pair (h.dispatch command).2 ⟨0, none, [], own, mute, true, Connection.stint - 2⟩
      (window sent true n)).find? 0 =
      some ⟨0, none, [], own, mute, true, Connection.stint - 2⟩ := rfl
  refine ⟨⟨0, none, [], own, mute, true, Connection.stint - 3⟩,
    { (h.dispatch command).2 with desk := { (h.dispatch command).2.desk with hub } }, rfl, rfl, ?_⟩
  rw [receive, hread, hhandle, work_of_partial hfound Frame.partial_nil]
  exact hforward

/-- Two payloads come on one connection, and one on the other connection between them. -/
def exchange (p q r : Bytes) : List Move :=
  [.receive 1 (framed p), .receive 0 (framed q), .receive 1 (framed r)]

theorem run_exchange (s : Server) (p q r : Bytes) : s.run (exchange p q r) =
    (((s.receive 1 (framed p)).receive 0 (framed q)).read 1 (framed r)).forwardAll := rfl

theorem run_connect_connect (moves : List Move) :
    (start hall explained).run (.connect :: .connect :: moves) =
      (pair hall (.new 0) (.new 1)).run moves := rfl

/-- What goes out on a connection when two payloads come on it, and one on another connection. -/
theorem Session.exchange (s : Server) (p q r : Bytes) :
    ∃ es fs : List Event, Session 1 s
      (s.readOut 1 (framed p) ++ es.map .event ++
        ((s.receive 1 (framed p)).receive 0 (framed q)).readOut 1 (framed r) ++ fs.map .event)
      ([p, r].flatMap framed) (s.takings 1 (exchange p q r)) (s.run (exchange p q r)) := by
  have hother : Aside 1 (s.receive 1 (framed p))
      ((s.receive 1 (framed p)).receive 0 (framed q)) :=
    (aside_read (by decide) _ _).trans (aside_forwardAll 1 _)
  obtain ⟨es, hes⟩ := (aside_forwardAll 1 (s.read 1 (framed p))).trans hother
  obtain ⟨fs, hfs⟩ :=
    aside_forwardAll 1 (((s.receive 1 (framed p)).receive 0 (framed q)).read 1 (framed r))
  have session := (((Session.start (k := 1) (s := s)).read (framed p)).aside es hes).read (framed r)
    |>.aside fs hfs
  have hbytes : [p, r].flatMap framed = [] ++ framed p ++ framed r := by simp
  rw [List.nil_append] at session
  rw [hbytes]
  exact ⟨es, fs, session⟩

theorem dispatch_getLive (h : Host) (c d : Connection) :
    (((pair h c d).attentive 1).host.dispatch .getLive).1 = .success h.desk.live.toJson := rfl

theorem dispatch_watched (body : String) :
    (watched.dispatch (showing body)).2.desk.hub.queue 1 = [.screen .a (written body)] ∧
      (watched.dispatch (showing body)).2.desk.live = watched.desk.live := ⟨rfl, rfl⟩

/-- A control window subscribes on the second of two connections, a text comes on the first one,
and the window asks again. Both its answers fit in frames, but the announcement of the text does
not, and behind it the second answer is not sent. -/
theorem unanswered :
    ∃ s moves, s = pair hall (.new 0) (.new 1) ∧
      moves = exchange (asking 1 (.subscribe .control)) (asking 1 (showing fillingText))
        (asking 2 .getLive) ∧
      (∀ p ∈ [asking 1 (.subscribe .control), asking 1 (showing fillingText), asking 2 .getLive],
        p.length ≤ Frame.maxSize) ∧
      (start hall explained).run [.connect, .connect] = s ∧ s.find? 1 = some (.new 1) ∧
      (∃ record, Course (start hall explained) record (s.run moves)) ∧
      ∃ ms d first second,
        Session 1 s ms ([asking 1 (.subscribe .control), asking 2 .getLive].flatMap framed)
          (s.takings 1 moves) (s.run moves) ∧
        ms.filterMap answer? = [(some 1, first), (some 2, second)] ∧
        Fits (.response (some 1) first) ∧ Fits (.response (some 2) second) ∧
        (s.run moves).find? 1 = some d ∧ d.isOpen = false ∧
        d.sent = frame (.response (some 1) first) := by
  have shortp : (asking 1 (.subscribe .control)).length ≤ Frame.maxSize := by decide +kernel
  have shortq : (asking 1 (showing fillingText)).length ≤ Frame.maxSize := by
    have hlength := length_asking_le fillingText
    have hspan := span_fillingText
    omega
  have shortr : (asking 2 .getLive).length ≤ Frame.maxSize := by decide +kernel
  have hsubscribe : request? (asking 1 (.subscribe .control)) =
      some ⟨some 1, .subscribe .control⟩ := request?_asking (by decide) trivial rfl
  have hlook : request? (asking 2 .getLive) = some ⟨some 2, .getLive⟩ :=
    request?_asking (by decide) trivial rfl
  have large : ¬ Fits (.event (.screen .a (written fillingText))) :=
    not_fits_of_need (Nat.lt_of_le_of_lt (Nat.le_of_eq span_fillingText.symm) (need_screen _))
  have hsecond : Fits (.response (some 2) (.success watched.desk.live.toJson)) :=
    fits_of_length (by decide +kernel)
  refine ⟨_, _, rfl, rfl, by simp [shortp, shortq, shortr], rfl, rfl, ?_, ?_⟩
  · obtain ⟨record, course⟩ := goes_run (distinct_start hall explained)
      (.connect :: .connect :: exchange (asking 1 (.subscribe .control))
        (asking 1 (showing fillingText)) (asking 2 .getLive))
    rw [run_connect_connect] at course
    exact ⟨record, course⟩
  · obtain ⟨hqueue, hlive⟩ := dispatch_watched fillingText
    obtain ⟨hbegun, hwelcome⟩ := receive_subscribe hsubscribe shortp (asking_ne_nil _ _)
    obtain ⟨c, g, first, hkept, hsilence⟩ := receive_silencing (request?_showing fillingText)
      (by simp [showing]) (still_showing watched fillingText) hqueue large shortq
      (asking_ne_nil _ _) welcoming (Connection.stint - 3)
    rw [← hbegun] at hsilence
    -- Nothing can be sent to the window any more when it asks again.
    have found : (pair g c (window welcoming false (Connection.stint - 3))).find? 1 =
        some (window welcoming false (Connection.stint - 3)) := find?_second first rfl
    obtain ⟨⟨d, hd, hclosed, hmute, hsent⟩, hlast⟩ :=
      read_of_mute found rfl rfl rfl shortr (asking_ne_nil 2 .getLive)
    rw [answer_of_request _ _ hlook (by simp), dispatch_getLive, hkept, hlive] at hlast
    rw [← hsilence] at hd hlast
    obtain ⟨es, fs, session⟩ := Session.exchange (pair hall (.new 0) (.new 1))
      (asking 1 (.subscribe .control)) (asking 1 (showing fillingText)) (asking 2 .getLive)
    obtain ⟨gs, told⟩ := aside_forwardAll 1 ((((pair hall (.new 0) (.new 1)).receive 1
      (framed (asking 1 (.subscribe .control)))).receive 0
        (framed (asking 1 (showing fillingText)))).read 1 (framed (asking 2 .getLive)))
    have hend := told d hd
    simp only [window] at hsent
    rw [Connection.sendAll_of_mute hmute, ← run_exchange] at hend
    refine ⟨_, d, welcome, .success watched.desk.live.toJson, session, ?_, fits_welcome, hsecond,
      hend, hclosed, hsent⟩
    rw [List.filterMap_append, List.filterMap_append, List.filterMap_append, answer?_events,
      answer?_events, hwelcome, hlast]
    rfl

end Server
end Ipc
end Lectern
