import Lectern.Ipc.Server
import Lectern.Proofs.Wire.Request
import Lectern.Proofs.Wire.Response

/-!
# Messages read back

What the host sends is an event or the answer to a payload. A message is an event exactly if
its document has a field for one, and whoever reads the document gets the event, or the
response and its number, as they were sent. That reading rounds doubles step by step is the
only way for a message to arrive changed.
-/

namespace Lectern

open Json Projection

namespace Response

/-- Whatever numbers it carries, the data of the response can be told from no data and is not
nested too deep. -/
structure Shaped (r : Response) : Prop where
  notNull : r.data ≠ some .null
  shaped : ∀ v, r.data = some v → v.Shaped (maxDepth - 1)

theorem shaped_success {v : Value} {levels : Nat} (notNull : v ≠ .null) (shaped : v.Shaped levels)
    (le : levels ≤ maxDepth - 1) : (success v).Shaped where
  notNull := by simpa [success] using notNull
  shaped w hw := by
    obtain rfl : v = w := by simpa [success] using hw
    exact shaped.mono le

theorem shaped_refused (reason : Reason) : (refused reason).Shaped :=
  ⟨by simp [refused], by simp [refused]⟩

theorem shaped_failure (error : String) : (failure error).Shaped :=
  ⟨by simp [failure], by simp [failure]⟩

theorem shaped_ofOutcome (o : Outcome) : (ofOutcome o).Shaped := by
  unfold ofOutcome
  split
  · exact shaped_refused _
  · exact shaped_success (by simp [Outcome.toJson]) o.shaped_toJson (by decide)

end Response

namespace Host

theorem shaped_surfacesJson (h : Host) : h.surfacesJson.Shaped 3 :=
  (Decoder.reads_list fun (i : SurfaceInfo) _ => i.reads).legible.shaped

theorem shaped_answerNavigated (h : Host)
    (result : Except Failure Navigated × Desk Windows.Registry) :
    (h.answerNavigated result).1.Shaped := by
  obtain ⟨result, desk⟩ := result
  cases result with
  | error e => exact Response.shaped_failure _
  | ok n => exact Response.shaped_success (by simp [Navigated.toJson]) n.shaped_toJson (by decide)

theorem shaped_mergeLive (h : Host) (p : Live.Patch) : (h.mergeLive p).1.Shaped :=
  Response.shaped_success (by simp [Live.State.toJson]) (Live.State.shaped_toJson _) (by decide)

/-- However a command is answered, the data of the response is no null and not too deep. -/
theorem shaped_dispatch (h : Host) (c : Command) : (h.dispatch c).1.Shaped := by
  have hsurfaces (h : Host) : (Response.success h.surfacesJson).Shaped :=
    Response.shaped_success (by simp [surfacesJson]) h.shaped_surfacesJson (by decide)
  have hscreen (s : Screen) : (Response.success s.toJson).Shaped :=
    Response.shaped_success (by simp [Screen.toJson]) s.shaped_toJson (by decide)
  cases c with
  | getState s => exact hscreen _
  | edit | projectItem => exact Response.shaped_ofOutcome _
  | setLink s link =>
    simp only [dispatch]
    split
    · exact hscreen _
    · exact Response.shaped_failure _
  | listSurfaces | openSurface | closeSurface => exact hsurfaces _
  | getLive =>
    exact Response.shaped_success (by simp [Live.State.toJson]) h.desk.live.shaped_toJson
      (by decide)
  | setLive | setTarget | toggle | toggleBlack | toggleWhite | resume | setLocked =>
    exact h.shaped_mergeLive _
  | next | prev | setCursor | goLive => exact h.shaped_answerNavigated _
  | subscribe => exact Response.shaped_failure _
  | ping =>
    have hpong : (Value.object
        [("pong", .bool true), ("serverTime", .text h.serverTime)]).Shaped 1 := by
      simp [Value.Shaped]
    exact Response.shaped_success Value.noConfusion hpong (by decide)

end Host

namespace Ipc

namespace Server

theorem shaped_snapshot (h : Host) (role : Role) : (snapshot h role).Shaped 5 := by
  have hscreens (s : Surface) : (h.desk.screens.get s).toJson.Shaped 3 := Screen.shaped_toJson _
  simp [snapshot, Value.Shaped, Surface.all, Surface.name, hscreens,
    h.desk.live.shaped_toJson.mono, role.reads.legible.shaped.mono, h.shaped_surfacesJson.mono]

/-- The answer to a payload is a response whose number fits and whose data is not too deep. -/
theorem answer_response (s : Server) (c : Connection) (payload : Bytes) :
    ∃ id r, (s.answer c payload).1 = .response id r ∧ (∀ n, id = some n → n < UInt64.size) ∧
      r.Shaped := by
  unfold answer
  have hid {r : Request} (h : request? payload = some r) :
      ∀ n, r.id = some n → n < UInt64.size := by
    obtain ⟨n, -, hn⟩ := Option.bind_eq_some_iff.mp h
    exact (Request.representable_of_decoder hn).id
  split
  · refine ⟨_, _, rfl, ?_, Response.shaped_failure _⟩
    intro n hn
    obtain ⟨_, -, hn⟩ := Option.bind_eq_some_iff.mp hn
    exact Decoder.lt_size_of_nat hn
  · rename_i id role hrequest
    refine ⟨id, _, rfl, hid hrequest, ?_⟩
    exact Response.shaped_success Value.noConfusion (shaped_snapshot _ role) (by decide)
  · rename_i id command _ hrequest
    exact ⟨id, _, rfl, hid hrequest, s.host.shaped_dispatch command⟩

end Server

open Server

/-- What a host can send: events of every kind, and responses with any number of sixty-four bits
and any text of an error, whose data is nested no deeper than readers go. -/
inductive Sent : Message → Prop
  | event (e : Event) : Sent (.event e)
  | response {id : Option Nat} (hid : ∀ n, id = some n → n < UInt64.size) {r : Response}
    (shaped : r.Shaped) : Sent (.response id r)

/-- The answers of a server to payloads are among that. -/
theorem Sent.answer (s : Server) (c : Connection) (payload : Bytes) :
    Sent (s.answer c payload).1 := by
  obtain ⟨id, r, hm, hid, shaped⟩ := s.answer_response c payload
  rw [hm]
  exact .response hid shaped

/-- The numbers of a message survive being written and read. -/
def Survives : Message → Prop
  | .event e => e.Representable
  | .response _ r => ∀ v, r.data = some v → v.Exact

/-- What can be read in the document of a message. -/
structure Discerned (m : Message) (n : Node) : Prop where
  /-- A field for an event tells the kinds of messages apart. -/
  event_iff : (n.field? "event").isSome = true ↔ ∃ e, m = .event e
  event : ∀ e, m = .event e → (n.field? "event").bind (Event.decoder .top) = some e
  response : ∀ id r, m = .response id r → Response.decoder .top n = some r
  id : ∀ id r, m = .response id r → (n.field? "id").bind (Decoder.nat 64 .top) = id
  screen : ∀ id r (s : Screen), m = .response id r → r.data = some s.toJson →
    s.Representable → (n.field? "data").bind (Screen.decoder .top) = some s
  outcome : ∀ id r (o : Outcome), m = .response id r → r.data = some o.toJson →
    o.Representable → (n.field? "data").bind (Outcome.decoder .top) = some o
  live : ∀ id r (s : Live.State), m = .response id r → r.data = some s.toJson →
    s.Representable → (n.field? "data").bind (Live.State.decoder .top) = some s
  navigated : ∀ id r (g : Navigated), m = .response id r → r.data = some g.toJson →
    g.Representable → (n.field? "data").bind (Navigated.decoder .top) = some g
  surfaces : ∀ id r (is : List SurfaceInfo), m = .response id r →
    r.data = some (.list (is.map SurfaceInfo.toJson)) →
    (n.field? "data").bind (Decoder.list SurfaceInfo.decoder .top) = some is

theorem readable?_toBytes {v : Value} (h : (v.toNode.value? maxDepth).isSome = true) :
    readable? (Text.toBytes v.chars) = some v.toNode := by
  rw [readable?, document?, Text.ofBytes?_toBytes, Option.bind_some, Node.read?_chars,
    Option.filter_some, if_pos h]

theorem readable?_chars {v : Value} (h : v.Legible maxDepth) :
    readable? (Text.toBytes v.chars) = some v.toNode := readable?_toBytes (by simp [h.value?])

theorem discerned_event {e : Event} (h : e.Representable) :
    Discerned (.event e) (Message.toJson (.event e)).toNode := by
  have hfield : (Message.toJson (.event e)).toNode.field? "event" = some e.toJson.toNode :=
    Node.field?_toNode "event" (by simp)
  constructor
  case event_iff => simp [hfield]
  case event =>
    rintro _ ⟨⟩
    rw [hfield, Option.bind_some]
    exact h.reads.reads .top (Access.room_top (by decide))
  all_goals
    intros
    contradiction

theorem field?_response (r : Response) (id : Option Nat) (name : String) :
    (Message.toJson (.response id r)).toNode.field? name =
      ((r.fields id).lookup name).map Value.toNode :=
  Node.field?_toNode name (Decoder.nodup_of_sorted (r.sorted_fields id))

theorem id_response (r : Response) {id : Option Nat} (hid : ∀ n, id = some n → n < UInt64.size) :
    ((Message.toJson (.response id r)).toNode.field? "id").bind (Decoder.nat 64 .top) = id := by
  rw [field?_response, r.lookup_id]
  cases id with
  | none => rfl
  | some n => exact Decoder.nat_toNode .top (hid n rfl)

theorem discerned_response {r : Response} (h : r.Representable) {id : Option Nat}
    (hid : ∀ n, id = some n → n < UInt64.size) :
    Discerned (.response id r) (Message.toJson (.response id r)).toNode := by
  -- Whatever reads the value of the data reads it in the document.
  have hdata {α : Type} {d : Decoder α} {levels : Nat} {v : Value} {x : α} (hv : r.data = some v)
      (reads : d.Reads levels v x) (le : levels ≤ maxDepth) :
      ((Message.toJson (.response id r)).toNode.field? "data").bind (d .top) = some x := by
    rw [field?_response, r.lookup_data, hv]
    exact reads.reads .top (Access.room_top le)
  constructor
  case event_iff => simp [field?_response, r.lookup_event]
  case event =>
    intros
    contradiction
  case response =>
    rintro _ _ ⟨⟩
    exact Response.decoder_fields h id
  case id =>
    rintro _ _ ⟨⟩
    exact id_response r hid
  case screen =>
    rintro _ _ s ⟨⟩ hv hs
    exact hdata hv hs.reads (by decide)
  case outcome =>
    rintro _ _ o ⟨⟩ hv ho
    exact hdata hv ho.reads (by decide)
  case live =>
    rintro _ _ s ⟨⟩ hv hs
    exact hdata hv hs.reads (by decide)
  case navigated =>
    rintro _ _ g ⟨⟩ hv hg
    exact hdata hv hg.reads (by decide)
  case surfaces =>
    rintro _ _ is ⟨⟩ hv
    exact hdata hv (Decoder.reads_list fun i _ => i.reads) (by decide)

/-- A message of the host arrives as it was sent if its numbers survive. -/
theorem Sent.discerned {m : Message} (sent : Sent m) (survives : Survives m) :
    ∃ n, readable? (Text.toBytes m.toJson.chars) = some n ∧ Discerned m n := by
  cases sent with
  | event e =>
    have hlegible : (Message.toJson (.event e)).Legible 5 :=
      Value.legible_object (by simp) (by simpa using (Event.Representable.reads survives).legible)
    exact ⟨_, readable?_chars (hlegible.mono (by decide)), discerned_event survives⟩
  | @response id hid r shaped =>
    have hr : r.Representable := ⟨shaped.notNull, fun v hv => ⟨shaped.shaped v hv, survives v hv⟩⟩
    have hlegible : (Message.toJson (.response id r)).Legible (maxDepth - 1 + 1) :=
      Value.legible_object (r.sorted_fields id) (r.legible_fields hr hid)
    exact ⟨_, readable?_chars hlegible, discerned_response hr hid⟩

/-- Surface A has been scaled, by a number that is read as its second neighbour. -/
def drifting : Event :=
  .screen .a ⟨{ Display.default with textScale := .ofDecimal false 18773613707187997 (-16) }, 0⟩

theorem drifting_not_discerned :
    (∀ s screen, drifting = .screen s screen → screen.display.textScale.isFinite = true) ∧
      ¬ ∃ n, readable? (Text.toBytes (Message.toJson (.event drifting)).chars) = some n ∧
        (n.field? "event").bind (Event.decoder .top) = some drifting := by
  have changed : ((Node.read? (Message.toJson (.event drifting)).chars).bind fun n =>
      (n.field? "event").bind (Event.decoder .top)) ≠ some drifting := by decide +kernel
  refine ⟨?_, ?_⟩
  · rintro s screen ⟨⟩
    decide +kernel
  · rintro ⟨n, hn, hread⟩
    obtain ⟨hn, -⟩ := Option.filter_eq_some_iff.mp hn
    have hdocument : Node.read? (Message.toJson (.event drifting)).chars = some n := by
      simpa [document?] using hn
    exact changed (by rw [hdocument, Option.bind_some, hread])

/-- Surface B has been scaled by one and a half. -/
def scaled : Event :=
  .screen .b ⟨{ Display.default with textScale := .ofDecimal false 15 (-1) }, 12⟩

theorem discerned_scaled :
    Sent (.event scaled) ∧ Survives (.event scaled) ∧
      ∃ n, readable? (Text.toBytes (Message.toJson (.event scaled)).chars) = some n ∧
        Discerned (.event scaled) n := by
  have survives : Survives (.event scaled) := ⟨by decide +kernel, by decide +kernel⟩
  exact ⟨.event scaled, survives, (Sent.event scaled).discerned survives⟩

end Ipc
end Lectern
