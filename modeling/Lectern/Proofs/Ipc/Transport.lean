import Lectern.Ipc.Client
import Lectern.Proofs.Ipc.Connections
import Lectern.Proofs.Ipc.Message

/-!
# Commands sent to the host

A client that sends its commands one after another over one connection gets the responses
that the host gives when the commands are carried out on it directly, and the host is left
as it is left then.
-/

namespace Lectern

/-- Carries commands out one after another. -/
def Host.dispatchAll (h : Host) : List Command → List Response × Host
  | [] => ([], h)
  | command :: rest =>
    let (response, h) := h.dispatch command
    let (responses, h) := h.dispatchAll rest
    (response :: responses, h)

namespace Ipc

open Json

namespace Server

variable (explain : Bytes → String) (h : Host) (received sent : Bytes) (n : Nat)

/-- The only connection of a server, without a subscription. -/
def line (received sent : Bytes) (n : Nat) : Connection := ⟨0, none, received, sent, true, true, n⟩

/-- A server that has one connection, which observes nothing. -/
def single (explain : Bytes → String) (h : Host) (received sent : Bytes) (n : Nat) : Server :=
  ⟨h, [line received sent n], 1, true, explain⟩

@[simp] theorem find?_single :
    (single explain h received sent n).find? 0 = some (line received sent n) :=
  rfl

theorem spend_single (reads : Nat) :
    ∃ m, (single explain h received sent n).spend (line received sent n) reads =
      single explain h received sent m := by
  unfold spend
  split
  · exact ⟨_, rfl⟩
  · exact ⟨_, rfl⟩

theorem pauseForReading_single (m : Nat) (reading : Option (Desk Windows.Registry)) :
    ∃ l, (single explain h received sent n).pauseForReading (line received sent m) reading =
      single explain h received sent l := by
  cases reading with
  | none => exact ⟨_, rfl⟩
  | some desk => exact ⟨_, rfl⟩

theorem update_send_single {m : Message} (fits : Fits m) :
    ((single explain h received sent n).update 0 fun c => c.send m) =
      single explain h received (sent ++ frame m) n := by
  have hsend : (line received sent n).send m = line received (sent ++ frame m) n :=
    Connection.send_of_fits rfl fits
  exact congrArg (fun c => (⟨h, [c], 1, true, explain⟩ : Server)) hsend

/-- A frame at the front of what has come is answered. -/
theorem work_frame {payload rest : Bytes} {id : Option Nat} {command : Command}
    (front : Frame.start received = .frame payload rest)
    (request : request? payload = some ⟨id, command⟩)
    (answered : ∀ role, command ≠ .subscribe role)
    (fits : Fits (.response id (h.dispatch command).1)) (fuel : Nat) :
    ∃ m, work 0 (fuel + 1) (single explain h received sent n) =
      work 0 fuel (single explain (h.dispatch command).2 rest
        (sent ++ frame (.response id (h.dispatch command).1)) m) := by
  obtain ⟨l, hspend⟩ := spend_single explain h received sent n (Frame.reads received)
  obtain ⟨m, hpause⟩ := pauseForReading_single explain (h.dispatch command).2 rest sent l n
    (h.deskAtReading command)
  have hanswer : (single explain h rest sent l).answer (line rest sent n) payload =
      (.response id (h.dispatch command).1, single explain (h.dispatch command).2 rest sent m) := by
    rw [answer_of_request _ _ request answered]
    exact congrArg _ hpause
  have hhandle : (single explain h rest sent l).handle (line rest sent n) payload =
      single explain (h.dispatch command).2 rest
        (sent ++ frame (.response id (h.dispatch command).1)) m := by
    simp only [handle, hanswer]
    exact update_send_single _ _ _ _ _ fits
  refine ⟨m, ?_⟩
  simp only [work, find?_single]
  rw [show (line received sent n).received = received from rfl, hspend, front]
  exact congrArg (work 0 fuel) hhandle

theorem work_end (front : Frame.start received = .partialHeader) (fuel : Nat) :
    ∃ m, work 0 (fuel + 1) (single explain h received sent n) =
      single explain h received sent m := by
  obtain ⟨m, hspend⟩ := spend_single explain h received sent n (Frame.reads received)
  refine ⟨m, ?_⟩
  simp only [work, find?_single]
  rw [show (line received sent n).received = received from rfl, hspend, front]

/-- A request in a frame is answered in a frame. -/
theorem receive_single {payload bytes : Bytes} {id : Option Nat} {command : Command}
    (write : Frame.write payload = .ok bytes) (request : request? payload = some ⟨id, command⟩)
    (answered : ∀ role, command ≠ .subscribe role)
    (fits : Fits (.response id (h.dispatch command).1)) :
    ∃ m, (single explain h [] [] n).receive 0 bytes =
      single explain (h.dispatch command).2 [] (frame (.response id (h.dispatch command).1)) m := by
  have hstart : Frame.start bytes = .frame payload [] := by
    simpa using Frame.start_append_of_write write []
  obtain ⟨fuel, hfuel⟩ : ∃ fuel, bytes.length = fuel + 1 :=
    Nat.exists_eq_add_one.mpr (by simpa using Frame.length_lt_of_start hstart)
  obtain ⟨l, hframe⟩ :=
    work_frame explain h bytes [] Connection.stint hstart request answered fits (fuel + 1)
  obtain ⟨m, hend⟩ := work_end explain (h.dispatch command).2 []
    ([] ++ frame (.response id (h.dispatch command).1)) l rfl fuel
  have hread : (single explain h [] [] n).read 0 bytes =
      work 0 (bytes.length + 1) (single explain h bytes [] Connection.stint) := rfl
  refine ⟨m, ?_⟩
  rw [receive, hread, hfuel, hframe, hend]
  rfl

end Server

namespace Client

open Server

variable (explain : Bytes → String) {h : Host} {n : Nat}

/-- A client that has read all it was sent, on the only connection of a server. -/
def ready (id : Nat) : Client := ⟨0, id, [], [], false⟩

/-- A request and its answer over the only connection, whatever the two sides make of each
other's frames. -/
theorem request_single {id : Nat} {command heard : Command} {answer : Message} {r : Response}
    (hid : id < UInt64.size) (hanswer : answer = .response (some id) (h.dispatch heard).1)
    (sendable : ∃ bytes, Frame.ofValue (Request.toJson ⟨some id, command⟩) = .ok bytes)
    (understood : decode? Request.decoder (Request.toJson ⟨some id, command⟩).chars =
      some ⟨some id, heard⟩)
    (answered : ∀ role, heard ≠ .subscribe role) (fits : Fits answer)
    (readable : (answer.toJson.toNode.value? maxDepth).isSome = true)
    (read : Response.decoder .top answer.toJson.toNode = some r) :
    ∃ m, (ready id).request (single explain h [] [] n) command =
      (.ok r, ready (id + 1), single explain (h.dispatch heard).2 [] [] m) := by
  subst hanswer
  obtain ⟨bytes, hbytes⟩ := sendable
  obtain ⟨answer, hanswer⟩ := fits
  have hrequest : request? (Text.toBytes (Request.toJson ⟨some id, command⟩).chars) =
      some ⟨some id, heard⟩ := by
    simpa [request?, document?, decode?] using understood
  obtain ⟨m, hreceive⟩ := receive_single explain h n hbytes hrequest answered ⟨answer, hanswer⟩
  have hframe : frame (.response (some id) (h.dispatch heard).1) = answer := by
    simp [frame, hanswer]
  rw [hframe] at hreceive
  have hstart : Frame.start answer = .frame (Text.toBytes
      (Message.toJson (.response (some id) (h.dispatch heard).1)).chars) [] := by
    simpa using Frame.start_append_of_write hanswer []
  have hcollect : Client.collect ⟨0, id + 1, [], [], false⟩
      ((single explain h [] [] n).receive 0 bytes) =
      (⟨0, id + 1, [], answer, false⟩, single explain (h.dispatch heard).2 [] [] m) := by
    rw [hreceive]
    rfl
  have hincoming : incoming (Text.toBytes
      (Message.toJson (.response (some id) (h.dispatch heard).1)).chars) =
      .ok (.other (Message.toJson (.response (some id) (h.dispatch heard).1)).toNode) := by
    have hevent := field?_response (h.dispatch heard).1 (some id) "event"
    rw [Response.lookup_event, Option.map_none] at hevent
    simp only [incoming, readable?_toBytes readable, hevent]
  have hnext : Client.next? ⟨0, id + 1, [], answer, false⟩ =
      some (.ok (.other (Message.toJson (.response (some id) (h.dispatch heard).1)).toNode),
        ready (id + 1)) := by
    simp only [next?, hstart, hincoming]
    rfl
  have hnumbered : hasId id (Message.toJson (.response (some id) (h.dispatch heard).1)).toNode =
      true := by
    rw [hasId, id_response]
    · simp
    · rintro _ ⟨⟩
      exact hid
  have hawait : Client.await id (answer.length + 1) ⟨0, id + 1, [], answer, false⟩ =
      (some (.ok r), ready (id + 1)) := by
    simp only [await, hnext, hnumbered, if_true, read]
  have hsending : (ready id).requestFrame command = .ok bytes := hbytes
  have hopen : (((single explain h [] [] n).find? 0).map Connection.isOpen).getD false = true := rfl
  refine ⟨m, ?_⟩
  simp only [request, hsending]
  simp only [ready] at hawait ⊢
  simp only [hopen, if_true, hcollect, hawait]

/-- Sends commands and waits for the response to each before the next one is sent. -/
def requestAll (c : Client) (s : Server) :
    List Command → List (Except Problem Response) × Client × Server
  | [] => ([], c, s)
  | command :: rest =>
    let (response, c, s) := c.request s command
    let (responses, c, s) := c.requestAll s rest
    (response :: responses, c, s)

/-- A command that can be sent with this number to a host, and answered: it is not for
connections only, it and the response fit in frames, and what they say survives. -/
structure Passes (h : Host) (id : Nat) (command : Command) : Prop where
  answered : ∀ role, command ≠ .subscribe role
  representable : command.Representable
  back : ∀ x ∈ command.doubles, x.ReadsBack
  sendable : ∃ bytes, Frame.ofValue (Request.toJson ⟨some id, command⟩) = .ok bytes
  exact : ∀ v, (h.dispatch command).1.data = some v → v.Exact
  fits : Fits (.response (some id) (h.dispatch command).1)

theorem Passes.representable_response {id : Nat} {command : Command}
    (passes : Passes h id command) : (h.dispatch command).1.Representable := by
  have shaped := h.shaped_dispatch command
  exact ⟨shaped.notNull, fun v hv => ⟨shaped.shaped v hv, passes.exact v hv⟩⟩

/-- One exchange over the only connection comes to what the host does by itself. -/
theorem Passes.request {id : Nat} {command : Command} (passes : Passes h id command)
    (hid : id < UInt64.size) :
    ∃ m, (ready id).request (single explain h [] [] n) command =
      (.ok (h.dispatch command).1, ready (id + 1),
        single explain (h.dispatch command).2 [] [] m) := by
  have hnumber : ∀ k, some id = some k → k < UInt64.size := by
    rintro _ ⟨⟩
    exact hid
  have response := passes.representable_response
  have legible : (Message.toJson (.response (some id) (h.dispatch command).1)).Legible maxDepth :=
    Value.legible_object (Response.sorted_fields _ _) (Response.legible_fields response hnumber)
  refine request_single explain hid rfl passes.sendable ?_ passes.answered passes.fits ?_ ?_
  · exact Request.decode?_chars ⟨hnumber, passes.representable⟩ passes.back
  · simp [legible.value?]
  · exact Response.decoder_fields response (some id)

theorem requestAll_single {id : Nat} {commands : List Command}
    (few : id + commands.length ≤ UInt64.size)
    (passes : ∀ before command after, commands = before ++ command :: after →
      Passes (h.dispatchAll before).2 (id + before.length) command) :
    ∃ m, (ready id).requestAll (single explain h [] [] n) commands =
      ((h.dispatchAll commands).1.map .ok, ready (id + commands.length),
        single explain (h.dispatchAll commands).2 [] [] m) := by
  induction commands generalizing h n id with
  | nil => exact ⟨n, rfl⟩
  | cons command rest ih =>
    rw [List.length_cons] at few
    have hfirst : Passes h id command := passes [] command rest rfl
    have hlater : ∀ before c after, rest = before ++ c :: after →
        Passes ((h.dispatch command).2.dispatchAll before).2 (id + 1 + before.length) c := by
      intro before c after heq
      have hpasses := passes (command :: before) c after (by rw [heq]; rfl)
      rwa [List.length_cons, Nat.add_comm before.length, ← Nat.add_assoc] at hpasses
    obtain ⟨l, hrequest⟩ := hfirst.request explain (n := n) (by omega)
    obtain ⟨m, hrest⟩ := ih (n := l) (by omega) hlater
    refine ⟨m, ?_⟩
    simp only [requestAll, Host.dispatchAll, hrequest, hrest, List.map_cons, List.length_cons]
    rw [Nat.add_comm rest.length, ← Nat.add_assoc]

/-- Commands sent one after another over a connection are answered as they are when they are
carried out directly, and leave the host as it is left then. -/
theorem transparent (h : Host) (explain : Bytes → String) (path : String)
    {commands : List Command} (few : commands.length < UInt64.size)
    (passes : ∀ before command after, commands = before ++ command :: after →
      Passes (h.dispatchAll before).2 (before.length + 1) command) :
    ∃ c s, connect path (Server.start h explain) = .ok (c, s) ∧
      (c.requestAll s commands).1 = (h.dispatchAll commands).1.map .ok ∧
      (c.requestAll s commands).2.2.host = (h.dispatchAll commands).2 := by
  have hpasses : ∀ before command after, commands = before ++ command :: after →
      Passes (h.dispatchAll before).2 (1 + before.length) command := by
    intro before command after heq
    rw [Nat.add_comm]
    exact passes before command after heq
  obtain ⟨m, hall⟩ := requestAll_single explain (n := Connection.stint) (by omega) hpasses
  refine ⟨ready 1, single explain h [] [] Connection.stint, rfl, ?_, ?_⟩
  · rw [hall]
  · rw [hall]
    rfl

theorem sendable_of_length {r : Request}
    (h : (Text.toBytes r.toJson.chars).length ≤ Frame.maxSize) :
    ∃ bytes, Frame.ofValue r.toJson = .ok bytes := ⟨_, if_neg (Nat.not_lt.mpr h)⟩

theorem passes_toggleBlack : Passes hall 1 .toggleBlack where
  answered := by simp
  representable := trivial
  back := by simp [Command.doubles]
  sendable := sendable_of_length (by decide +kernel)
  exact := by
    rintro v ⟨⟩
    exact Live.State.Representable.reads ⟨by decide, by decide⟩ |>.legible.exact
  fits := fits_of_length (by decide +kernel)

theorem passes_getState : Passes (hall.dispatch .toggleBlack).2 2 (.getState .a) where
  answered := by simp
  representable := trivial
  back := by simp [Command.doubles]
  sendable := sendable_of_length (by decide +kernel)
  exact := by
    rintro v ⟨⟩
    exact Projection.Screen.Representable.reads ⟨by decide +kernel, by decide⟩ |>.legible.exact
  fits := fits_of_length (by decide +kernel)

/-- The target is blanked, and then looked at. -/
theorem transparent_hall :
    ([.toggleBlack, .getState .a] : List Command).length < UInt64.size ∧
      (∀ before command after, [.toggleBlack, .getState .a] = before ++ command :: after →
        Passes (hall.dispatchAll before).2 (before.length + 1) command) ∧
      ∃ c s, connect "/run/host" (Server.start hall explained) = .ok (c, s) ∧
        (c.requestAll s [.toggleBlack, .getState .a]).1 =
          (hall.dispatchAll [.toggleBlack, .getState .a]).1.map .ok ∧
        (c.requestAll s [.toggleBlack, .getState .a]).2.2.host =
          (hall.dispatchAll [.toggleBlack, .getState .a]).2 := by
  have few : ([.toggleBlack, .getState .a] : List Command).length < UInt64.size := by decide
  have passes : ∀ before command after, [.toggleBlack, .getState .a] = before ++ command :: after →
      Passes (hall.dispatchAll before).2 (before.length + 1) command := by
    intro before command after heq
    rcases before with _ | ⟨first, _ | ⟨second, before⟩⟩
    · cases heq
      exact passes_toggleBlack
    · cases heq
      exact passes_getState
    · simp at heq
  exact ⟨few, passes, transparent hall explained "/run/host" few passes⟩

/-- An exchange in which a response changes on its way. -/
theorem requestAll_ne_of_heard {command heard : Command}
    (sendable : (Text.toBytes (Request.toJson ⟨some 1, command⟩).chars).length ≤ Frame.maxSize)
    (understood : decode? Request.decoder (Request.toJson ⟨some 1, command⟩).chars =
      some ⟨some 1, heard⟩)
    (answered : ∀ role, heard ≠ .subscribe role)
    (fits : (Text.toBytes (Message.toJson (.response (some 1) (h.dispatch heard).1)).chars).length ≤
      Frame.maxSize)
    (readable : ((Message.toJson (.response (some 1) (h.dispatch heard).1)).toNode.value?
      maxDepth).isSome = true)
    (read : (Response.decoder .top
      (Message.toJson (.response (some 1) (h.dispatch heard).1)).toNode).isSome = true)
    (changed : (Response.decoder .top
      (Message.toJson (.response (some 1) (h.dispatch heard).1)).toNode).map
        (fun r => r.data.map Value.chars) ≠ some ((h.dispatch command).1.data.map Value.chars)) :
    ((ready 1).requestAll (single explain h [] [] n) [command]).1 ≠
      (h.dispatchAll [command]).1.map .ok := by
  obtain ⟨r, hr⟩ := Option.isSome_iff_exists.mp read
  obtain ⟨m, hrequest⟩ :=
    request_single explain (n := n) (by decide) rfl (sendable_of_length sendable)
    understood answered (fits_of_length fits) readable hr
  simp only [requestAll, hrequest, Host.dispatchAll, List.map_cons, List.map_nil]
  intro heq
  have hsame : r = (h.dispatch command).1 := by simpa using heq
  exact changed (by rw [hr, hsame, Option.map_some])

/-- Text is scaled by a number that reading rounds to another. -/
def drift : Command :=
  .edit .a (.appearance ⟨some (.ofDecimal false 18773613707187997 (-16)), none, none⟩)

/-- An item of another kind whose name is that of a known kind. -/
def disguised : Command :=
  .projectItem none
    ⟨"item", 1, .other "SONG_BLOCK", none, some "Welcome", some "song", none, none⟩

/-- What the host hears of it. -/
def drifted : Command :=
  .edit .a (.appearance ⟨some (.ofDecimal false 18773613707187995 (-16)), none, none⟩)

def unmasked : Command :=
  .projectItem none ⟨"item", 1, .songBlock, none, some "Welcome", some "song", none, none⟩

theorem not_transparent :
    (((∀ x ∈ drift.doubles, x.isFinite = true) ∧
        (∃ bytes, Frame.ofValue (Request.toJson ⟨some 1, drift⟩) = .ok bytes) ∧
        Fits (.response (some 1) (hall.dispatch drift).1)) ∧
      ((ready 1).requestAll (single explained hall [] [] Connection.stint) [drift]).1 ≠
        (hall.dispatchAll [drift]).1.map .ok) ∧
    ((∃ bytes, Frame.ofValue (Request.toJson ⟨some 1, disguised⟩) = .ok bytes) ∧
        Fits (.response (some 1) (hall.dispatch disguised).1)) ∧
      ((ready 1).requestAll (single explained hall [] [] Connection.stint) [disguised]).1 ≠
        (hall.dispatchAll [disguised]).1.map .ok := by
  have hdrift : decode? Request.decoder (Request.toJson ⟨some 1, drift⟩).chars =
      some ⟨some 1, drifted⟩ := by decide +kernel
  have hdisguised : decode? Request.decoder (Request.toJson ⟨some 1, disguised⟩).chars =
      some ⟨some 1, unmasked⟩ := by decide +kernel
  have hsend : (Text.toBytes (Request.toJson ⟨some 1, drift⟩).chars).length ≤ Frame.maxSize := by
    decide +kernel
  have hsend' : (Text.toBytes (Request.toJson ⟨some 1, disguised⟩).chars).length ≤
      Frame.maxSize := by decide +kernel
  refine ⟨⟨⟨by decide +kernel, sendable_of_length hsend, fits_of_length (by decide +kernel)⟩, ?_⟩,
    ⟨sendable_of_length hsend', fits_of_length (by decide +kernel)⟩, ?_⟩
  · exact requestAll_ne_of_heard explained hsend hdrift (by simp [drifted]) (by decide +kernel)
      (by decide +kernel) (by decide +kernel) (by decide +kernel)
  · exact requestAll_ne_of_heard explained hsend' hdisguised (by simp [unmasked])
      (by decide +kernel) (by decide +kernel) (by decide +kernel) (by decide +kernel)

end Client
end Ipc
end Lectern
