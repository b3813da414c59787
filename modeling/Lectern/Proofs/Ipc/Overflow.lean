import Lectern.Proofs.Ipc.Room
import Lectern.Proofs.Ipc.Session

/-!
# An answer that does not fit

A request may fill its frame with a text that the answer repeats among other things. Such a
request is carried out, its answer is not sent, and the next request ends the session.
-/

namespace Lectern
namespace Ipc

open Json Projection Windows

theorem not_fits_of_need {m : Message} (h : Frame.maxSize < m.toJson.need) : ¬ Fits m := by
  rintro ⟨bytes, hbytes⟩
  have hlength := Value.need_le_length_toBytes_chars m.toJson
  rw [Frame.ofValue, Frame.write, if_pos (by omega)] at hbytes
  cases hbytes

namespace Server

variable {s : Server} {c d : Connection} {payload : Bytes}

/-- A request whose answer does not fit is carried out all the same, and the answer is not sent. -/
theorem handle_of_large (found : s.find? d.id = some c) (can : c.canSend = true)
    (goes : d.canSend = true) (fits : ∀ m ∈ s.reading d payload, Fits m)
    (large : ¬ Fits (s.answer d payload).1) :
    (s.handle d payload).host = (s.answer d payload).2.host ∧
      ∃ e, (s.handle d payload).find? d.id = some e ∧ e.isOpen = c.isOpen ∧ e.canSend = false ∧
        e.sent = c.sent ++ (s.reading d payload).flatMap frame := by
  obtain ⟨subscription, n, hanswer⟩ := find?_answer found payload
  rw [Connection.sendAll_of_fits can fits] at hanswer
  simp only [handle, goes, if_true]
  refine ⟨rfl, _, find?_update_self (fun c => by rw [Connection.send_eq]) hanswer, ?_⟩
  have hsend := Connection.sendAll_of_not_fits (c := { c with
    subscription
    sent := c.sent ++ (s.reading d payload).flatMap frame
    readsLeft := n }) can large []
  rw [Connection.sendAll_cons, Connection.sendAll_nil] at hsend
  rw [hsend]
  exact ⟨rfl, rfl, rfl⟩

/-- The request after that is the last one. -/
theorem handle_of_mute (found : s.find? d.id = some c) (isOpen : c.isOpen = true)
    (mute : c.canSend = false) (stops : d.canSend = false) :
    ∃ e, (s.handle d payload).find? d.id = some e ∧ e.isOpen = false ∧ e.canSend = false ∧
      e.received = [] ∧ e.sent = c.sent := by
  obtain ⟨subscription, n, hanswer⟩ := find?_answer found payload
  rw [Connection.sendAll_of_mute mute] at hanswer
  have keeps (c : Connection) : (c.send (s.answer d payload).1).id = c.id := by
    rw [Connection.send_eq]
  have hsend := find?_update_self keeps hanswer
  have hmute := Connection.sendAll_of_mute (c := { c with subscription, readsLeft := n }) mute
    [(s.answer d payload).1]
  rw [Connection.sendAll_cons, Connection.sendAll_nil] at hmute
  rw [hmute] at hsend
  simp only [handle, stops, Bool.false_eq_true, if_false]
  exact ⟨_, find?_close hsend isOpen, rfl, rfl, rfl, rfl⟩

/-- Puts a text on the main surface. -/
def showing (body : String) : Command := .edit .a (.text ⟨none, body, none⟩)

/-- The main surface of the hall after its first write. -/
def written (body : String) : Screen :=
  ⟨{ Display.default with content := .text ⟨none, body, none⟩ }, 1000⟩

theorem length_asking_le (body : String) : (asking 1 (showing body)).length ≤ span body + 110 := by
  have hjson : Request.toJson ⟨some 1, showing body⟩ = .object [
      ("command", .text "set-content-text"), ("id", .int 1),
      ("payload", .object [("body", .text body), ("metaSong", .null), ("surface", .text "A"),
        ("title", .null)])] := rfl
  have keys : (["command", "set-content-text", "id", "payload", "body", "metaSong", "surface", "A",
      "title"].map Json.span).sum = 57 := by
    decide
  have hnumber : (Value.intChars 1).length = 1 := by decide
  refine Nat.le_trans (Value.length_toBytes_chars_le _) ?_
  simp only [List.map_cons, List.map_nil, List.sum_cons, List.sum_nil] at keys
  simp only [hjson, Value.allowance, Value.fieldsAllowance, hnumber]
  omega

theorem dispatch_showing (body : String) :
    (hall.dispatch (showing body)).1 = .success (Outcome.applied .a (written body)).toJson ∧
      (hall.dispatch (showing body)).2.desk.screens.get .a = written body := ⟨rfl, rfl⟩

theorem need_written (body : String) : span body + 115 ≤ (written body).toJson.need := by
  have keys : (["background", "#050505", "current", "body", "kind", "TEXT", "foreground", "#ffffff",
      "lowerThirdEnabled", "mode", "NORMAL", "textScale", "transitionEnabled",
      "updatedAt"].map Json.span).sum = 115 := by
    decide
  simp only [List.map_cons, List.map_nil, List.sum_cons, List.sum_nil] at keys
  simp only [written, Screen.toJson, Display.default, Mode.toJson, Content.toJson, Value.present,
    List.append_nil, Value.need, Value.fieldsNeed]
  omega

theorem need_showing (body : String) : span body + 120 <
    (Message.toJson (.response (some 1) (hall.dispatch (showing body)).1)).need := by
  have hjson : Message.toJson (.response (some 1) (hall.dispatch (showing body)).1) = .object [
      ("data", .object [("ok", .bool true), ("state", (written body).toJson),
        ("surface", .text "A")]), ("id", .int 1), ("ok", .bool true)] := rfl
  have hwritten := need_written body
  have keys : Json.span "state" + Json.span "surface" = 12 := by decide
  simp only [hjson, Value.need, Value.fieldsNeed]
  omega

theorem request?_showing (body : String) :
    request? (asking 1 (showing body)) = some ⟨some 1, showing body⟩ :=
  request?_asking (by decide) (by simp [showing, Command.Representable, Edit.doubles]) rfl

theorem still_showing (h : Host) (body : String) : h.deskAtReading (showing body) = none := rfl

/-- A text that leaves room for the rest of a request, but not for the rest of a screen, comes on
the main surface. Whoever sent it is not answered any more. -/
theorem lost_answer {body : String} (short : span body + 110 ≤ Frame.maxSize)
    (long : Frame.maxSize ≤ span body + 120) :
    (asking 1 (showing body)).length ≤ Frame.maxSize ∧
      request? (asking 1 (showing body)) = some ⟨some 1, showing body⟩ ∧
      ∃ (response : Response) (d e : Connection),
        (opened.answer (.new 0) (asking 1 (showing body))).1 = .response (some 1) response ∧
        ¬ Fits (.response (some 1) response) ∧
        (opened.handle (.new 0) (asking 1 (showing body))).host.desk.screens.get .a =
          written body ∧
        (opened.handle (.new 0) (asking 1 (showing body))).find? 0 = some d ∧ d.sent = [] ∧
        ((opened.handle (.new 0) (asking 1 (showing body))).handle d
          (asking 2 .getLive)).find? 0 = some e ∧ e.isOpen = false ∧ e.sent = [] := by
  have hrequest := request?_showing body
  obtain ⟨-, hscreen⟩ := dispatch_showing body
  have hlarge : ¬ Fits (.response (some 1) (hall.dispatch (showing body)).1) :=
    not_fits_of_need (Nat.lt_of_le_of_lt long (need_showing body))
  have hanswer := answer_of_request opened (.new 0) hrequest (by simp [showing])
  rw [still_showing] at hanswer
  have hreading : opened.reading (.new 0) (asking 1 (showing body)) = [] := by
    simp only [reading, hrequest, still_showing]
  have hlost : ¬ Fits (opened.answer (.new 0) (asking 1 (showing body))).1 := by
    rw [hanswer]
    exact hlarge
  obtain ⟨hhost, d, hd, hopen, hmute, hsent⟩ := handle_of_large (s := opened) (d := .new 0)
    (c := .new 0) rfl rfl rfl (by simp [hreading]) hlost
  rw [hreading, List.flatMap_nil, List.append_nil] at hsent
  have hnothing : d.sent = [] := hsent
  have hid : d.id = 0 := id_of_find? hd
  obtain ⟨e, he, hclosed, -, -, hrest⟩ := handle_of_mute (hid.symm ▸ hd) hopen hmute hmute
  rw [hid] at he
  rw [hanswer] at hhost
  refine ⟨Nat.le_trans (length_asking_le body) short, hrequest, (hall.dispatch (showing body)).1,
    d, e, ?_, hlarge, ?_, hd, hnothing, he, hclosed, hrest.trans hnothing⟩
  · rw [hanswer]
    rfl
  · rw [hhost]
    exact hscreen

/-- A text of just that length. -/
def fillingText : String := String.ofList (List.replicate (Frame.maxSize - 120) 'a')

theorem span_fillingText : span fillingText + 120 = Frame.maxSize := by
  have hchar : charSpan 'a' = 1 := by decide
  have hmax : 120 ≤ Frame.maxSize := by decide
  simp only [span, fillingText, String.toList_ofList, charsSpan, List.map_replicate, hchar,
    List.sum_replicate_nat]
  omega

theorem course_opened : Course (start hall explained) [] opened := by
  have hconnect : (start hall explained).connect = some (0, opened) := rfl
  exact (Step.connect hconnect).course

theorem not_answerable :
    Course (start hall explained) [] opened ∧ opened.find? 0 = some (.new 0) ∧
      (asking 1 (showing fillingText)).length ≤ Frame.maxSize ∧
      request? (asking 1 (showing fillingText)) = some ⟨some 1, showing fillingText⟩ ∧
      ∃ (response : Response) (d e : Connection),
        (opened.answer (.new 0) (asking 1 (showing fillingText))).1 =
          .response (some 1) response ∧
        ¬ Fits (.response (some 1) response) ∧
        (opened.handle (.new 0) (asking 1 (showing fillingText))).host.desk.screens.get .a =
          written fillingText ∧
        (opened.handle (.new 0) (asking 1 (showing fillingText))).find? 0 = some d ∧
        d.sent = [] ∧
        ((opened.handle (.new 0) (asking 1 (showing fillingText))).handle d
          (asking 2 .getLive)).find? 0 = some e ∧
        e.isOpen = false ∧ e.sent = [] := by
  have short : span fillingText + 110 ≤ Frame.maxSize := by
    rw [← span_fillingText]
    exact Nat.add_le_add_left (by decide) _
  exact ⟨course_opened, rfl, lost_answer short (Nat.le_of_eq span_fillingText.symm)⟩

end Server
end Ipc
end Lectern
