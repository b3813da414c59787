import Lectern.Proofs.Json.Allowances
import Lectern.Proofs.Wire.Spans
import Lectern.Response

/-!
# How long messages are

Apart from its texts a message of each kind is short: its keys, its names, its times and the
scale of its text take a fixed number of bytes at most, as long as times and cursors fit
sixty-four bits.
-/

namespace Lectern

open Json Projection Value

/-- A text that may be absent, in a field that is left out or null without it. -/
theorem fieldsAllowance_presentText_le (key : String) (o : Option String) :
    fieldsAllowance (present key .text o) ≤ spanIf Json.span o + 2 + Json.span key + 4 :=
  fieldsAllowance_present_le key .text fun _ _ => Nat.le_refl _

theorem allowance_ofOptionText_le (o : Option String) :
    (ofOption .text o).allowance ≤ spanIf Json.span o + 4 :=
  allowance_ofOption_le .text (Nat.le_refl 4) fun s _ =>
    Nat.add_le_add_left (by decide : 2 ≤ 4) (Json.span s)

theorem Surface.allowance_toJson (s : Surface) : s.toJson.allowance = 3 := by
  cases s <;> decide

theorem length_intChars_le_of_isInt64 {n : Int} (h : IsInt64 n) : (intChars n).length ≤ 21 :=
  length_intChars_le (Nat.le_trans h.natAbs_le (by decide))

namespace Projection

theorem MediaType.allowance_toJson_le (t : MediaType) : t.toJson.allowance ≤ 7 := by
  cases t <;> decide

theorem Mode.allowance_toJson_le (m : Mode) : m.toJson.allowance ≤ 8 := by
  cases m <;> decide

theorem SongSource.allowance_toJson_le (s : SongSource) : s.toJson.allowance ≤ s.span + 60 := by
  have keys : (["blockId", "blockTitle", "songId", "songTitle"].map Json.span).sum = 32 := by
    decide
  have hblock := fieldsAllowance_presentText_le "blockId" s.blockId
  have htitle := fieldsAllowance_presentText_le "blockTitle" s.blockTitle
  simp only [List.map_cons, List.map_nil, List.sum_cons, List.sum_nil] at keys
  simp only [toJson, span, allowance, fieldsAllowance_append, fieldsAllowance]
  omega

theorem Content.allowance_toJson_le (c : Content) : c.toJson.allowance ≤ c.span + 140 := by
  have keys : (["kind", "body", "metaSong", "title", "mediaPath", "mediaType", "EMPTY", "TEXT",
      "MEDIA"].map Json.span).sum = 53 := by
    decide
  simp only [List.map_cons, List.map_nil, List.sum_cons, List.sum_nil] at keys
  cases c with
  | empty =>
    simp only [toJson, allowance, fieldsAllowance]
    omega
  | text t =>
    have hsong := fieldsAllowance_present_le "metaSong" SongSource.toJson
      fun s (_ : t.song = some s) => s.allowance_toJson_le
    have htitle := fieldsAllowance_presentText_le "title" t.title
    simp only [toJson, span, TextSlide.span, allowance, fieldsAllowance_append, fieldsAllowance]
    omega
  | media m =>
    have htype := m.type.allowance_toJson_le
    have htitle := fieldsAllowance_presentText_le "title" m.title
    simp only [toJson, span, MediaSlide.span, allowance, fieldsAllowance_append, fieldsAllowance]
    omega

/-- The texts of a display. -/
def Display.span (d : Display) : Nat :=
  Json.span d.background + Json.span d.foreground + d.content.span

theorem Screen.allowance_toJson_le {s : Screen} (time : IsInt64 s.updatedAt) :
    s.toJson.allowance ≤ s.display.span + 1200 := by
  have keys : (["background", "current", "foreground", "lowerThirdEnabled", "mode", "textScale",
      "transitionEnabled", "updatedAt"].map Json.span).sum = 83 := by
    decide
  have hcontent := s.display.content.allowance_toJson_le
  have hmode := s.display.mode.allowance_toJson_le
  have hscale := allowance_ofBinary64_le s.display.textScale
  have htime := length_intChars_le_of_isInt64 time
  simp only [List.map_cons, List.map_nil, List.sum_cons, List.sum_nil] at keys
  simp only [toJson, Display.span, allowance, fieldsAllowance]
  omega

end Projection

theorem Link.allowance_toJson_le (l : Link) : l.toJson.allowance ≤ 40 := by
  rcases l with _ | _ | _ | _ <;> decide

theorem Reason.allowance_toJson_le (r : Reason) : r.toJson.allowance ≤ 8 := by
  cases r <;> decide

theorem Role.allowance_toJson_le (r : Role) : r.toJson.allowance ≤ 50 := by
  rcases r with _ | _ | _ | _ <;> decide

theorem Outcome.allowance_toJson_le {o : Outcome}
    (times : ∀ s, o.screen = some s → IsInt64 s.updatedAt) :
    o.toJson.allowance ≤ spanIf (fun s => s.display.span) o.screen + 1300 := by
  have keys : (["ok", "reason", "state", "surface"].map Json.span).sum = 20 := by decide
  have hreason := fieldsAllowance_present_le_of_le "reason" Reason.toJson
    fun r (_ : o.reason = some r) => r.allowance_toJson_le
  have hscreen := fieldsAllowance_present_le "state" Screen.toJson
    fun s hs => Screen.allowance_toJson_le (times s hs)
  have hsurface := fieldsAllowance_present_le_of_le "surface" Surface.toJson
    fun s (_ : o.surface = some s) => Nat.le_of_eq s.allowance_toJson
  simp only [List.map_cons, List.map_nil, List.sum_cons, List.sum_nil] at keys
  simp only [toJson, allowance, fieldsAllowance_append, fieldsAllowance]
  omega

theorem SurfaceInfo.allowance_toJson_le (i : SurfaceInfo) : i.toJson.allowance ≤ 90 := by
  have keys : (["isOpen", "key", "mirror"].map Json.span).sum = 15 := by decide
  have hlink := i.link.allowance_toJson_le
  have hsurface := i.surface.allowance_toJson
  simp only [List.map_cons, List.map_nil, List.sum_cons, List.sum_nil] at keys
  simp only [toJson, allowance, fieldsAllowance]
  omega

theorem Locks.allowance_toJson (l : Locks) : l.toJson.allowance = 32 := by
  have keys : (["A", "B", "C"].map Json.span).sum = 3 := by decide
  simp only [List.map_cons, List.map_nil, List.sum_cons, List.sum_nil] at keys
  simp only [toJson, allowance, fieldsAllowance]
  omega

theorem Live.State.allowance_toJson_le {s : State} (cursor : IsInt64 s.cursor)
    (updatedAt : IsInt64 s.updatedAt) :
    s.toJson.allowance ≤ spanIf Json.span s.planId + 260 := by
  have keys : (["black", "cursor", "enabled", "lockedScreens", "planId", "target", "updatedAt",
      "white"].map Json.span).sum = 57 := by
    decide
  have hcursor := length_intChars_le_of_isInt64 cursor
  have htime := length_intChars_le_of_isInt64 updatedAt
  have hplan := allowance_ofOptionText_le s.planId
  have hlocks := s.locks.allowance_toJson
  have htarget := s.target.allowance_toJson
  simp only [List.map_cons, List.map_nil, List.sum_cons, List.sum_nil] at keys
  simp only [toJson, allowance, fieldsAllowance]
  omega

/-- What a step of navigation comes to: the live state, and the screen that it projects. -/
theorem Navigated.allowance_toJson_le {g : Navigated} (cursor : IsInt64 g.live.cursor)
    (updatedAt : IsInt64 g.live.updatedAt)
    (times : ∀ o s, g.projection = some o → o.screen = some s → IsInt64 s.updatedAt) :
    g.toJson.allowance ≤ spanIf Json.span g.live.planId +
      spanIf (fun o => spanIf (fun s => s.display.span) o.screen) g.projection + 1600 := by
  have keys : (["live", "projection"].map Json.span).sum = 14 := by decide
  have hlive := Live.State.allowance_toJson_le cursor updatedAt
  have houtcome := fieldsAllowance_present_le "projection" Outcome.toJson
    fun o ho => Outcome.allowance_toJson_le fun s => times o s ho
  simp only [List.map_cons, List.map_nil, List.sum_cons, List.sum_nil] at keys
  simp only [toJson, allowance, fieldsAllowance_append, fieldsAllowance]
  omega

namespace Message

theorem allowance_response_le {id : Option Nat} (hid : ∀ n, id = some n → n < UInt64.size)
    (r : Response) :
    (toJson (.response id r)).allowance ≤
      spanIf Value.allowance r.data + spanIf Json.span r.error + 120 := by
  have keys : (["data", "error", "id", "ok", "reason"].map Json.span).sum = 19 := by
    decide
  have hdata := fieldsAllowance_present_le "data" (fun v : Value => v)
    fun v (_ : r.data = some v) => Nat.le_refl (v.allowance + 0)
  have herror := fieldsAllowance_presentText_le "error" r.error
  have hnumber := fieldsAllowance_present_le_of_le "id" (fun n : Nat => .int n)
    fun n hn => length_intChars_le (Nat.le_of_lt (hid n hn))
  have hreason := fieldsAllowance_present_le_of_le "reason" Reason.toJson
    fun reason (_ : r.reason = some reason) => reason.allowance_toJson_le
  simp only [List.map_cons, List.map_nil, List.sum_cons, List.sum_nil] at keys
  simp only [toJson, Response.fields, allowance, fieldsAllowance_append, fieldsAllowance]
  omega

theorem allowance_screen_le (s : Surface) {screen : Screen} (time : IsInt64 screen.updatedAt) :
    (toJson (.event (.screen s screen))).allowance ≤ screen.display.span + 1300 := by
  have keys : (["event", "state", "surface", "type", "surface-state-changed"].map Json.span).sum =
      42 := by
    decide
  have hscreen := Screen.allowance_toJson_le time
  have hsurface := s.allowance_toJson
  simp only [List.map_cons, List.map_nil, List.sum_cons, List.sum_nil] at keys
  simp only [toJson, Event.toJson, allowance, fieldsAllowance]
  omega

theorem allowance_window_le (s : Surface) (isOpen : Bool) :
    (toJson (.event (.window s isOpen))).allowance ≤ 100 := by
  cases s <;> cases isOpen <;> decide

theorem allowance_live_le {state : Live.State} (cursor : IsInt64 state.cursor)
    (updatedAt : IsInt64 state.updatedAt) :
    (toJson (.event (.live state))).allowance ≤ spanIf Json.span state.planId + 330 := by
  have keys : (["event", "state", "type", "live-state-changed"].map Json.span).sum = 32 := by
    decide
  have hlive := Live.State.allowance_toJson_le cursor updatedAt
  simp only [List.map_cons, List.map_nil, List.sum_cons, List.sum_nil] at keys
  simp only [toJson, Event.toJson, allowance, fieldsAllowance]
  omega

end Message
end Lectern
