import Lectern.Host
import Lectern.Proofs.Desk.Limits
import Lectern.Proofs.Wire.Allowances

/-!
# How long replies are

A host whose desk and sources are within limits carries out every command within them, and its
reply takes no more than all that it holds.
-/

namespace Lectern

open Json Projection Windows

theorem Projection.Display.Within.span_le {small shown : Nat} {d : Display}
    (h : d.Within small shown) : d.span ≤ 3 * small + shown + 64 := by
  have hbackground := h.background
  have hforeground := h.foreground
  have hcontent := h.content
  unfold Display.span
  omega

theorem Projection.Screen.Within.allowance_le {small shown : Nat} {s : Screen}
    (h : s.Within small shown) : s.toJson.allowance ≤ 3 * small + shown + 1264 := by
  have hspan := h.display.span_le
  have hscreen := Screen.allowance_toJson_le h.updatedAt
  omega

theorem Live.State.Within.allowance_le {small : Nat} {s : Live.State} (h : s.Within small) :
    s.toJson.allowance ≤ small + 260 := by
  have hplan := h.planId
  have hstate := allowance_toJson_le h.cursor h.updatedAt
  omega

theorem Outcome.Within.span_le {small shown : Nat} {o : Outcome} (h : o.Within small shown) :
    spanIf (fun s : Screen => s.display.span) o.screen ≤ 3 * small + shown + 64 := by
  cases hscreen : o.screen with
  | none => exact Nat.zero_le _
  | some s => exact (h s hscreen).display.span_le

namespace Response

/-- So many bytes are enough for what the response carries. -/
def allowance (r : Response) : Nat := spanIf Value.allowance r.data + spanIf span r.error

@[simp] theorem allowance_success (v : Value) : (success v).allowance = v.allowance := rfl

@[simp] theorem allowance_failure (error : String) : (failure error).allowance = span error :=
  Nat.zero_add _

theorem allowance_ofOutcome_le (o : Outcome) : (ofOutcome o).allowance ≤ o.toJson.allowance := by
  unfold ofOutcome
  split
  · exact Nat.zero_le _
  · exact Nat.le_refl _

end Response

theorem Link.Refusal.span_message_le (r : Link.Refusal) : span r.message ≤ 70 := by
  have hname (s : Surface) : span s.name = 1 := by cases s <;> decide
  have words : (["surface ", " cannot mirror itself", "mirroring ", " from ",
      " would create a cycle"].map span).sum = 66 := by
    decide
  simp only [List.map_cons, List.map_nil, List.sum_cons, List.sum_nil] at words
  cases r with
  | selfReference s =>
    simp only [message, span_append, hname]
    omega
  | cycle s source =>
    simp only [message, span_append, hname]
    omega

namespace Host

variable {small shown : Nat} {h : Host} {command : Command}

/-- Nothing that a host has been given or has from its sources is longer than that. -/
structure Within (small shown : Nat) (h : Host) : Prop where
  desk : h.desk.Within small shown
  sources : h.sources.Within shown
  serverTime : span h.serverTime ≤ shown

/-- The reply is made of what the host holds, and the host is within its limits. -/
structure Replies (small shown : Nat) (reply : Response × Host) : Prop where
  host : reply.2.Within small shown
  short : reply.1.allowance ≤ 4 * small + 2 * shown + 2000

theorem Within.setDesk (hw : h.Within small shown) {desk : Desk Registry}
    (hdesk : desk.Within small shown) : ({ h with desk }).Within small shown :=
  ⟨hdesk, hw.sources, hw.serverTime⟩

theorem allowance_surfacesJson_le (h : Host) : h.surfacesJson.allowance ≤ 300 := by
  have hinfo (s : Surface) := SurfaceInfo.allowance_toJson_le
    ⟨s, Windows.isOpen h.desk.windows s, h.desk.links.get s⟩
  have ha := hinfo .a
  have hb := hinfo .b
  have hc := hinfo .c
  simp only [surfacesJson, Desk.surfaces, Surface.all, List.map_cons, List.map_nil,
    Value.allowance, Value.itemsAllowance]
  omega

theorem Within.replies_surfaces (hw : h.Within small shown) :
    Replies small shown (.success h.surfacesJson, h) where
  host := hw
  short := by
    have hsurfaces := h.allowance_surfacesJson_le
    rw [Response.allowance_success]
    omega

theorem Within.replies_screen (hw : h.Within small shown) {screen : Screen}
    (hscreen : screen.Within small shown) : Replies small shown (.success screen.toJson, h) where
  host := hw
  short := by
    have hallowance := hscreen.allowance_le
    rw [Response.allowance_success]
    omega

theorem Within.replies_mergeLive (hw : h.Within small shown) {p : Live.Patch}
    (hp : p.Within small) : Replies small shown (h.mergeLive p) := by
  have hmerged := hw.desk.mergeLive hp
  refine ⟨hw.setDesk hmerged, ?_⟩
  have hlive := hmerged.live
  rw [Desk.mergeLive_live] at hlive
  have hallowance := hlive.allowance_le
  simp only [Host.mergeLive, Response.allowance_success]
  omega

/-- What a merge leaves out stays as it is. -/
theorem Within.replies_unmoved (hw : h.Within small shown) {p : Live.Patch}
    (plan : p.planId = none) (cursor : p.cursor = none) : Replies small shown (h.mergeLive p) :=
  hw.replies_mergeLive (Live.Patch.within_of_unmoved plan cursor)

theorem Within.replies_outcome (hw : h.Within small shown) {result : Outcome × Desk Registry}
    (hresult : result.2.Within small shown ∧ result.1.Within small shown) :
    Replies small shown (h.answerOutcome result) := by
  obtain ⟨hdesk, houtcome⟩ := hresult
  refine ⟨hw.setDesk hdesk, ?_⟩
  have hspan := houtcome.span_le
  have hanswer := Response.allowance_ofOutcome_le result.1
  have hallowance := Outcome.allowance_toJson_le fun s hs => (houtcome s hs).updatedAt
  simp only [answerOutcome]
  omega

theorem Within.replies_navigated (hw : h.Within small shown)
    {result : Except Failure Navigated × Desk Registry}
    (hresult : result.2.Within small shown ∧
      Desk.Within.Navigating small shown result.1) :
    Replies small shown (h.answerNavigated result) := by
  obtain ⟨hdesk, hnavigated⟩ := hresult
  refine ⟨hw.setDesk hdesk, ?_⟩
  obtain ⟨failure | n, desk⟩ := result
  · have hspan : span failure.message ≤ small + shown + 64 := hnavigated
    simp only [answerNavigated, Response.ofExcept, Response.allowance_failure]
    omega
  · obtain ⟨hlive, hprojection⟩ := hnavigated
    have hplan := hlive.planId
    have hspan : spanIf (fun o => spanIf (fun s : Screen => s.display.span) o.screen)
        n.projection ≤ 3 * small + shown + 64 := by
      cases ho : n.projection with
      | none => exact Nat.zero_le _
      | some o => exact (hprojection o ho).span_le
    have hallowance := Navigated.allowance_toJson_le hlive.cursor hlive.updatedAt
      fun o s ho hs => (hprojection o ho s hs).updatedAt
    simp only [answerNavigated, Response.ofExcept, Response.allowance_success]
    omega

theorem Within.replies_navigation (hw : h.Within small shown) {p : Live.Patch}
    (hp : p.Within small) :
    Replies small shown (h.answerNavigated ((h.desk.mergeLive p).2.projectCursor h.sources
      (h.desk.mergeLive p).1)) :=
  hw.replies_navigated (hw.desk.navigate hw.sources hp)

theorem Within.replies_changeWindow (hw : h.Within small shown) (s : Surface)
    (change : Registry → Surface → Registry) :
    Replies small shown
      (.success (h.changeWindow s change).surfacesJson, h.changeWindow s change) := by
  have hchange : (h.changeWindow s change).Within small shown :=
    hw.setDesk ((hw.desk.windows _).windowChanged s _)
  exact hchange.replies_surfaces

/-- Every command is carried out within the limits. -/
theorem Within.replies (hw : h.Within small shown) (span : command.span ≤ small)
    (representable : command.Representable) : Replies small shown (h.dispatch command) := by
  have hlive := hw.desk.live
  cases command with
  | getState s => exact hw.replies_screen (hw.desk.screens s)
  | edit s e =>
    exact hw.replies_outcome (hw.desk.edit (Edit.keeps_of_span_le span) s .refuse)
  | setLink s link =>
    obtain ⟨hdesk, hscreen⟩ := hw.desk.setLink s link
    simp only [dispatch]
    generalize h.desk.setLink s link = result at hdesk hscreen ⊢
    obtain ⟨refusal | screen, desk⟩ := result
    · refine ⟨hw.setDesk hdesk, ?_⟩
      have hmessage := refusal.span_message_le
      rw [Response.allowance_failure]
      omega
    · exact (hw.setDesk hdesk).replies_screen (hscreen screen rfl)
  | listSurfaces => exact hw.replies_surfaces
  | getLive =>
    refine ⟨hw, ?_⟩
    have hallowance := hlive.allowance_le
    simp only [dispatch, Response.allowance_success]
    omega
  | setLive p => exact hw.replies_mergeLive ⟨span, representable⟩
  | next => exact hw.replies_navigation h.desk.live.within_next
  | prev => exact hw.replies_navigation h.desk.live.within_prev
  | setCursor cursor =>
    refine hw.replies_navigation ⟨Nat.zero_le _, fun n hn => ?_⟩
    obtain rfl := Option.some.inj hn
    exact representable
  | goLive planId cursor =>
    refine hw.replies_navigation (p := .start planId (cursor.getD 0)) ⟨span, fun n hn => ?_⟩
    obtain rfl := Option.some.inj hn
    cases cursor with
    | none => exact isInt64_zero
    | some n => exact representable n rfl
  | projectItem target item =>
    have hslide := item.span_slide_le hw.sources
    have hitem : item.span ≤ small := span
    exact hw.replies_outcome (hw.desk.project _ (by omega))
  | setTarget | toggle | toggleBlack | toggleWhite | resume | setLocked =>
    exact hw.replies_unmoved rfl rfl
  | openSurface s => exact hw.replies_changeWindow s _
  | closeSurface s => exact hw.replies_changeWindow s _
  | subscribe role =>
    refine ⟨hw, ?_⟩
    have hwords : Json.span "subscribe is only available on an IPC connection" ≤ 60 := by
      decide
    simp only [dispatch, Response.allowance_failure]
    omega
  | ping =>
    refine ⟨hw, ?_⟩
    have keys : (["pong", "serverTime"].map Json.span).sum = 14 := by decide
    have htime := hw.serverTime
    simp only [List.map_cons, List.map_nil, List.sum_cons, List.sum_nil] at keys
    simp only [dispatch, Response.allowance_success, Value.allowance, Value.fieldsAllowance]
    omega

end Host
end Lectern
