import Lectern.Proofs.Desk.Operation
import Lectern.Proofs.Desk.Slides
import Lectern.Proofs.Desk.Steps

/-!
# What a desk can hold

What requests and sources hand over is kept as it is or not at all, so a desk holds no longer
texts than it is handed. Times and cursors keep to sixty-four bits.
-/

namespace Lectern

open Json Projection

theorem Json.getD_le {α : Type} {measure : α → Nat} {n : Nat} {o : Option α} {a : α}
    (present : spanIf measure o ≤ n) (default : measure a ≤ n) : measure (o.getD a) ≤ n := by
  cases o with
  | none => exact default
  | some b => exact present

theorem Failure.span_context_le (text : String) (f : Failure) :
    span (f.context text).message ≤ span text + span f.message + 2 := by
  have hcolon : span ": " = 2 := by decide
  cases h : f.causes with
  | nil =>
    have hmessage : (f.context text).message = text := by
      simp [message, context, h]
    rw [hmessage]
    omega
  | cons cause causes =>
    have hmessage : (f.context text).message = text ++ ": " ++ f.message := by
      simp [message, context, h, String.intercalate_cons_cons]
    rw [hmessage, span_append, span_append]
    omega

namespace Projection

/-- The colours come with requests. The content comes with a request too, or is what an item
shows. -/
structure Display.Within (small shown : Nat) (d : Display) : Prop where
  background : Json.span d.background ≤ small
  foreground : Json.span d.foreground ≤ small
  content : d.content.span ≤ small + shown + 64

structure Screen.Within (small shown : Nat) (s : Screen) : Prop where
  display : s.display.Within small shown
  updatedAt : IsInt64 s.updatedAt

/-- The edit leaves a display that is within the limits there. -/
def Edit.Keeps (small shown : Nat) (e : Edit) : Prop :=
  ∀ d : Display, d.Within small shown → (e.apply d).Within small shown

variable {small shown : Nat} {s source : Screen} {now : Int}

theorem Screen.Within.write (h : IsInt64 now) {change : Display → Display}
    (keeps : (change s.display).Within small shown) :
    (s.write now change).Within small shown := ⟨keeps, isInt64_stamp h _⟩

theorem Screen.Within.copy (h : source.Within small shown) (hnow : IsInt64 now) :
    (s.copy source now).Within small shown :=
  .write (hnow.max h.updatedAt) h.display

theorem Edit.keeps_of_span_le {e : Edit} (h : e.span ≤ small) : e.Keeps small shown := by
  intro d within
  cases e with
  | patch p =>
    simp only [span, Patch.span] at h
    exact ⟨getD_le (by omega) within.background, getD_le (by omega) within.foreground,
      getD_le (by omega) within.content⟩
  | text t => exact ⟨within.background, within.foreground, by
      simp only [span] at h
      simp only [apply, Display.showing, Content.span]
      omega⟩
  | media m => exact ⟨within.background, within.foreground, by
      simp only [span] at h
      simp only [apply, Display.showing, Content.span]
      omega⟩
  | mode m => exact ⟨within.background, within.foreground, within.content⟩
  | appearance p =>
    simp only [span, Appearance.span] at h
    exact ⟨getD_le (by omega) within.background, getD_le (by omega) within.foreground,
      within.content⟩

theorem Slide.keeps_edit {slide : Slide} (h : slide.content.span ≤ small + shown + 64) :
    slide.edit.Keeps small shown := by
  intro d within
  cases slide with
  | text t => exact ⟨within.background, within.foreground, h⟩
  | media m => exact ⟨within.background, within.foreground, h⟩

end Projection

namespace Live

/-- The id of the plan comes with a request. -/
structure State.Within (small : Nat) (s : State) : Prop where
  planId : spanIf span s.planId ≤ small
  cursor : IsInt64 s.cursor
  updatedAt : IsInt64 s.updatedAt

structure Patch.Within (small : Nat) (p : Patch) : Prop where
  planId : p.span ≤ small
  cursor : ∀ n, p.cursor = some n → IsInt64 n

variable {small : Nat} {s : State} {p : Patch} {now : Int}

theorem State.Within.merge (h : s.Within small) (hp : p.Within small) (hnow : IsInt64 now) :
    (s.merge p now).Within small where
  planId := getD_le hp.planId h.planId
  cursor := by
    refine IsInt64.max ?_ isInt64_zero
    cases hcursor : p.cursor with
    | none => exact h.cursor
    | some n => exact hp.cursor n hcursor
  updatedAt := Screen.isInt64_stamp hnow _

theorem State.within_next (s : State) : s.next.Within small where
  planId := Nat.zero_le _
  cursor n hn := by
    obtain rfl := Option.some.inj hn
    exact isInt64_wrap64 _

theorem State.within_prev (s : State) : s.prev.Within small where
  planId := Nat.zero_le _
  cursor n hn := by
    obtain rfl := Option.some.inj hn
    exact (isInt64_wrap64 _).max isInt64_zero

theorem Patch.within_of_unmoved (hplan : p.planId = none) (hcursor : p.cursor = none) :
    p.Within small := ⟨by simp [span, hplan], by simp [hcursor]⟩

end Live

def Event.Within (small shown : Nat) : Event → Prop
  | screen _ s => s.Within small shown
  | window _ _ => True
  | live s => s.Within small

def Outcome.Within (small shown : Nat) (o : Outcome) : Prop :=
  ∀ s, o.screen = some s → s.Within small shown

structure Navigated.Within (small shown : Nat) (n : Navigated) : Prop where
  live : n.live.Within small
  projection : ∀ o, n.projection = some o → o.Within small shown

namespace Links

open Projection

variable {links : Links} {small shown : Nat} {now : Int}

/-- A copy is within the limits when its source is. -/
theorem within_copyAll (hnow : IsInt64 now) (copies : List (Surface × Surface)) {screens : Screens}
    (all : ∀ s, (screens.get s).Within small shown) (s : Surface) :
    ((copyAll now copies screens).get s).Within small shown := by
  induction copies generalizing screens with
  | nil => exact all s
  | cons copy copies ih =>
    have hcopies : copyAll now (copy :: copies) screens =
        copyAll now copies (screens.copy copy.1 copy.2 now) := rfl
    rw [hcopies]
    refine ih fun r => ?_
    by_cases hr : r = copy.2
    · subst hr
      rw [Screens.copy, PerSurface.get_set_self]
      exact (all copy.1).copy hnow
    · rw [Screens.copy, PerSurface.get_set_of_ne _ hr]
      exact all r

theorem within_propagate (links : Links) {screens : Screens} {screen : Screen} {s : Surface}
    (hnow : IsInt64 now) (old : ∀ r, (screens.get r).Within small shown)
    (new : screen.Within small shown) (r : Surface) :
    ((links.propagate s now (screens.set s screen)).get r).Within small shown := by
  refine within_copyAll hnow _ (fun m => ?_) r
  by_cases hms : m = s
  · subst hms
    rwa [PerSurface.get_set_self]
  · rw [PerSurface.get_set_of_ne _ hms]
    exact old m

end Links

namespace Desk

variable {ω : Type} {d : Desk ω} {small shown : Nat}

/-- No text that the desk holds or has told is longer than requests and sources make it, and
every time has sixty-four bits. -/
structure Within (small shown : Nat) (d : Desk ω) : Prop where
  screens : ∀ s, (d.screens.get s).Within small shown
  live : d.live.Within small
  events : d.hub.Holds (Event.Within small shown)

theorem within_initial {screen : Screen} (clock : Clock) (windows : ω)
    (display : screen.display.Within small shown) :
    (Desk.initial screen clock windows).Within small shown where
  screens s := by
    simp only [initial, Screens.initial, PerSurface.get_replicate]
    exact ⟨display, isInt64_zero⟩
  live := ⟨Nat.zero_le _, isInt64_zero, isInt64_zero⟩
  events := Hub.holds_empty _

namespace Within

theorem publish (h : d.Within small shown) {e : Event} (new : e.Within small shown) :
    (d.publish e).Within small shown := ⟨h.screens, h.live, h.events.publish new⟩

theorem windowChanged (h : d.Within small shown) (s : Surface) (isOpen : Bool) :
    (d.windowChanged s isOpen).Within small shown := h.publish trivial

theorem windows (h : d.Within small shown) (windows : ω) :
    ({ d with windows }).Within small shown := ⟨h.screens, h.live, h.events⟩

theorem announce (h : d.Within small shown) (surfaces : List Surface) :
    (d.announce surfaces).Within small shown := by
  refine ⟨h.screens, h.live, h.events.publishAll fun e he => ?_⟩
  obtain ⟨s, -, rfl⟩ := List.mem_map.mp he
  exact h.screens s

/-- A screen that is written, and carried over to the mirrors of its surface, at one reading. -/
theorem spread (h : d.Within small shown) (links : Links) {s : Surface} {screen : Screen}
    (new : screen.Within small shown) (surfaces : List Surface) :
    ({ d with
        links
        screens := links.propagate s d.clock.now (d.screens.set s screen)
        clock := d.clock.tick }.announce surfaces).Within small shown := by
  have hspread : ({ d with
      links
      screens := links.propagate s d.clock.now (d.screens.set s screen)
      clock := d.clock.tick } : Desk ω).Within small shown :=
    ⟨links.within_propagate d.clock.isInt64_now h.screens new, h.live, h.events⟩
  exact hspread.announce surfaces

theorem write (h : d.Within small shown) (s : Surface) {change : Display → Display}
    (keeps : ∀ display, display.Within small shown → (change display).Within small shown) :
    (d.write s change).Within small shown :=
  h.spread d.links (.write d.clock.isInt64_now (keeps _ (h.screens s).display)) _

theorem edit (h : d.Within small shown) {e : Edit} (keeps : e.Keeps small shown)
    (target : Surface) (policy : Policy) :
    (d.edit target e policy).2.Within small shown ∧
      (d.edit target e policy).1.Within small shown := by
  rcases d.edit_cases target e policy with ⟨reason, -, heq⟩ | ⟨s, -, heq⟩
  · rw [heq]
    exact ⟨h, by simp [Outcome.Within, Outcome.refused]⟩
  · rw [heq]
    have hwrite := h.write s keeps
    refine ⟨hwrite, fun screen hscreen => ?_⟩
    obtain rfl := Option.some.inj hscreen
    exact hwrite.screens s

theorem mirroring (h : d.Within small shown) (s source : Surface) :
    (d.mirroring s source).Within small shown :=
  h.spread _ ((h.screens source).copy d.clock.isInt64_now) _

theorem setLink (h : d.Within small shown) (s : Surface) (link : Link) :
    (d.setLink s link).2.Within small shown ∧ ∀ screen, (d.setLink s link).1 = .ok screen →
      screen.Within small shown := by
  rcases d.setLink_cases s link with ⟨refusal, -, heq⟩ | ⟨-, heq⟩ | ⟨source, -, -, heq⟩
  · rw [heq]
    exact ⟨⟨h.screens, h.live, h.events⟩, fun _ hscreen => by cases hscreen⟩
  · rw [heq]
    refine ⟨⟨h.screens, h.live, h.events⟩, fun screen hscreen => ?_⟩
    cases hscreen
    exact h.screens s
  · rw [heq]
    have hmirroring := h.mirroring s source
    refine ⟨hmirroring, fun screen hscreen => ?_⟩
    cases hscreen
    exact hmirroring.screens s

theorem applyLiveMode (h : d.Within small shown) : d.applyLiveMode.Within small shown := by
  have keeps : (Edit.mode d.live.mode).Keeps small shown :=
    Edit.keeps_of_span_le (Nat.zero_le _)
  unfold Desk.applyLiveMode
  split
  · split
    · exact h
    · exact (h.edit keeps _ _).1
  · exact h

theorem mergeLive (h : d.Within small shown) {p : Live.Patch} (hp : p.Within small) :
    (d.mergeLive p).2.Within small shown := by
  have hmerging : (d.merging p).Within small shown :=
    ⟨h.screens, h.live.merge hp d.clock.isInt64_now, h.events⟩
  have hnew : (Event.live (d.merging p).live).Within small shown := hmerging.live
  exact hmerging.applyLiveMode.publish hnew

variable {sources : Sources} {live : Live.State}

/-- What comes of looking up an item: the plan cannot be had, or there is the live state and maybe
an item that the plan holds. -/
def AtCursor (small shown : Nat) (sources : Sources) :
    Except Failure (Live.State × Option Plan.Item) → Prop
  | .error failure => span failure.message ≤ small + shown + 64
  | .ok (live, item) => live.Within small ∧
    ∀ i, item = some i → (i.slide sources).content.span ≤ shown

theorem itemAtCursor (h : d.Within small shown) (limited : sources.Within shown) {planId : String}
    (short : span planId ≤ small) (hlive : live.Within small) :
    (d.itemAtCursor sources planId live).2.Within small shown ∧
      AtCursor small shown sources (d.itemAtCursor sources planId live).1 := by
  unfold Desk.itemAtCursor
  split
  · rename_i failure hfailure
    have hspan := limited.failures planId failure hfailure
    have hcontext := Failure.span_context_le ("failed to load plan " ++ planId) failure
    have hwords : span "failed to load plan " = 20 := by decide
    refine ⟨h, ?_⟩
    rw [span_append, hwords] at hcontext
    simp only [AtCursor]
    omega
  · exact ⟨h, hlive, by simp⟩
  · rename_i plan hplan
    have hitem (n : Nat) (i : Plan.Item) (hi : plan.ordered[n]? = some i) :
        (i.slide sources).content.span ≤ shown :=
      limited.items planId plan hplan i (List.mem_mergeSort.mp (List.mem_of_getElem? hi))
    dsimp only
    split
    · rename_i hlast
      have hcursor := isInt64_iff.mp hlive.cursor
      have hp : (Live.Patch.moveTo ((plan.ordered.length : Int) - 1)).Within small := by
        refine ⟨Nat.zero_le _, fun n hn => ?_⟩
        obtain rfl := Option.some.inj hn
        exact isInt64_iff.mpr (by omega)
      have hmerged := h.mergeLive hp
      refine ⟨hmerged, ?_, hitem _⟩
      rw [← mergeLive_live]
      exact hmerged.live
    · exact ⟨h, hlive, hitem _⟩

variable [Windows ω]

theorem ensureOpen (h : d.Within small shown) (s : Surface) :
    (d.ensureOpen s).Within small shown := by
  rcases d.ensureOpen_cases s with heq | ⟨windows, heq⟩ | ⟨windows, heq⟩
  · rw [heq]
    exact h
  · rw [heq]
    exact h.windows windows
  · rw [heq]
    exact (h.windows windows).windowChanged s true

theorem project (h : d.Within small shown) (target : Surface) {slide : Slide}
    (fits : slide.content.span ≤ small + shown + 64) :
    (d.project target slide).2.Within small shown ∧
      (d.project target slide).1.Within small shown := by
  have keeps := Slide.keeps_edit fits
  unfold Desk.project
  split
  · exact (h.ensureOpen _).edit keeps target .redirect
  · exact h.edit keeps target .redirect

/-- What comes of a step of navigation. -/
def Navigating (small shown : Nat) : Except Failure Navigated → Prop
  | .error failure => span failure.message ≤ small + shown + 64
  | .ok n => n.Within small shown

theorem projectCursor (h : d.Within small shown) (limited : sources.Within shown)
    (hlive : live.Within small) :
    (d.projectCursor sources live).2.Within small shown ∧
      Navigating small shown (d.projectCursor sources live).1 := by
  unfold Desk.projectCursor
  cases hplan : live.activePlan with
  | none => exact ⟨h, hlive, by simp⟩
  | some planId =>
    have hid : live.planId = some planId := by
      unfold Live.State.activePlan at hplan
      split at hplan
      · exact hplan
      · cases hplan
    have hshort : span planId ≤ small := by
      have := hlive.planId
      rwa [hid] at this
    obtain ⟨hmoved, hcursor⟩ := h.itemAtCursor limited hshort hlive
    dsimp only
    generalize d.itemAtCursor sources planId live = result at hmoved hcursor ⊢
    rcases result with ⟨failure | ⟨live', none | item⟩, d'⟩
    · exact ⟨hmoved, hcursor⟩
    · exact ⟨hmoved, hcursor.1, by simp⟩
    · have hslide := hcursor.2 item rfl
      have hroom : (item.slide sources).content.span ≤ small + shown + 64 := by omega
      obtain ⟨hprojected, houtcome⟩ := hmoved.project live'.target hroom
      refine ⟨hprojected, hcursor.1, fun o ho => ?_⟩
      obtain rfl := Option.some.inj ho
      exact houtcome

/-- The live state is merged, and the item at its cursor projected. -/
theorem navigate (h : d.Within small shown) (limited : sources.Within shown) {p : Live.Patch}
    (hp : p.Within small) :
    ((d.mergeLive p).2.projectCursor sources (d.mergeLive p).1).2.Within small shown ∧
      Navigating small shown
        ((d.mergeLive p).2.projectCursor sources (d.mergeLive p).1).1 := by
  have hmerged := h.mergeLive hp
  refine hmerged.projectCursor limited ?_
  rw [← mergeLive_live]
  exact hmerged.live

end Within
end Desk
end Lectern
