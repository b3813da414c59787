import Lectern.Proofs.Desk.Replica
import Mathlib.Data.List.Chain

/-!
# Times order the history

Whatever the clock shows, every write of a screen is stamped later than the write before it,
and so is every merge of the live state, until sixty-four bits have no later time. An operation
publishes one event for each write, in the order of the writes of a surface, and a role hears
all of them or none, so the times a subscription is told of one surface, and those it is told of
the live state, only ever increase.
-/

namespace Lectern

open Projection

/-- What an event says about the screen of a surface. -/
def Event.screenOf? (s : Surface) : Event → Option Screen
  | screen m x => if m = s then some x else none
  | window _ _ => none
  | live _ => none

def Event.live? : Event → Option Live.State
  | screen _ _ => none
  | window _ _ => none
  | live state => some state

/-- The screen after one write. -/
def Projection.Screen.Written (before after : Screen) : Prop :=
  ∃ now change, after = before.write now change

/-- The live state after one merge. -/
def Live.State.Updated (before after : State) : Prop :=
  ∃ patch now, after = before.merge patch now

/-- The time that follows is later, unless there is no later one. -/
def Later (t u : Int) : Prop := IsInt64 (t + 1) → t < u

/-- Each time is later than those before it, as long as what follows a time fits. -/
def InOrder (times : List Int) : Prop :=
  (∀ t ∈ times.dropLast, IsInt64 (t + 1)) → times.Pairwise (· < ·)

theorem Projection.Screen.Written.later {before after : Screen} (h : before.Written after) :
    Later before.updatedAt after.updatedAt := by
  obtain ⟨now, change, rfl⟩ := h
  exact Screen.lt_stamp now

theorem Projection.Screen.Written.ne {before after : Screen} (h : before.Written after)
    (fits : IsInt64 (before.updatedAt + 1)) : after ≠ before := by
  obtain ⟨now, change, rfl⟩ := h
  exact Screen.write_ne fits now change

theorem Live.State.Updated.later {before after : State} (h : before.Updated after) :
    Later before.updatedAt after.updatedAt := by
  obtain ⟨patch, now, rfl⟩ := h
  exact Screen.lt_stamp now

theorem inOrder_of_isChain {times : List Int} (h : times.IsChain Later) : InOrder times := by
  intro fits
  refine List.IsChain.pairwise ?_
  induction h with
  | nil => exact .nil
  | singleton t => exact .singleton t
  | @cons_cons t u times hlater _ ih =>
    rw [List.dropLast_cons_cons] at fits
    obtain ⟨hfits, hrest⟩ := List.forall_mem_cons.mp fits
    exact .cons_cons (hlater hfits) (ih hrest)

/-- The values that something takes one after another, from `x` on and up to `z`. -/
inductive Passes {α : Type} (R : α → α → Prop) : α → List α → α → Prop
  | nil (x : α) : Passes R x [] x
  | cons {x y z : α} {ys : List α} : R x y → Passes R y ys z → Passes R x (y :: ys) z

namespace Passes

variable {α β : Type} {R : α → α → Prop} {x y z : α} {ys zs : List α}

theorem single (h : R x y) : Passes R x [y] y := .cons h (.nil y)

theorem append (h : Passes R x ys y) (h' : Passes R y zs z) : Passes R x (ys ++ zs) z := by
  induction h with
  | nil => exact h'
  | cons hxy _ ih => exact .cons hxy (ih h')

theorem map {S : β → β → Prop} (f : α → β) (hf : ∀ {x y}, R x y → S (f x) (f y))
    (h : Passes R x ys z) : Passes S (f x) (ys.map f) (f z) := by
  induction h with
  | nil => exact .nil _
  | cons hxy _ ih => exact .cons (hf hxy) ih

theorem eq_of_nil (h : Passes R x [] z) : z = x := by
  cases h with
  | nil => rfl

theorem isChain (h : Passes R x ys z) : (x :: ys).IsChain R := by
  induction h with
  | nil x => exact .singleton x
  | cons hxy _ ih => exact .cons_cons hxy ih

end Passes

namespace Links

variable {links : Links} {s m : Surface} {now : Int} {screens : Screens}

/-- Whatever a write is carried over to is written once. -/
theorem written_propagate {screen : Screen} (h : (screens.get s).Written screen)
    (hm : m ∈ s :: links.followers s) :
    (screens.get m).Written ((links.propagate s now (screens.set s screen)).get m) := by
  by_cases hms : m = s
  · subst hms
    have hself : (links.propagate m now (screens.set m screen)).get m = screen :=
      (get_copyAll_of_not_mem (not_mem_followers_self links m)).trans
        (PerSurface.get_set_self _ _ _)
    rwa [hself]
  · have hfollower : m ∈ links.followers s := List.mem_of_ne_of_mem hms hm
    obtain ⟨⟨p, k⟩, hcopy, rfl⟩ := List.mem_map.mp hfollower
    have hget : (links.propagate s now (screens.set s screen)).get k = _ :=
      (carries_spread links s).get_copyAll hcopy
    rw [PerSurface.get_set_of_ne _ hms] at hget
    exact ⟨_, _, hget⟩

end Links

namespace Desk

variable {ω : Type} {d d' d'' : Desk ω} {es fs : List Event}

/-- Between the two desks each surface has been written and the live state has been merged as
often as the events say, each time to the value that the event carries. -/
structure Chronicle (d d' : Desk ω) (es : List Event) : Prop where
  screens : ∀ s, Passes Screen.Written (d.screens.get s)
    (es.filterMap (Event.screenOf? s)) (d'.screens.get s)
  live : Passes Live.State.Updated d.live (es.filterMap Event.live?) d'.live

namespace Chronicle

theorem refl (d : Desk ω) : Chronicle d d [] := ⟨fun _ => .nil _, .nil _⟩

theorem append (h : Chronicle d d' es) (h' : Chronicle d' d'' fs) :
    Chronicle d d'' (es ++ fs) where
  screens s := by
    rw [List.filterMap_append]
    exact (h.screens s).append (h'.screens s)
  live := by
    rw [List.filterMap_append]
    exact h.live.append h'.live

theorem screen_times (h : Chronicle d d' es) (s : Surface) :
    ((d.screens.get s).updatedAt ::
      (es.filterMap (Event.screenOf? s)).map Screen.updatedAt).IsChain Later :=
  ((h.screens s).map Screen.updatedAt fun h => h.later).isChain

theorem live_times (h : Chronicle d d' es) :
    (d.live.updatedAt :: (es.filterMap Event.live?).map Live.State.updatedAt).IsChain Later :=
  (h.live.map Live.State.updatedAt fun h => h.later).isChain

end Chronicle

/-- Of all screens those of the surfaces `tree` are written, once each. -/
structure Writes (tree : Surface → Prop) (d d' : Desk ω) : Prop where
  written : ∀ {s}, tree s → (d.screens.get s).Written (d'.screens.get s)
  kept : ∀ {s}, ¬ tree s → d'.screens.get s = d.screens.get s

namespace Writes

variable {tree : Surface → Prop} {s : Surface}

/-- A write shows, if only in the time. -/
theorem changed (h : Writes tree d d') (hs : tree s)
    (fits : IsInt64 ((d.screens.get s).updatedAt + 1)) :
    d'.screens.get s ≠ d.screens.get s := (h.written hs).ne fits

theorem of_same (same : d'.screens = d.screens) : Writes (fun _ => False) d d' :=
  ⟨False.elim, fun _ => by rw [same]⟩

/-- Only the screens count. -/
theorem congr (h : Writes tree d d') (same : d''.screens = d'.screens) : Writes tree d d'' where
  written hs := by
    rw [same]
    exact h.written hs
  kept hs := by
    rw [same]
    exact h.kept hs

end Writes

/-- A screen that is written is carried over to the surfaces under its own. -/
theorem writes_propagate {links : Links} (forest : links.Forest) {s : Surface} {screen : Screen}
    (written : (d.screens.get s).Written screen) {now : Int}
    (screens : d'.screens = links.propagate s now (d.screens.set s screen)) :
    Writes (links.Under · s) d d' where
  written hm := by
    rw [screens]
    exact Links.written_propagate written (forest.mem_tree.mpr hm)
  kept hm := by
    rw [screens]
    exact Links.get_propagate_set_of_not_mem fun h => hm (forest.mem_tree.mp h)

/-- An announcement of surfaces that are told of once each, as they are. -/
theorem filterMap_screenOf?_announced (screens : Screens) {surfaces : List Surface}
    (nodup : surfaces.Nodup) (s : Surface) :
    (surfaces.map fun m => Event.screen m (screens.get m)).filterMap (Event.screenOf? s) =
      if s ∈ surfaces then [screens.get s] else [] := by
  induction surfaces with
  | nil => rfl
  | cons m surfaces ih =>
    obtain ⟨hm, hrest⟩ := List.nodup_cons.mp nodup
    rw [List.map_cons, List.filterMap_cons, ih hrest]
    by_cases hms : m = s
    · subst hms
      simp [Event.screenOf?, hm]
    · simp [Event.screenOf?, hms, Ne.symm hms]

theorem filterMap_live?_announced (screens : Screens) (surfaces : List Surface) :
    (surfaces.map fun m => Event.screen m (screens.get m)).filterMap Event.live? = [] := by
  simp [List.filterMap_map, Event.live?, Function.comp_def]

/-- Surfaces that have been written once each and are announced make a chronicle. -/
theorem chronicle_announced {surfaces : List Surface} (nodup : surfaces.Nodup)
    (written : ∀ s ∈ surfaces, (d.screens.get s).Written (d'.screens.get s))
    (kept : ∀ s ∉ surfaces, d'.screens.get s = d.screens.get s) (live : d'.live = d.live) :
    Chronicle d d' (surfaces.map fun s => .screen s (d'.screens.get s)) where
  screens s := by
    rw [filterMap_screenOf?_announced d'.screens nodup]
    split_ifs with hs
    · exact .single (written s hs)
    · rw [kept s hs]
      exact .nil _
  live := by
    rw [filterMap_live?_announced, live]
    exact .nil _

/-- What has been published tells of every write and of every merge, in this order. -/
def Chronicles (d d' : Desk ω) : Prop :=
  ∃ es, d'.hub = d.hub.publishAll es ∧ Chronicle d d' es

theorem Chronicles.refl (d : Desk ω) : Chronicles d d := ⟨[], rfl, .refl d⟩

theorem Chronicles.trans (h : Chronicles d d') (h' : Chronicles d' d'') : Chronicles d d'' := by
  obtain ⟨es, hhub, hes⟩ := h
  obtain ⟨fs, hhub', hfs⟩ := h'
  refine ⟨es ++ fs, ?_, hes.append hfs⟩
  rw [hhub', hhub, Hub.publishAll_append]

theorem chronicle_write (d : Desk ω) (s : Surface) (change : Display → Display) :
    Chronicle d (d.write s change)
      ((s :: d.links.followers s).map fun m => .screen m ((d.write s change).screens.get m)) := by
  refine chronicle_announced (Links.nodup_tree d.links s) (fun m hm => ?_) (fun m hm => ?_) rfl
  · rw [write_screens]
    exact Links.written_propagate ⟨_, _, rfl⟩ hm
  · rw [write_screens]
    exact Links.get_propagate_set_of_not_mem hm

theorem chronicles_edit (d : Desk ω) (target : Surface) (e : Edit) (policy : Policy) :
    Chronicles d (d.edit target e policy).2 := by
  rcases d.edit_cases target e policy with ⟨reason, -, heq⟩ | ⟨s, -, heq⟩
  · rw [heq]
    exact .refl d
  · rw [heq]
    exact ⟨_, write_hub d s e.apply, chronicle_write d s e.apply⟩

theorem chronicles_setLink (d : Desk ω) (s : Surface) (link : Link) :
    Chronicles d (d.setLink s link).2 := by
  rcases d.setLink_cases s link with ⟨refusal, -, heq⟩ | ⟨-, heq⟩ | ⟨source, -, -, heq⟩
  · rw [heq]
    exact ⟨[], rfl, fun _ => .nil _, .nil _⟩
  · rw [heq]
    exact ⟨[], rfl, fun _ => .nil _, .nil _⟩
  · rw [heq]
    refine ⟨_, rfl, chronicle_announced (Links.nodup_tree _ s) (fun m hm => ?_)
      (fun m hm => ?_) rfl⟩
    · exact Links.written_propagate ⟨_, _, rfl⟩ hm
    · exact Links.get_propagate_set_of_not_mem hm

/-- The screens that a merge writes are told of first, and then the one merge. -/
theorem chronicles_mergeLive (d : Desk ω) (patch : Live.Patch) :
    Chronicles d (d.mergeLive patch).2 := by
  obtain ⟨es, hlive, hhub, hes⟩ : ∃ es, es.filterMap Event.live? = [] ∧
      (d.merging patch).applyLiveMode.hub = d.hub.publishAll es ∧
      Chronicle (d.merging patch) (d.merging patch).applyLiveMode es := by
    rcases (d.merging patch).applyLiveMode_cases with heq | ⟨s, change, heq⟩
    · rw [heq]
      exact ⟨[], rfl, rfl, .refl _⟩
    · rw [heq]
      exact ⟨_, filterMap_live?_announced _ _, write_hub _ s change, chronicle_write _ s change⟩
  refine ⟨es ++ [.live (d.merging patch).live], ?_, fun s => ?_, ?_⟩
  · rw [Hub.publishAll_append, ← hhub]
    rfl
  · have hnone : [Event.live (d.merging patch).live].filterMap (Event.screenOf? s) = [] := rfl
    rw [List.filterMap_append, hnone, List.append_nil]
    exact hes.screens s
  · rw [List.filterMap_append, hlive, mergeLive_live]
    exact .single ⟨patch, d.clock.now, rfl⟩

theorem chronicles_stepwise : Stepwise fun d d' : Desk ω => Chronicles d d' where
  refl := Chronicles.refl
  trans := Chronicles.trans
  edit := chronicles_edit
  setLink := chronicles_setLink
  mergeLive := chronicles_mergeLive
  windowChanged _ s isOpen := ⟨[.window s isOpen], rfl, fun _ => .nil _, .nil _⟩
  windows _ _ := ⟨[], rfl, fun _ => .nil _, .nil _⟩

section Delivery

variable [Windows ω]

theorem chronicles_perform (d : Desk ω) {operation : Operation ω}
    (h : ∀ o, operation ≠ .observe o) : Chronicles d (d.perform operation) :=
  chronicles_stepwise.perform d fun o ho => absurd ho (h o)

/-- An operation of observers writes nothing and merges nothing. -/
theorem chronicle_perform (d : Desk ω) (operation : Operation ω) :
    ∃ es, ((∀ o, operation ≠ .observe o) → (d.perform operation).hub = d.hub.publishAll es) ∧
      Chronicle d (d.perform operation) es := by
  by_cases hobserve : ∃ o, operation = .observe o
  · obtain ⟨o, rfl⟩ := hobserve
    exact ⟨[], fun hop => absurd rfl (hop o), fun _ => .nil _, .nil _⟩
  · obtain ⟨es, hhub, hes⟩ := chronicles_perform d fun o ho => hobserve ⟨o, ho⟩
    exact ⟨es, fun _ => hhub, hes⟩

theorem chronicle_run (d : Desk ω) (operations : List (Operation ω)) :
    ∃ es, Chronicle d (d.run operations) es := by
  induction operations generalizing d with
  | nil => exact ⟨[], .refl d⟩
  | cons operation rest ih =>
    obtain ⟨es, -, hes⟩ := chronicle_perform d operation
    obtain ⟨fs, hfs⟩ := ih (d.perform operation)
    exact ⟨es ++ fs, hes.append hfs⟩

/-- A subscription that is gone is told of nothing any more. -/
theorem delivered_of_gone {id : Nat} (gone : d.hub.Gone id) (operations : List (Operation ω)) :
    d.delivered id operations = [] := by
  induction operations generalizing d with
  | nil => exact gone.queue
  | cons operation rest ih =>
    by_cases hobserve : ∃ o, operation = .observe o
    · obtain ⟨o, rfl⟩ := hobserve
      rw [delivered_observe, gone.handed o, List.nil_append]
      exact ih (gone.observe o)
    · have hop : ∀ o, operation ≠ .observe o := fun o ho => hobserve ⟨o, ho⟩
      obtain ⟨es, hhub, -⟩ := chronicles_perform d hop
      rw [delivered_cons_of_ne hop]
      exact ih (hhub ▸ gone.publishAll es)

/-- A subscription delivers what waits for it and then what its role hears of the history, in this
order, until it is disposed of. -/
theorem delivered_prefix {id : Nat} {s : Subscription} (h : d.Reachable)
    (found : d.hub.find? id = some s) (operations : List (Operation ω)) :
    ∃ es, Chronicle d (d.run operations) es ∧
      d.delivered id operations <+: s.queue ++ es.filter s.role.hears := by
  induction operations generalizing d s with
  | nil => exact ⟨[], .refl d, by simp [delivered, handed, run, Hub.queue_of_find? found]⟩
  | cons operation rest ih =>
    by_cases hobserve : ∃ o, operation = .observe o
    · obtain ⟨o, rfl⟩ := hobserve
      by_cases hdispose : o = .dispose id
      · subst hdispose
        have hgone := delivered_of_gone (d := d.perform (.observe (.dispose id)))
          (h.fresh.gone_dispose found) rest
        obtain ⟨es, hes⟩ := chronicle_run (d.perform (.observe (.dispose id))) rest
        refine ⟨es, ⟨hes.screens, hes.live⟩, ?_⟩
        rw [delivered_observe, hgone]
        exact List.nil_prefix
      · obtain ⟨waiting, hfound, hqueue⟩ := Observation.find?_apply found hdispose
        obtain ⟨es, hes, hprefix⟩ := ih (h.perform (.observe o)) hfound
        refine ⟨es, ⟨hes.screens, hes.live⟩, ?_⟩
        rw [delivered_observe, ← hqueue, List.append_assoc]
        exact (List.prefix_append_right_inj _).mpr hprefix
    · have hop : ∀ o, operation ≠ .observe o := fun o ho => hobserve ⟨o, ho⟩
      obtain ⟨es, hhub, hchronicle⟩ := chronicles_perform d hop
      have hfound := Hub.find?_publishAll found es
      rw [← hhub] at hfound
      obtain ⟨fs, hfs, hprefix⟩ := ih (h.perform operation) hfound
      refine ⟨es ++ fs, hchronicle.append hfs, ?_⟩
      rwa [delivered_cons_of_ne hop, List.filter_append, ← List.append_assoc]

theorem filterMap_heard {α : Type} {f : Event → Option α} {role : Role}
    (heard : ∀ e a, f e = some a → role.hears e = true) (es : List Event) :
    (es.filter role.hears).filterMap f = es.filterMap f := by
  rw [List.filterMap_filter]
  refine List.filterMap_congr fun e _ => ?_
  split_ifs with hears
  · rfl
  · exact (Option.eq_none_iff_forall_ne_some.mpr fun a ha => hears (heard e a ha)).symm

/-- A role hears of the screens of a surface always or never. -/
theorem filterMap_screenOf?_heard (role : Role) (s : Surface) (es : List Event) :
    (es.filter role.hears).filterMap (Event.screenOf? s) = es.filterMap (Event.screenOf? s) ∨
      (es.filter role.hears).filterMap (Event.screenOf? s) = [] := by
  cases role with
  | control => exact .inl (filterMap_heard (fun _ _ _ => rfl) es)
  | display r =>
    by_cases hrs : r = s
    · subst hrs
      refine .inl (filterMap_heard (fun e x he => ?_) es)
      cases e with
      | screen m screen => by_cases hm : m = r <;> simp_all [Role.hears, Event.screenOf?]
      | window m isOpen => cases he
      | live state => rfl
    · refine .inr (List.filterMap_eq_nil_iff.mpr fun e he => ?_)
      obtain ⟨-, hears⟩ := List.mem_filter.mp he
      cases e with
      | screen m screen =>
        have hm : r = m := by simpa [Role.hears] using hears
        simp [Event.screenOf?, ← hm, hrs]
      | window m isOpen => rfl
      | live state => rfl

/-- Every role hears of the live state. -/
theorem filterMap_live?_heard (role : Role) (es : List Event) :
    (es.filter role.hears).filterMap Event.live? = es.filterMap Event.live? := by
  refine filterMap_heard (fun e x he => ?_) es
  cases e with
  | live state => cases role <;> rfl
  | _ => cases he

/-- What is told of something first is in the order of what has become of it. -/
theorem isChain_of_prefix {now : Int} {times told : List Int} (h : (now :: times).IsChain Later)
    (first : told <+: times) : (now :: told).IsChain Later :=
  h.prefix ((List.prefix_cons_inj now).mpr first)

/-- The history of the desk in times. Every operation publishes the writes of each surface and
the merges of the live state in the order in which they were made, each stamped later than the
one before; what it does not write it leaves as it is. Every merge is stamped later than the
one before it. And whoever subscribes, and for as long as that may be, is told of the screens of
a surface and of the live states in the order of their times, all of them later than what
there was when the subscription began. All this holds as long as no time but the latest is the
last of sixty-four bits. -/
theorem Reachable.times_increase (h : d.Reachable) :
    (∀ operation : Operation ω, ∃ es,
      ((∀ o, operation ≠ .observe o) → (d.perform operation).hub = d.hub.publishAll es) ∧
      Chronicle d (d.perform operation) es ∧
      (∀ s, InOrder ((d.screens.get s).updatedAt ::
        (es.filterMap (Event.screenOf? s)).map Screen.updatedAt)) ∧
      (∀ s, es.filterMap (Event.screenOf? s) = [] →
        (d.perform operation).screens.get s = d.screens.get s) ∧
      InOrder (d.live.updatedAt :: (es.filterMap Event.live?).map Live.State.updatedAt)) ∧
    (∀ patch, IsInt64 (d.live.updatedAt + 1) →
      d.live.updatedAt < (d.mergeLive patch).2.live.updatedAt) ∧
    ∀ (role : Role) (operations : List (Operation ω)),
      (∀ s, InOrder ((d.screens.get s).updatedAt ::
        (((d.subscribe role).2.delivered (d.subscribe role).1 operations).filterMap
          (Event.screenOf? s)).map Screen.updatedAt)) ∧
      InOrder (d.live.updatedAt ::
        (((d.subscribe role).2.delivered (d.subscribe role).1 operations).filterMap
          Event.live?).map Live.State.updatedAt) := by
  refine ⟨fun operation => ?_, fun patch => ?_, fun role operations => ?_⟩
  · obtain ⟨es, hhub, hes⟩ := chronicle_perform d operation
    refine ⟨es, hhub, hes, fun s => inOrder_of_isChain (hes.screen_times s), fun s hs => ?_,
      inOrder_of_isChain hes.live_times⟩
    have hpasses := hes.screens s
    rw [hs] at hpasses
    exact hpasses.eq_of_nil
  · have hupdated : d.live.Updated (d.mergeLive patch).2.live := by
      rw [mergeLive_live]
      exact ⟨patch, d.clock.now, rfl⟩
    exact hupdated.later
  · obtain ⟨es, hes, hprefix⟩ := delivered_prefix (h.perform (.observe (.subscribe role)))
      (h.fresh.find?_subscribe_new role) operations
    rw [List.nil_append] at hprefix
    refine ⟨fun s => inOrder_of_isChain ?_, inOrder_of_isChain ?_⟩
    · have htold := hprefix.filterMap (Event.screenOf? s)
      rcases filterMap_screenOf?_heard role s es with heard | unheard
      · rw [heard] at htold
        exact isChain_of_prefix (hes.screen_times s) (htold.map Screen.updatedAt)
      · rw [unheard] at htold
        have hnothing : ((d.subscribe role).2.delivered (d.subscribe role).1 operations).filterMap
            (Event.screenOf? s) = [] := List.prefix_nil.mp htold
        rw [hnothing]
        exact .singleton _
    · have htold := hprefix.filterMap Event.live?
      rw [filterMap_live?_heard] at htold
      exact isChain_of_prefix hes.live_times (htold.map Live.State.updatedAt)

end Delivery

/-- The clock of the rehearsal runs backwards, the times that C is told of do not. -/
theorem times_increase_rehearsal :
    opening.Reachable ∧
      (((opening.subscribe (.display .c)).2.delivered (opening.subscribe (.display .c)).1
        rehearsal).filterMap (Event.screenOf? .c)).map Screen.updatedAt = [1000, 1001] ∧
      ((opening.screens.get .c).updatedAt ::
        (((opening.subscribe (.display .c)).2.delivered (opening.subscribe (.display .c)).1
          rehearsal).filterMap (Event.screenOf? .c)).map Screen.updatedAt).Pairwise (· < ·) := by
  have hdelivered := (Reachable.times_increase reachable_opening).2.2 (.display .c) rehearsal
  have times : (((opening.subscribe (.display .c)).2.delivered (opening.subscribe (.display .c)).1
      rehearsal).filterMap (Event.screenOf? .c)).map Screen.updatedAt = [1000, 1001] := by rfl
  refine ⟨reachable_opening, times, hdelivered.1 .c ?_⟩
  rw [times]
  decide

end Desk
end Lectern
