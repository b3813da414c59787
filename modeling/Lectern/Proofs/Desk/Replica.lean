import Lectern.Proofs.Desk.Operation
import Lectern.Proofs.Desk.Steps

/-!
# Observers can follow the desk

A replica begins as a copy of the screens and the live state and is overwritten by each
event. Every step publishes events that carry a replica of the desk before it to the desk
after it, so whoever subscribes and goes through the delivered events in order stays in
step: a control window with everything, a display with its screen and the live state.
-/

namespace Lectern

open Projection

/-- What an observer knows of the desk. -/
structure Replica where
  screens : Screens
  live : Live.State
deriving DecidableEq

namespace Replica

def hear (r : Replica) : Event → Replica
  | .screen s screen => { r with screens := r.screens.set s screen }
  | .window _ _ => r
  | .live state => { r with live := state }

def hearAll (r : Replica) (es : List Event) : Replica := es.foldl hear r

@[simp] theorem hearAll_nil (r : Replica) : r.hearAll [] = r := rfl

@[simp] theorem hearAll_append (r : Replica) (es fs : List Event) :
    r.hearAll (es ++ fs) = (r.hearAll es).hearAll fs := List.foldl_append

/-- Announced screens overwrite the old ones; those that are not announced have to be right
already. -/
theorem hearAll_announced (r : Replica) (screens : Screens) (surfaces : List Surface)
    (h : ∀ m ∉ surfaces, r.screens.get m = screens.get m) :
    r.hearAll (surfaces.map fun s => .screen s (screens.get s)) = { r with screens } := by
  induction surfaces generalizing r with
  | nil =>
    have hscreens : r.screens = screens := PerSurface.ext_get fun m => h m (by simp)
    simp [← hscreens]
  | cons s surfaces ih =>
    refine ih (r.hear (.screen s (screens.get s))) fun m hm => ?_
    by_cases hms : m = s
    · subst hms
      exact PerSurface.get_set_self _ _ _
    · exact (PerSurface.get_set_of_ne _ hms _).trans (h m (by simp [hms, hm]))

/-- The screen that the last event about a surface carries. -/
def lastScreen (s : Surface) (es : List Event) : Option Screen :=
  (es.filterMap fun e => match e with
    | .screen m screen => if m = s then some screen else none
    | .window _ _ => none
    | .live _ => none).getLast?

def lastLive (es : List Event) : Option Live.State :=
  (es.filterMap fun e => match e with
    | .screen _ _ => none
    | .window _ _ => none
    | .live state => some state).getLast?

theorem get_hearAll (r : Replica) (es : List Event) (s : Surface) :
    (r.hearAll es).screens.get s = (lastScreen s es).getD (r.screens.get s) := by
  induction es using List.reverseRecOn with
  | nil => rfl
  | append_singleton es e ih =>
    cases e with
    | screen m screen =>
      by_cases hm : m = s
      · subst hm
        simp [hearAll, hear, lastScreen]
      · rw [hearAll_append]
        simpa [hearAll, hear, lastScreen, hm, PerSurface.get_set_of_ne _ (Ne.symm hm)] using ih
    | window m isOpen => simpa [hearAll, hear, lastScreen] using ih
    | live state => simpa [hearAll, hear, lastScreen] using ih

theorem screens_hearAll {r r' : Replica} (h : r.screens = r'.screens) (es : List Event) :
    (r.hearAll es).screens = (r'.hearAll es).screens := by
  apply PerSurface.ext_get
  intro s
  rw [get_hearAll, get_hearAll, h]

theorem live_hearAll (r : Replica) (es : List Event) :
    (r.hearAll es).live = (lastLive es).getD r.live := by
  induction es using List.reverseRecOn with
  | nil => rfl
  | append_singleton es e ih =>
    cases e with
    | screen m screen => simpa [hearAll, hear, lastLive] using ih
    | window m isOpen => simpa [hearAll, hear, lastLive] using ih
    | live state => simp [hearAll, hear, lastLive]

end Replica

/-- Two replicas agree in what a role is told of. -/
def Role.Agree (r r' : Replica) : Role → Prop
  | control => r = r'
  | display s => r.screens.get s = r'.screens.get s ∧ r.live = r'.live

namespace Role

variable {r r' : Replica} {role : Role}

theorem Agree.refl (r : Replica) (role : Role) : role.Agree r r := by
  cases role with
  | control => rfl
  | display s => exact ⟨rfl, rfl⟩

/-- Events that a role is not entitled to make no difference to it. -/
theorem Agree.hear (h : role.Agree r r') (e : Event) :
    role.Agree (r.hearAll ([e].filter role.hears)) (r'.hear e) := by
  cases role with
  | control =>
    obtain rfl : r = r' := h
    rfl
  | display s =>
    obtain ⟨hscreen, hlive⟩ := h
    cases e with
    | screen m screen =>
      by_cases hm : s = m
      · subst hm
        exact ⟨by simp [hears, Replica.hearAll, Replica.hear], by
          simpa [hears, Replica.hearAll, Replica.hear] using hlive⟩
      · refine ⟨?_, by simpa [hears, hm, Replica.hear] using hlive⟩
        simpa [hears, hm, Replica.hear, PerSurface.get_set_of_ne _ hm] using hscreen
    | window m isOpen => exact ⟨by simpa [hears, Replica.hear] using hscreen, hlive⟩
    | live state => exact ⟨hscreen, rfl⟩

theorem Agree.hearAll (h : role.Agree r r') (es : List Event) :
    role.Agree (r.hearAll (es.filter role.hears)) (r'.hearAll es) := by
  induction es generalizing r r' with
  | nil => exact h
  | cons e es ih =>
    have hrest := ih (h.hear e)
    rw [← Replica.hearAll_append, ← List.filter_append] at hrest
    exact hrest

end Role

namespace Desk

variable {ω : Type} {d d' : Desk ω} {id : Nat} {s : Subscription}

def snapshot (d : Desk ω) : Replica := ⟨d.screens, d.live⟩

@[simp] theorem snapshot_screens (d : Desk ω) : d.snapshot.screens = d.screens := rfl

@[simp] theorem snapshot_live (d : Desk ω) : d.snapshot.live = d.live := rfl

/-- The events published between the two desks carry a replica from the one to the other. -/
def Tells (d d' : Desk ω) : Prop :=
  ∃ es, d'.hub = d.hub.publishAll es ∧ d.snapshot.hearAll es = d'.snapshot

theorem Tells.trans {d'' : Desk ω} (h : Tells d d') (h' : Tells d' d'') : Tells d d'' := by
  obtain ⟨es, hhub, hes⟩ := h
  obtain ⟨fs, hhub', hfs⟩ := h'
  refine ⟨es ++ fs, ?_, ?_⟩
  · rw [hhub', hhub, Hub.publishAll_append]
  · rw [Replica.hearAll_append, hes, hfs]

/-- Screens that are announced tell of a desk where nothing else has changed. -/
theorem tells_announce {surfaces : List Surface} (hub : d'.hub = d.hub) (live : d'.live = d.live)
    (h : ∀ m ∉ surfaces, d.screens.get m = d'.screens.get m) :
    Tells d (d'.announce surfaces) := by
  refine ⟨surfaces.map fun m => .screen m (d'.screens.get m), ?_, ?_⟩
  · simp [announce, hub]
  · rw [d.snapshot.hearAll_announced d'.screens surfaces h]
    simp [snapshot, announce, live]

theorem tells_write (d : Desk ω) (s : Surface) (change : Display → Display) :
    Tells d (d.write s change) := by
  refine tells_announce rfl rfl fun m hm => ?_
  exact (Links.get_propagate_set_of_not_mem hm).symm

theorem tells_edit (d : Desk ω) (target : Surface) (e : Edit) (policy : Policy) :
    Tells d (d.edit target e policy).2 := by
  rcases d.edit_cases target e policy with ⟨reason, -, heq⟩ | ⟨s, -, heq⟩
  · rw [heq]
    exact ⟨[], rfl, rfl⟩
  · rw [heq]
    exact tells_write d s e.apply

theorem tells_setLink (d : Desk ω) (s : Surface) (link : Link) : Tells d (d.setLink s link).2 := by
  rcases d.setLink_cases s link with ⟨refusal, -, heq⟩ | ⟨-, heq⟩ | ⟨source, -, -, heq⟩
  · rw [heq]
    exact ⟨[], rfl, rfl⟩
  · rw [heq]
    exact ⟨[], rfl, rfl⟩
  · rw [heq]
    exact tells_announce rfl rfl fun m hm => (Links.get_propagate_set_of_not_mem hm).symm

/-- A merge tells of the screens first and of the live state in the end. -/
theorem tells_mergeLive (d : Desk ω) (patch : Live.Patch) : Tells d (d.mergeLive patch).2 := by
  have hmode : Tells (d.merging patch) (d.merging patch).applyLiveMode := by
    rcases (d.merging patch).applyLiveMode_cases with heq | ⟨s, change, heq⟩
    · rw [heq]
      exact ⟨[], rfl, rfl⟩
    · rw [heq]
      exact tells_write _ s change
  obtain ⟨es, hhub, hes⟩ := hmode
  refine ⟨es ++ [.live (d.merging patch).live], ?_, ?_⟩
  · rw [Hub.publishAll_append]
    exact congrArg (Hub.publish · _) hhub
  · -- the screens do not depend on the live state the replica has in the meantime
    have hscreens : (d.snapshot.hearAll es).screens = (d.merging patch).applyLiveMode.screens := by
      have hsame : d.snapshot.screens = (d.merging patch).snapshot.screens := rfl
      rw [Replica.screens_hearAll hsame es, hes]
      rfl
    rw [Replica.hearAll_append, mergeLive_eq]
    simp [Replica.hearAll, Replica.hear, snapshot, ← hscreens]

theorem fresh_of_tells {d d' : Desk ω} (h : Tells d d') (fresh : d.hub.Fresh) : d'.hub.Fresh := by
  obtain ⟨es, hhub, -⟩ := h
  rw [hhub]
  exact fresh.publishAll es

theorem tells_stepwise : Stepwise fun d d' : Desk ω => Tells d d' where
  refl _ := ⟨[], rfl, rfl⟩
  trans := Tells.trans
  edit := tells_edit
  setLink := tells_setLink
  mergeLive := tells_mergeLive
  windowChanged _ s isOpen := ⟨[.window s isOpen], rfl, rfl⟩
  windows _ _ := ⟨[], rfl, rfl⟩

variable [Windows ω]

/-- Every operation but one of observers publishes what it has changed. -/
theorem tells_perform (d : Desk ω) {operation : Operation ω}
    (h : ∀ o, operation ≠ .observe o) : Tells d (d.perform operation) :=
  tells_stepwise.perform d fun o ho => absurd ho (h o)

theorem Reachable.fresh {d : Desk ω} (h : d.Reachable) : d.hub.Fresh := by
  induction h with
  | initial screen clock windows => exact Hub.fresh_empty
  | @perform d operation _ ih =>
    by_cases hobserve : ∃ o, operation = .observe o
    · obtain ⟨o, rfl⟩ := hobserve
      exact ih.observe o
    · exact fresh_of_tells (tells_perform d fun o ho => hobserve ⟨o, ho⟩) ih

/-- The events that the subscription `id` hands out along a run. -/
def handed (id : Nat) : Desk ω → List (Operation ω) → List Event
  | _, [] => []
  | d, .observe o :: rest => o.handed id d.hub ++ (d.perform (.observe o)).handed id rest
  | d, operation :: rest => (d.perform operation).handed id rest

/-- The events delivered to a subscription along a run: those handed out and those that wait
in the end. -/
def delivered (d : Desk ω) (id : Nat) (operations : List (Operation ω)) : List Event :=
  d.handed id operations ++ (d.run operations).hub.queue id

theorem handed_cons_of_ne {operation : Operation ω} (h : ∀ o, operation ≠ .observe o)
    (d : Desk ω) (id : Nat) (rest : List (Operation ω)) :
    d.handed id (operation :: rest) = (d.perform operation).handed id rest := by
  cases operation with
  | observe o => exact absurd rfl (h o)
  | _ => rfl

theorem delivered_observe (d : Desk ω) (id : Nat) (o : Observation)
    (rest : List (Operation ω)) :
    d.delivered id (.observe o :: rest) =
      o.handed id d.hub ++ (d.perform (.observe o)).delivered id rest :=
  List.append_assoc _ _ _

theorem delivered_cons_of_ne {operation : Operation ω} (h : ∀ o, operation ≠ .observe o)
    (d : Desk ω) (id : Nat) (rest : List (Operation ω)) :
    d.delivered id (operation :: rest) = (d.perform operation).delivered id rest := by
  rw [delivered, handed_cons_of_ne h]
  rfl

/-- A replica that agrees with the desk when it has heard all that waits for it goes on to
agree, whatever is done to the desk and however the observers read. -/
theorem agree_run {d : Desk ω} {id : Nat} {s : Subscription} {r : Replica}
    (found : d.hub.find? id = some s) (agree : s.role.Agree (r.hearAll s.queue) d.snapshot)
    (operations : List (Operation ω)) (kept : .observe (.dispose id) ∉ operations) :
    s.role.Agree (r.hearAll (d.delivered id operations)) (d.run operations).snapshot := by
  induction operations generalizing d s r with
  | nil => simpa [delivered, handed, run, Hub.queue_of_find? found] using agree
  | cons operation rest ih =>
    obtain ⟨hne, hkept⟩ : operation ≠ .observe (.dispose id) ∧
        .observe (.dispose id) ∉ rest := by
      simpa [eq_comm] using kept
    by_cases hobserve : ∃ o, operation = .observe o
    · obtain ⟨o, rfl⟩ := hobserve
      obtain ⟨waiting, hfound, hqueue⟩ := Observation.find?_apply found fun ho => hne (ho ▸ rfl)
      have hnext := ih (d := d.perform (.observe o)) (r := r.hearAll (o.handed id d.hub))
        hfound (by rwa [← Replica.hearAll_append, hqueue]) hkept
      rwa [delivered_observe, Replica.hearAll_append]
    · have hop : ∀ o, operation ≠ .observe o := fun o ho => hobserve ⟨o, ho⟩
      obtain ⟨es, hhub, hes⟩ := tells_perform d hop
      have hfound := Hub.find?_publishAll found es
      rw [← hhub] at hfound
      have hagree := agree.hearAll es
      rw [hes, ← Replica.hearAll_append] at hagree
      have hnext := ih hfound hagree hkept
      rw [delivered_cons_of_ne hop]
      exact hnext

/-- Whoever subscribes and applies the delivered events to a snapshot taken then stays in step
with the desk, and no operation changes a screen or the live state without a last event that
carries the result. -/
theorem Reachable.replica_agrees {d : Desk ω} (h : d.Reachable) :
    (∀ (role : Role) (operations : List (Operation ω)),
      .observe (.dispose (d.subscribe role).1) ∉ operations →
      role.Agree
        ((d.subscribe role).2.snapshot.hearAll
          ((d.subscribe role).2.delivered (d.subscribe role).1 operations))
        ((d.subscribe role).2.run operations).snapshot) ∧
    ∀ operation : Operation ω, (∀ o, operation ≠ .observe o) →
      ∃ es, (d.perform operation).hub = d.hub.publishAll es ∧
        (∀ s, (d.perform operation).screens.get s ≠ d.screens.get s →
          Replica.lastScreen s es = some ((d.perform operation).screens.get s)) ∧
        ((d.perform operation).live ≠ d.live →
          Replica.lastLive es = some (d.perform operation).live) := by
  refine ⟨fun role operations kept => ?_, fun operation hop => ?_⟩
  · have hfound := h.fresh.find?_subscribe_new role
    exact agree_run (d := (d.subscribe role).2) hfound (Role.Agree.refl _ role) operations kept
  · obtain ⟨es, hhub, hes⟩ := tells_perform d hop
    refine ⟨es, hhub, fun s hs => ?_, fun hlive => ?_⟩
    · have hget := d.snapshot.get_hearAll es s
      rw [hes] at hget
      -- without an event the screen would be the old one
      exact (Option.getD_eq_iff.mp hget.symm).resolve_right fun hnone => hs hnone.2.symm
    · have hget := d.snapshot.live_hearAll es
      rw [hes] at hget
      exact (Option.getD_eq_iff.mp hget.symm).resolve_right fun hnone => hlive hnone.2.symm

theorem replica_agrees_rehearsal :
    opening.Reachable ∧
      Operation.observe (.dispose (opening.subscribe (.display .c)).1) ∉ rehearsal ∧
      (Role.display .c).Agree
        ((opening.subscribe (.display .c)).2.snapshot.hearAll
          ((opening.subscribe (.display .c)).2.delivered
            (opening.subscribe (.display .c)).1 rehearsal))
        ((opening.subscribe (.display .c)).2.run rehearsal).snapshot := by
  have hkept :
      Operation.observe (.dispose (opening.subscribe (.display .c)).1) ∉ rehearsal := by
    simp [rehearsal]
  have hagree := (Reachable.replica_agrees reachable_opening).1 (.display .c) rehearsal hkept
  exact ⟨reachable_opening, hkept, hagree⟩

end Desk
end Lectern
