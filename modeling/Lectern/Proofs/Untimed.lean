import Lectern.Proofs.Desk.Operation

/-!
# Leaving out the times

What is left of screens, live states, events, queues and answers when every time is taken
out of them. Publishing and observing are the same with the times as without, as no role and
no reading of a queue depends on them.
-/

namespace Lectern

open Projection

/-- The screen as if it had never been written. -/
def Projection.Screen.untimed (s : Screen) : Screen := { s with updatedAt := 0 }

theorem Projection.Screen.untimed_eq_iff {s t : Screen} :
    s.untimed = t.untimed ↔ s.display = t.display := by
  simp [untimed]

namespace Live.State

def untimed (s : State) : State := { s with updatedAt := 0 }

/-- A merge leaves out the time of the merge before it. -/
theorem untimed_merge (s : State) (patch : Patch) (now : Int) :
    (s.merge patch now).untimed = s.untimed.merged patch := rfl

end Live.State

namespace Outcome

def untimed (o : Outcome) : Outcome := { o with screen := o.screen.map Screen.untimed }

theorem untimed_applied {s : Surface} {x y : Screen} (h : x.display = y.display) :
    (applied s x).untimed = (applied s y).untimed := by
  simp [untimed, applied, Screen.untimed_eq_iff.mpr h]

end Outcome

def Navigated.untimed (n : Navigated) : Navigated :=
  ⟨n.live.untimed, n.projection.map Outcome.untimed⟩

theorem Navigated.untimed_congr {live live' : Live.State} {projection projection' : Option Outcome}
    (hlive : live.untimed = live'.untimed)
    (hprojection : projection.map Outcome.untimed = projection'.map Outcome.untimed) :
    (Navigated.mk live projection).untimed = (Navigated.mk live' projection').untimed := by
  rw [untimed, untimed, hlive, hprojection]

def Answer.untimed : Answer → Answer
  | none => none
  | outcome o => outcome o.untimed
  | link result => link (result.map Screen.untimed)
  | live state => live state.untimed
  | navigation result => navigation (result.map Navigated.untimed)

def Event.untimed : Event → Event
  | screen s x => screen s x.untimed
  | window s isOpen => window s isOpen
  | live state => live state.untimed

@[simp] theorem Role.hears_untimed (role : Role) (e : Event) :
    role.hears e.untimed = role.hears e := by
  cases role <;> cases e <;> rfl

def Subscription.untimed (s : Subscription) : Subscription :=
  { s with queue := s.queue.map Event.untimed }

namespace Hub

variable (h : Hub) (id : Nat)

def untimed : Hub := { h with subscriptions := h.subscriptions.map Subscription.untimed }

theorem untimed_publish (e : Event) : (h.publish e).untimed = h.untimed.publish e.untimed := by
  simp only [untimed, publish, List.map_map, Hub.mk.injEq, and_true]
  refine List.map_congr_left fun s _ => ?_
  by_cases he : s.role.hears e = true
  · simp [Subscription.untimed, he]
  · simp [Subscription.untimed, he]

theorem untimed_publishAll (es : List Event) :
    (h.publishAll es).untimed = h.untimed.publishAll (es.map Event.untimed) := by
  induction es generalizing h with
  | nil => rfl
  | cons e es ih =>
    have hstep : (h.publishAll (e :: es)).untimed = ((h.publish e).publishAll es).untimed := rfl
    rw [hstep, ih, untimed_publish]
    rfl

theorem find?_untimed : h.untimed.find? id = (h.find? id).map Subscription.untimed := by
  rw [find?, untimed, List.find?_map]
  rfl

theorem queue_untimed : h.untimed.queue id = (h.queue id).map Event.untimed := by
  rw [queue, queue, find?_untimed]
  cases h.find? id with
  | none => rfl
  | some s => rfl

theorem untimed_setQueue (queue : List Event) :
    (h.setQueue id queue).untimed = h.untimed.setQueue id (queue.map Event.untimed) := by
  simp only [untimed, setQueue, List.map_map, Hub.mk.injEq, and_true]
  refine List.map_congr_left fun s _ => ?_
  by_cases hs : s.id = id
  · simp [Subscription.untimed, hs]
  · simp [Subscription.untimed, hs]

theorem untimed_receive : (h.receive id).2.untimed = (h.untimed.receive id).2 := by
  rw [receive, receive, queue_untimed]
  cases h.queue id with
  | nil => rfl
  | cons e rest => exact h.untimed_setQueue id rest

theorem receive_untimed : (h.untimed.receive id).1 = (h.receive id).1.map Event.untimed := by
  rw [receive, receive, queue_untimed]
  cases h.queue id with
  | nil => rfl
  | cons e rest => rfl

end Hub

namespace Observation

theorem untimed_apply (o : Observation) (h : Hub) :
    (o.apply h).untimed = o.apply h.untimed := by
  cases o with
  | subscribe role =>
    simp [apply, Hub.subscribe, Hub.untimed, Subscription.untimed]
  | dispose id =>
    simp only [apply, Hub.dispose, Hub.untimed, List.filter_map]
    rfl
  | receive id => exact h.untimed_receive id
  | drain id => exact h.untimed_setQueue id []
  | take id count =>
    simp only [apply, Hub.take, Hub.untimed_setQueue, Hub.queue_untimed, List.map_drop]

theorem handed_untimed (o : Observation) (id : Nat) (h : Hub) :
    o.handed id h.untimed = (o.handed id h).map Event.untimed := by
  cases o with
  | subscribe role => rfl
  | dispose i => rfl
  | receive i =>
    by_cases hi : i = id
    · simp only [handed, hi, ↓reduceIte, Hub.receive_untimed]
      cases (h.receive id).1 with
      | none => rfl
      | some e => rfl
    · simp [handed, hi]
  | drain i =>
    by_cases hi : i = id
    · simp [handed, hi, Hub.drain, Hub.queue_untimed]
    · simp [handed, hi]
  | take i count =>
    by_cases hi : i = id
    · simp [handed, hi, Hub.take, Hub.queue_untimed, List.map_take]
    · simp [handed, hi]

end Observation
end Lectern
