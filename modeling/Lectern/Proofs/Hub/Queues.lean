import Lectern.Hub

/-!
# Queues of subscriptions

What publishing and what the observers do comes to for one subscription: events that its
role hears go to the end of its queue, its own readings take events from the front, and
nothing else concerns it. The number that a new subscription gets is not in use yet.
-/

namespace Lectern

/-- What observers do. -/
inductive Observation where
  | subscribe (role : Role)
  | dispose (id : Nat)
  | receive (id : Nat)
  | drain (id : Nat)
  | take (id count : Nat)
deriving DecidableEq

namespace Observation

def apply : Observation → Hub → Hub
  | subscribe role, h => (h.subscribe role).2
  | dispose id, h => h.dispose id
  | receive id, h => (h.receive id).2
  | drain id, h => (h.drain id).2
  | take id count, h => (h.take id count).2

/-- The events that the subscription `id` hands out. -/
def handed (id : Nat) (h : Hub) : Observation → List Event
  | subscribe _ => []
  | dispose _ => []
  | receive i => if i = id then (h.receive i).1.toList else []
  | drain i => if i = id then (h.drain i).1 else []
  | take i count => if i = id then (h.take i count).1 else []

end Observation

namespace Hub

variable {h : Hub} {id i : Nat} {s : Subscription}

theorem id_of_find? (found : h.find? id = some s) : s.id = id := by
  simpa using List.find?_some found

theorem queue_of_find? (found : h.find? id = some s) : h.queue id = s.queue := by
  simp [queue, found]

theorem find?_publishAll (found : h.find? id = some s) (es : List Event) :
    (h.publishAll es).find? id =
      some { s with queue := s.queue ++ es.filter s.role.hears } := by
  induction es generalizing h s with
  | nil => simpa [publishAll] using found
  | cons e es ih =>
    have hstep : (h.publish e).find? id =
        some (if s.role.hears e then { s with queue := s.queue ++ [e] } else s) := by
      rw [find?_publish, found, Option.map_some]
    have hrest := ih hstep
    rw [show h.publishAll (e :: es) = (h.publish e).publishAll es from rfl, hrest]
    by_cases he : s.role.hears e = true
    · simp [he]
    · simp [he]

theorem publishAll_append (h : Hub) (es fs : List Event) :
    h.publishAll (es ++ fs) = (h.publishAll es).publishAll fs := List.foldl_append

theorem find?_subscribe (found : h.find? id = some s) (role : Role) :
    (h.subscribe role).2.find? id = some s := by
  unfold find? at found
  simp [find?, subscribe, List.find?_append, found]

theorem find?_dispose (found : h.find? id = some s) (hne : i ≠ id) :
    (h.dispose i).find? id = some s := by
  unfold find? at found
  rw [find?, dispose, List.find?_filter, ← found]
  congr 1
  funext t
  by_cases ht : t.id = id
  · simp [ht, hne.symm]
  · simp [ht]

theorem find?_setQueue (h : Hub) (id i : Nat) (queue : List Event) :
    (h.setQueue i queue).find? id =
      (h.find? id).map fun s => if s.id == i then { s with queue } else s := by
  rw [find?, setQueue, List.find?_map]
  congr 2
  funext t
  by_cases ht : t.id = i
  · simp [ht]
  · simp [ht]

theorem find?_setQueue_self (found : h.find? id = some s) (queue : List Event) :
    (h.setQueue id queue).find? id = some { s with queue } := by
  simp [find?_setQueue, found, id_of_find? found]

theorem find?_setQueue_of_ne (found : h.find? id = some s) (hne : i ≠ id) (queue : List Event) :
    (h.setQueue i queue).find? id = some s := by
  simp [find?_setQueue, found, id_of_find? found, hne.symm]

/-- Events are taken from one queue only. -/
theorem queue_take (h : Hub) (i count n : Nat) :
    (h.take i count).2.queue n = if n = i then (h.queue i).drop count else h.queue n := by
  by_cases hn : n = i
  · subst hn
    cases found : h.find? n with
    | none => simp [take, queue, find?_setQueue, found]
    | some s => simp [take, queue, find?_setQueue_self found, found]
  · rw [if_neg hn]
    cases found : h.find? n with
    | none => simp [take, queue, find?_setQueue, found]
    | some s => simp [take, queue, find?_setQueue_of_ne found (Ne.symm hn), found]

/-- The numbers of all subscriptions are below the next one. -/
def Fresh (h : Hub) : Prop := ∀ s ∈ h.subscriptions, s.id < h.nextId

theorem fresh_empty : empty.Fresh := by
  intro s hs
  simp [empty] at hs

theorem Fresh.find?_subscribe_new (fresh : h.Fresh) (role : Role) :
    (h.subscribe role).2.find? h.nextId = some ⟨h.nextId, role, []⟩ := by
  have hnone : h.subscriptions.find? (fun s => s.id == h.nextId) = none := by
    refine List.find?_eq_none.mpr fun s hs => ?_
    have := fresh s hs
    simp only [beq_iff_eq]
    omega
  simp [find?, subscribe, List.find?_append, hnone]

theorem Fresh.publish (fresh : h.Fresh) (e : Event) : (h.publish e).Fresh := by
  intro s hs
  obtain ⟨t, ht, rfl⟩ := List.mem_map.mp hs
  have hlt := fresh t ht
  split
  · exact hlt
  · exact hlt

theorem Fresh.publishAll (fresh : h.Fresh) (es : List Event) : (h.publishAll es).Fresh := by
  induction es generalizing h with
  | nil => exact fresh
  | cons e es ih => exact ih (fresh.publish e)

theorem Fresh.setQueue (fresh : h.Fresh) (id : Nat) (queue : List Event) :
    (h.setQueue id queue).Fresh := by
  intro s hs
  obtain ⟨t, ht, rfl⟩ := List.mem_map.mp hs
  have hlt := fresh t ht
  split
  · exact hlt
  · exact hlt

theorem Fresh.subscribe (fresh : h.Fresh) (role : Role) : (h.subscribe role).2.Fresh := by
  intro s hs
  rcases List.mem_append.mp hs with hs | hs
  · exact Nat.lt_succ_of_lt (fresh s hs)
  · obtain rfl := List.mem_singleton.mp hs
    exact Nat.lt_succ_self _

theorem Fresh.observe (fresh : h.Fresh) (o : Observation) : (o.apply h).Fresh := by
  cases o with
  | subscribe role => exact fresh.subscribe role
  | dispose id => exact fun s hs => fresh s (List.mem_filter.mp hs).1
  | receive id =>
    simp only [Observation.apply, receive]
    split
    · exact fresh
    · exact fresh.setQueue _ _
  | drain id => exact fresh.setQueue _ _
  | take id count => exact fresh.setQueue _ _

/-- Of all events that wait something holds. -/
def Holds (P : Event → Prop) (h : Hub) : Prop := ∀ s ∈ h.subscriptions, ∀ e ∈ s.queue, P e

theorem holds_empty (P : Event → Prop) : empty.Holds P := by
  intro s hs
  simp [empty] at hs

theorem Holds.mono {P Q : Event → Prop} (holds : h.Holds P) (weaker : ∀ e, P e → Q e) :
    h.Holds Q := fun s hs e he => weaker e (holds s hs e he)

theorem Holds.publish {P : Event → Prop} {e : Event} (holds : h.Holds P) (new : P e) :
    (h.publish e).Holds P := by
  intro s hs e' he
  obtain ⟨t, ht, rfl⟩ := List.mem_map.mp hs
  split at he
  · rcases List.mem_append.mp he with he | he
    · exact holds t ht e' he
    · exact List.mem_singleton.mp he ▸ new
  · exact holds t ht e' he

theorem Holds.publishAll {P : Event → Prop} {es : List Event} (holds : h.Holds P)
    (new : ∀ e ∈ es, P e) : (h.publishAll es).Holds P := by
  induction es generalizing h with
  | nil => exact holds
  | cons e es ih =>
    exact ih (holds.publish (new e List.mem_cons_self)) fun e' he =>
      new e' (List.mem_cons_of_mem e he)

theorem Holds.subscribe {P : Event → Prop} (holds : h.Holds P) (role : Role) :
    (h.subscribe role).2.Holds P := by
  intro s hs e he
  rcases List.mem_append.mp hs with hs | hs
  · exact holds s hs e he
  · obtain rfl := List.mem_singleton.mp hs
    simp at he

theorem Holds.dispose {P : Event → Prop} (holds : h.Holds P) (id : Nat) :
    (h.dispose id).Holds P := fun s hs => holds s (List.mem_filter.mp hs).1

theorem Holds.of_mem_queue {P : Event → Prop} {e : Event} (holds : h.Holds P)
    (he : e ∈ h.queue id) : P e := by
  cases found : h.find? id with
  | none => simp [queue, found] at he
  | some s =>
    rw [queue_of_find? found] at he
    exact holds s (List.mem_of_find?_eq_some found) e he

/-- It holds of the events that are taken and of those that are left. -/
theorem Holds.take {P : Event → Prop} (holds : h.Holds P) (id count : Nat) :
    (∀ e ∈ (h.take id count).1, P e) ∧ (h.take id count).2.Holds P := by
  refine ⟨fun e he => holds.of_mem_queue (List.mem_of_mem_take he), fun s hs e he => ?_⟩
  obtain ⟨t, ht, rfl⟩ := List.mem_map.mp hs
  split at he
  · exact holds.of_mem_queue (List.mem_of_mem_drop he)
  · exact holds t ht e he

/-- The number has been given away, and its subscription has been disposed of. -/
structure Gone (h : Hub) (id : Nat) : Prop where
  lt_nextId : id < h.nextId
  missing : h.find? id = none

theorem Gone.queue (gone : h.Gone id) : h.queue id = [] := by
  simp [Hub.queue, gone.missing]

theorem Fresh.gone_dispose (fresh : h.Fresh) (found : h.find? id = some s) :
    (h.dispose id).Gone id where
  lt_nextId := by
    have hlt := fresh s (List.mem_of_find?_eq_some found)
    rwa [id_of_find? found] at hlt
  missing := by
    rw [find?, List.find?_eq_none]
    intro t ht
    simpa using (List.mem_filter.mp ht).2

theorem Gone.publish (gone : h.Gone id) (e : Event) : (h.publish e).Gone id :=
  ⟨gone.lt_nextId, by rw [find?_publish, gone.missing, Option.map_none]⟩

theorem Gone.publishAll (gone : h.Gone id) (es : List Event) : (h.publishAll es).Gone id := by
  induction es generalizing h with
  | nil => exact gone
  | cons e es ih => exact ih (gone.publish e)

theorem Gone.setQueue (gone : h.Gone id) (i : Nat) (queue : List Event) :
    (h.setQueue i queue).Gone id :=
  ⟨gone.lt_nextId, by rw [find?_setQueue, gone.missing, Option.map_none]⟩

/-- Numbers are not given away twice. -/
theorem Gone.observe (gone : h.Gone id) (o : Observation) : (o.apply h).Gone id := by
  have hmissing : h.subscriptions.find? (fun s => s.id == id) = none := gone.missing
  cases o with
  | subscribe role =>
    have hne : h.nextId ≠ id := Nat.ne_of_gt gone.lt_nextId
    refine ⟨Nat.lt_succ_of_lt gone.lt_nextId, ?_⟩
    simp [Observation.apply, find?, Hub.subscribe, List.find?_append, hmissing, hne]
  | dispose i =>
    refine ⟨gone.lt_nextId, List.find?_eq_none.mpr fun s hs => ?_⟩
    exact List.find?_eq_none.mp hmissing s (List.mem_filter.mp hs).1
  | receive i =>
    simp only [Observation.apply, receive]
    split
    · exact gone
    · exact gone.setQueue _ _
  | drain i => exact gone.setQueue _ _
  | take i count => exact gone.setQueue _ _

theorem Gone.handed (gone : h.Gone id) (o : Observation) : o.handed id h = [] := by
  cases o with
  | subscribe role => rfl
  | dispose i => rfl
  | receive i =>
    by_cases hi : i = id
    · subst hi
      simp [Observation.handed, receive, gone.queue]
    · simp [Observation.handed, hi]
  | drain i =>
    by_cases hi : i = id
    · subst hi
      simp [Observation.handed, drain, gone.queue]
    · simp [Observation.handed, hi]
  | take i count =>
    by_cases hi : i = id
    · subst hi
      simp [Observation.handed, take, gone.queue]
    · simp [Observation.handed, hi]

end Hub

/-- As long as a subscription is not disposed of, what it hands out and what is left in its
queue is what was in its queue, in that order. -/
theorem Observation.find?_apply {h : Hub} {id : Nat} {s : Subscription} {o : Observation}
    (found : h.find? id = some s) (kept : o ≠ .dispose id) :
    ∃ rest, (o.apply h).find? id = some { s with queue := rest } ∧
      o.handed id h ++ rest = s.queue := by
  have hqueue := Hub.queue_of_find? found
  cases o with
  | subscribe role => exact ⟨s.queue, Hub.find?_subscribe found role, rfl⟩
  | dispose i =>
    have hne : i ≠ id := fun heq => kept (heq ▸ rfl)
    exact ⟨s.queue, Hub.find?_dispose found hne, rfl⟩
  | receive i =>
    by_cases hi : i = id
    · subst hi
      simp only [apply, handed, Hub.receive, hqueue]
      cases hs : s.queue with
      | nil => exact ⟨[], by simp [found, ← hs], by simp⟩
      | cons e rest => exact ⟨rest, Hub.find?_setQueue_self found rest, by simp⟩
    · refine ⟨s.queue, ?_, by simp [handed, hi]⟩
      simp only [apply, Hub.receive]
      split
      · exact found
      · exact Hub.find?_setQueue_of_ne found hi _
  | drain i =>
    by_cases hi : i = id
    · subst hi
      exact ⟨[], Hub.find?_setQueue_self found [], by simp [handed, Hub.drain, hqueue]⟩
    · exact ⟨s.queue, Hub.find?_setQueue_of_ne found hi [], by simp [handed, hi]⟩
  | take i count =>
    by_cases hi : i = id
    · subst hi
      refine ⟨s.queue.drop count, ?_, by simp [handed, Hub.take, hqueue]⟩
      simp only [apply, Hub.take, hqueue]
      exact Hub.find?_setQueue_self found _
    · exact ⟨s.queue, Hub.find?_setQueue_of_ne found hi _, by simp [handed, hi]⟩

end Lectern
