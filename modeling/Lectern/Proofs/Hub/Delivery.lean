import Lectern.Proofs.Hub.Queues

/-!
# What subscriptions deliver

A subscription delivers what is published between its beginning and its end, as far as its
role is entitled to it, in the order of publication and each event once: what it has handed
out and what waits in its queue is together just that. The observers of a hub are the
subscriptions that have begun and not been disposed of, and a disposal concerns no other
subscription. When the hub is dropped nothing is published any more, and whoever holds a
subscription reads on.
-/

namespace Lectern

open Live

/-- What a role is entitled to hear. -/
inductive Role.Entitled : Role → Event → Prop
  | control (e : Event) : Entitled .control e
  | screen (s : Surface) (screen : Projection.Screen) : Entitled (.display s) (.screen s screen)
  | live (s : Surface) (state : Live.State) : Entitled (.display s) (.live state)

theorem Role.hears_iff {role : Role} {e : Event} : role.hears e = true ↔ role.Entitled e := by
  constructor
  · intro h
    cases role with
    | control => exact .control e
    | display s =>
      cases e with
      | screen r screen =>
        obtain rfl : s = r := by simpa [hears] using h
        exact .screen s screen
      | window r isOpen => simp [hears] at h
      | live state => exact .live s state
  · rintro (_ | _ | _)
    · rfl
    · simp [hears]
    · rfl

namespace Hub

/-- What is done to a hub: its observers act, or an event is published. -/
inductive Action where
  | observe (o : Observation)
  | publish (e : Event)
deriving DecidableEq

def perform (h : Hub) : Action → Hub
  | .observe o => o.apply h
  | .publish e => h.publish e

def run (h : Hub) (actions : List Action) : Hub := actions.foldl perform h

def published (actions : List Action) : List Event :=
  actions.filterMap fun action => match action with
    | .observe _ => none
    | .publish e => some e

/-- The events that the subscription `id` hands out along a run. -/
def handed (id : Nat) : Hub → List Action → List Event
  | _, [] => []
  | h, .observe o :: rest => o.handed id h ++ (o.apply h).handed id rest
  | h, .publish e :: rest => (h.publish e).handed id rest

/-- The subscriptions that begin in a run and are not disposed of after that. They are
numbered from `next` on. -/
def standing : Nat → List Action → List Nat
  | _, [] => []
  | next, .observe (.subscribe _) :: rest =>
    if .observe (.dispose next) ∈ rest then standing (next + 1) rest
    else next :: standing (next + 1) rest
  | next, _ :: rest => standing next rest

/-- The numbers of the observers, in the order in which they came. -/
def numbers (h : Hub) : List Nat := h.subscriptions.map Subscription.id

variable {h : Hub} {id : Nat} {s : Subscription} {actions : List Action}

@[simp] theorem run_nil (h : Hub) : h.run [] = h := rfl

@[simp] theorem run_cons (h : Hub) (action : Action) (rest : List Action) :
    h.run (action :: rest) = (h.perform action).run rest := rfl

theorem run_append (h : Hub) (actions rest : List Action) :
    h.run (actions ++ rest) = (h.run actions).run rest := List.foldl_append

theorem handed_append (h : Hub) (id : Nat) (actions rest : List Action) :
    h.handed id (actions ++ rest) = h.handed id actions ++ (h.run actions).handed id rest := by
  induction actions generalizing h with
  | nil => rfl
  | cons action actions ih =>
    cases action with
    | observe o => simp only [List.cons_append, handed, ih, run_cons, perform, List.append_assoc]
    | publish e => simp only [List.cons_append, handed, ih, run_cons, perform]

theorem Fresh.perform (fresh : h.Fresh) (action : Action) : (h.perform action).Fresh := by
  cases action with
  | observe o => exact fresh.observe o
  | publish e => exact fresh.publish e

theorem Fresh.run (fresh : h.Fresh) (actions : List Action) : (h.run actions).Fresh := by
  induction actions generalizing h with
  | nil => exact fresh
  | cons action actions ih => exact ih (fresh.perform action)

theorem Gone.perform (gone : h.Gone id) (action : Action) : (h.perform action).Gone id := by
  cases action with
  | observe o => exact gone.observe o
  | publish e => exact gone.publish e

/-- Once it has been disposed of, a subscription hands out nothing and does not come back. -/
theorem Gone.run (gone : h.Gone id) (actions : List Action) :
    (h.run actions).Gone id ∧ h.handed id actions = [] := by
  induction actions generalizing h with
  | nil => exact ⟨gone, rfl⟩
  | cons action actions ih =>
    obtain ⟨hrun, hhanded⟩ := ih (gone.perform action)
    refine ⟨hrun, ?_⟩
    cases action with
    | observe o => exact List.append_eq_nil_iff.mpr ⟨gone.handed o, hhanded⟩
    | publish e => exact hhanded

/-- What has waited and what is published, as far as it is heard, is handed out or waits. The
subscription itself stays as long as it is not disposed of. -/
theorem find?_run (found : h.find? id = some s) (kept : .observe (.dispose id) ∉ actions) :
    ∃ waiting, (h.run actions).find? id = some { s with queue := waiting } ∧
      h.handed id actions ++ waiting = s.queue ++ (published actions).filter s.role.hears := by
  induction actions generalizing h s with
  | nil => exact ⟨s.queue, found, by simp [handed, published]⟩
  | cons action rest ih =>
    obtain ⟨hne, hkept⟩ : action ≠ .observe (.dispose id) ∧ .observe (.dispose id) ∉ rest := by
      simpa [eq_comm] using kept
    cases action with
    | observe o =>
      obtain ⟨left, hfound, htaken⟩ := Observation.find?_apply found fun ho => hne (ho ▸ rfl)
      obtain ⟨waiting, hrun, hrest⟩ := ih hfound hkept
      refine ⟨waiting, hrun, ?_⟩
      calc h.handed id (.observe o :: rest) ++ waiting
          = o.handed id h ++ ((o.apply h).handed id rest ++ waiting) := List.append_assoc _ _ _
        _ = o.handed id h ++ (left ++ (published rest).filter s.role.hears) := by rw [hrest]
        _ = s.queue ++ (published rest).filter s.role.hears := by
          rw [← List.append_assoc, htaken]
    | publish e =>
      obtain ⟨waiting, hrun, hrest⟩ := ih (find?_publishAll found [e]) hkept
      refine ⟨waiting, hrun, ?_⟩
      calc h.handed id (.publish e :: rest) ++ waiting
          = s.queue ++ [e].filter s.role.hears ++ (published rest).filter s.role.hears := hrest
        _ = s.queue ++ (published (.publish e :: rest)).filter s.role.hears := by
          rw [List.append_assoc, ← List.filter_append]
          rfl

@[simp] theorem numbers_setQueue (h : Hub) (id : Nat) (queue : List Event) :
    (h.setQueue id queue).numbers = h.numbers := by
  rw [numbers, setQueue, List.map_map]
  refine List.map_congr_left fun s _ => ?_
  simp only [Function.comp_apply]
  split <;> rfl

@[simp] theorem numbers_publish (h : Hub) (e : Event) : (h.publish e).numbers = h.numbers := by
  rw [numbers, publish, List.map_map]
  refine List.map_congr_left fun s _ => ?_
  simp only [Function.comp_apply]
  split <;> rfl

@[simp] theorem numbers_subscribe (h : Hub) (role : Role) :
    (h.subscribe role).2.numbers = h.numbers ++ [h.nextId] := by
  simp [numbers, subscribe]

@[simp] theorem nextId_subscribe (h : Hub) (role : Role) :
    (h.subscribe role).2.nextId = h.nextId + 1 := rfl

@[simp] theorem numbers_dispose (h : Hub) (id : Nat) :
    (h.dispose id).numbers = h.numbers.filter (· != id) := by
  rw [numbers, dispose, numbers, List.filter_map]
  rfl

/-- Publishing and reading change no registration. -/
theorem numbers_perform {action : Action} (begins : ∀ role, action ≠ .observe (.subscribe role))
    (ends : ∀ i, action ≠ .observe (.dispose i)) :
    (h.perform action).numbers = h.numbers ∧ (h.perform action).nextId = h.nextId := by
  cases action with
  | publish e => exact ⟨numbers_publish h e, rfl⟩
  | observe o =>
    cases o with
    | subscribe role => exact absurd rfl (begins role)
    | dispose i => exact absurd rfl (ends i)
    | receive i =>
      simp only [perform, Observation.apply, receive]
      split
      · exact ⟨rfl, rfl⟩
      · exact ⟨numbers_setQueue _ _ _, rfl⟩
    | drain i => exact ⟨numbers_setQueue _ _ _, rfl⟩
    | take i count => exact ⟨numbers_setQueue _ _ _, rfl⟩

theorem standing_cons {action : Action} (begins : ∀ role, action ≠ .observe (.subscribe role))
    (next : Nat) (rest : List Action) : standing next (action :: rest) = standing next rest := by
  rw [standing]
  exact begins

/-- Of the observers there were and of those that come, the ones that are not disposed of are
there at the end of a run, in the order in which they came. -/
theorem numbers_run (h : Hub) (actions : List Action) :
    (h.run actions).numbers =
      h.numbers.filter (fun i => .observe (.dispose i) ∉ actions) ++
        standing h.nextId actions := by
  induction actions generalizing h with
  | nil =>
    have hall : h.numbers.filter (fun _ => true) = h.numbers := List.filter_eq_self.mpr (by simp)
    simp [standing, hall]
  | cons action rest ih =>
    rw [run_cons, ih]
    by_cases begins : ∃ role, action = .observe (.subscribe role)
    · obtain ⟨role, rfl⟩ := begins
      simp only [perform, Observation.apply, numbers_subscribe, nextId_subscribe,
        List.filter_append]
      by_cases hgone : .observe (.dispose h.nextId) ∈ rest
      · simp [standing, hgone]
      · simp [standing, hgone]
    rw [standing_cons fun role heq => begins ⟨role, heq⟩]
    by_cases ends : ∃ i, action = .observe (.dispose i)
    · obtain ⟨i, rfl⟩ := ends
      have hfilter (j : Nat) : (decide (.observe (.dispose j) ∉ rest) && j != i) =
          decide (.observe (.dispose j) ∉ Action.observe (.dispose i) :: rest) := by
        by_cases hj : j = i
        · simp [hj]
        · simp [hj]
      simp only [perform, Observation.apply, numbers_dispose, List.filter_filter, hfilter]
      rfl
    · obtain ⟨hnumbers, hnext⟩ := numbers_perform (h := h) (fun role heq => begins ⟨role, heq⟩)
        fun i heq => ends ⟨i, heq⟩
      have hmem (i : Nat) :
          .observe (.dispose i) ∈ action :: rest ↔ .observe (.dispose i) ∈ rest := by
        rw [List.mem_cons, or_iff_right fun heq => ends ⟨i, heq.symm⟩]
      simp only [hnumbers, hnext, hmem]

/-- Whoever is not disposed of stays as it is: registered, in its role, with its queue. -/
theorem find?_dispose_of_ne (h : Hub) {i : Nat} (hne : i ≠ id) :
    (h.dispose i).find? id = h.find? id := by
  cases found : h.find? id with
  | some s => exact find?_dispose found hne
  | none =>
    refine List.find?_eq_none.mpr fun s hs => ?_
    exact List.find?_eq_none.mp found s (List.mem_filter.mp hs).1

/-- What becomes of the subscription `id` of a role, which has just begun at the hub `h`. -/
structure Delivers (h : Hub) (id : Nat) (role : Role) : Prop where
  /-- As long as it lasts, it has handed out or holds what is published for its role. -/
  lasting : ∀ actions, .observe (.dispose id) ∉ actions →
    h.handed id actions ++ (h.run actions).queue id = (published actions).filter role.hears
  /-- Draining it hands out what has been kept for it, also after the last publication. -/
  drained : ∀ actions, .observe (.dispose id) ∉ actions →
    h.handed id (actions ++ [.observe (.drain id)]) = (published actions).filter role.hears
  /-- What it holds when it is disposed of is not handed out any more, nor is what comes later. -/
  ended : ∀ actions rest, .observe (.dispose id) ∉ actions →
    h.handed id (actions ++ .observe (.dispose id) :: rest) ++ (h.run actions).queue id =
        (published actions).filter role.hears ∧
      (h.run (actions ++ .observe (.dispose id) :: rest)).find? id = none
  /-- It stays as it is when another one is disposed of. -/
  apart : ∀ actions i, i ≠ id → ((h.run actions).dispose i).find? id = (h.run actions).find? id

theorem delivers_of_find? (fresh : h.Fresh) (found : h.find? id = some s) (empty : s.queue = []) :
    Delivers h id s.role := by
  have hlasting : ∀ actions, .observe (.dispose id) ∉ actions →
      h.handed id actions ++ (h.run actions).queue id =
        (published actions).filter s.role.hears := by
    intro actions kept
    obtain ⟨waiting, hrun, hdelivered⟩ := find?_run found kept
    rw [queue_of_find? hrun, hdelivered, empty, List.nil_append]
  refine ⟨hlasting, fun actions kept => ?_, fun actions rest kept => ?_,
    fun actions i hne => find?_dispose_of_ne _ hne⟩
  · have hrest : (h.run actions).handed id [.observe (.drain id)] = (h.run actions).queue id := by
      simp [handed, Observation.handed, drain]
    rw [handed_append, hrest]
    exact hlasting actions kept
  obtain ⟨waiting, hrun, -⟩ := find?_run found kept
  have hgone : ((h.run actions).dispose id).Gone id := (fresh.run actions).gone_dispose hrun
  obtain ⟨hlater, hnothing⟩ := hgone.run rest
  constructor
  · have hsilent : (h.run actions).handed id (.observe (.dispose id) :: rest) = [] := hnothing
    rw [handed_append, hsilent, List.append_nil]
    exact hlasting actions kept
  · rw [run_append]
    exact hlater.missing

/-- Whatever has been done to a hub, a new subscription delivers what is published for its role
from then on, once and in order, until it is disposed of, and the observers are those that have
not been disposed of. -/
theorem delivers_once_in_order (before : List Action) (role : Role) :
    Delivers ((empty.run before).subscribe role).2 ((empty.run before).subscribe role).1 role ∧
      (∀ e, role.hears e = true ↔ role.Entitled e) ∧
      (empty.run before).numbers = standing 1 before ∧
      (empty.run before).observerCount = (standing 1 before).length := by
  have fresh : (empty.run before).Fresh := fresh_empty.run before
  have hnumbers : (empty.run before).numbers = standing 1 before := numbers_run empty before
  refine ⟨?_, fun e => Role.hears_iff, hnumbers, ?_⟩
  · exact delivers_of_find? (fresh.subscribe role) (fresh.find?_subscribe_new role) rfl
  · rw [← hnumbers, numbers, List.length_map]
    rfl

/-- A display is replaced: its successor begins before it is disposed of. -/
theorem delivers_to_successor :
    let before : List Action :=
      [.observe (.subscribe .control), .observe (.subscribe (.display .b))]
    let actions : List Action :=
      [.publish (.live .initial), .observe (.dispose 2), .publish (.window .b true),
        .observe (.receive 3), .publish (.live { State.initial with cursor := 1 }),
        .observe (.dispose 1)]
    let h := ((empty.run before).subscribe (.display .b)).2
    h.handed 3 actions ++ (h.run actions).queue 3 =
        [.live .initial, .live { State.initial with cursor := 1 }] ∧
      (h.run actions).observerCount = 1 := by
  intro before actions h
  obtain ⟨delivers, -, -, -⟩ := delivers_once_in_order before (.display .b)
  obtain ⟨-, -, -, hcount⟩ :=
    delivers_once_in_order (before ++ .observe (.subscribe (.display .b)) :: actions) .control
  exact ⟨delivers.lasting actions (by decide), hcount⟩

end Hub
end Lectern
