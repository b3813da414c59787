import Lectern.Live

/-!
# Observers

Windows observe the desk through subscriptions. A control window hears of everything; the
display of a surface hears of its screen and of the live state. Events wait in the
subscription, in the order they were published, until they are taken.
-/

namespace Lectern

open Projection

inductive Event where
  | screen (surface : Surface) (screen : Screen)
  | window (surface : Surface) (isOpen : Bool)
  | live (state : Live.State)
deriving DecidableEq

inductive Role where
  | control
  | display (surface : Surface)
deriving DecidableEq

/-- Which events a role is entitled to. -/
def Role.hears : Role → Event → Bool
  | control, _ => true
  | display s, .screen r _ => s == r
  | display _, .live _ => true
  | display _, .window _ _ => false

structure Subscription where
  id : Nat
  role : Role
  queue : List Event
deriving DecidableEq

structure Hub where
  subscriptions : List Subscription
  nextId : Nat
deriving DecidableEq

namespace Hub

def empty : Hub := ⟨[], 1⟩

def subscribe (h : Hub) (role : Role) : Nat × Hub :=
  (h.nextId, ⟨h.subscriptions ++ [⟨h.nextId, role, []⟩], h.nextId + 1⟩)

def dispose (h : Hub) (id : Nat) : Hub :=
  { h with subscriptions := h.subscriptions.filter fun s => s.id != id }

def publish (h : Hub) (e : Event) : Hub :=
  { h with
    subscriptions := h.subscriptions.map fun s =>
      if s.role.hears e then { s with queue := s.queue ++ [e] } else s }

def publishAll (h : Hub) (es : List Event) : Hub := es.foldl publish h

def find? (h : Hub) (id : Nat) : Option Subscription := h.subscriptions.find? fun s => s.id == id

/-- The events waiting in a subscription. -/
def queue (h : Hub) (id : Nat) : List Event := ((h.find? id).map Subscription.queue).getD []

def setQueue (h : Hub) (id : Nat) (queue : List Event) : Hub :=
  { h with
    subscriptions := h.subscriptions.map fun s => if s.id == id then { s with queue } else s }

/-- Takes the first waiting event. -/
def receive (h : Hub) (id : Nat) : Option Event × Hub :=
  match h.queue id with
  | [] => (none, h)
  | e :: rest => (some e, h.setQueue id rest)

/-- Takes the first `count` waiting events. -/
def take (h : Hub) (id count : Nat) : List Event × Hub :=
  ((h.queue id).take count, h.setQueue id ((h.queue id).drop count))

/-- Takes all waiting events. -/
def drain (h : Hub) (id : Nat) : List Event × Hub := (h.queue id, h.setQueue id [])

def observerCount (h : Hub) : Nat := h.subscriptions.length

theorem find?_publish (h : Hub) (e : Event) (id : Nat) :
    (h.publish e).find? id =
      (h.find? id).map fun s =>
        if s.role.hears e then { s with queue := s.queue ++ [e] } else s := by
  simp only [find?, publish]
  induction h.subscriptions with
  | nil => rfl
  | cons s rest ih =>
    by_cases hid : s.id == id <;> by_cases he : s.role.hears e <;> simp [hid, he, ih]

/-- A publication goes to the end of each queue whose role hears it. -/
theorem queue_publish {h : Hub} {id : Nat} {s : Subscription} (found : h.find? id = some s)
    (e : Event) : (h.publish e).queue id = if s.role.hears e then s.queue ++ [e] else s.queue := by
  simp only [queue, find?_publish, found, Option.map_some, Option.getD_some]
  split <;> rfl

@[simp] theorem observerCount_publish (h : Hub) (e : Event) :
    (h.publish e).observerCount = h.observerCount := by
  simp [observerCount, publish]

@[simp] theorem observerCount_setQueue (h : Hub) (id : Nat) (queue : List Event) :
    (h.setQueue id queue).observerCount = h.observerCount := by
  simp [observerCount, setQueue]

end Hub
end Lectern
