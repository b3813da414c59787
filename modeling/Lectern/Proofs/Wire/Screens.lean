import Lectern.Proofs.Wire.Response

/-!
# The screens that documents tell of

Text scales stand in screens only. So a value tells of certain screens and of no others when each
part of it that gives a text scale is one of these screens, written whole; and whoever reads the
document finds them there, provided their numbers survive. A text scale that is no finite number
is written as null and does not.
-/

namespace Lectern

open Json Projection

namespace Json

/-- A value is the other one or stands somewhere in it. -/
inductive Value.Part (part : Value) : Value → Prop
  | self : Part part part
  | item {v : Value} {items : List Value} (mem : v ∈ items) (inner : Part part v) :
    Part part (.list items)
  | field {v : Value} {key : String} {fields : List (String × Value)} (mem : (key, v) ∈ fields)
    (inner : Part part v) : Part part (.object fields)

/-- A node is the other one or stands somewhere in it. -/
inductive Node.Part (part : Node) : Node → Prop
  | self : Part part part
  | item {n : Node} {items : List Node} (mem : n ∈ items) (inner : Part part n) :
    Part part (.list items)
  | field {n : Node} {key : Option String} {fields : List (Option String × Node)}
    (mem : (key, n) ∈ fields) (inner : Part part n) : Part part (.object fields)

namespace Value

theorem Exact.part {part v : Value} (exact : v.Exact) (h : part.Part v) : part.Exact := by
  induction h with
  | self => exact exact
  | item mem _ ih => exact ih (exact_list_iff.mp exact _ mem)
  | field mem _ ih => exact ih (exact_object_iff.mp exact _ mem)

/-- Wherever the value gives a text scale, it is one of the screens. -/
def Tells (screens : Screen → Prop) (v : Value) : Prop :=
  ∀ part : Value, part.Part v → (part.field? "textScale").isSome = true →
    ∃ screen, screens screen ∧ part = screen.toJson

variable {α : Type} {screens : Screen → Prop} {v : Value}

@[simp] theorem tells_null : null.Tells screens := by
  rintro _ ⟨⟩ ⟨⟩

@[simp] theorem tells_bool (p : Bool) : (bool p).Tells screens := by
  rintro _ ⟨⟩ ⟨⟩

@[simp] theorem tells_int (n : Int) : (int n).Tells screens := by
  rintro _ ⟨⟩ ⟨⟩

@[simp] theorem tells_text (s : String) : (text s).Tells screens := by
  rintro _ ⟨⟩ ⟨⟩

@[simp] theorem tells_ofBinary64 (x : Binary64) : (ofBinary64 x).Tells screens := by
  unfold ofBinary64
  split <;> rintro _ ⟨⟩ ⟨⟩

/-- What an object tells of is what it gives itself, if it does, and what its fields tell of. -/
theorem tells_of_fields {fields : List (String × Value)}
    (own : (fields.lookup "textScale").isSome = true →
      ∃ screen, screens screen ∧ object fields = screen.toJson)
    (each : ∀ field ∈ fields, field.2.Tells screens) : (object fields).Tells screens := by
  intro part hpart given
  cases hpart with
  | self => exact own given
  | field mem inner => exact each _ mem part inner given

theorem tells_object {fields : List (String × Value)}
    (each : ∀ field ∈ fields, field.1 ≠ "textScale" ∧ field.2.Tells screens) :
    (object fields).Tells screens := by
  refine tells_of_fields (fun given => ?_) fun field mem => (each field mem).2
  obtain ⟨field, mem, hkey⟩ := List.lookup_isSome_iff.mp given
  exact absurd (beq_iff_eq.mp hkey).symm (each field mem).1

theorem tells_ofOption {encode : α → Value} {o : Option α}
    (h : ∀ a, o = some a → (encode a).Tells screens) : (ofOption encode o).Tells screens := by
  cases o with
  | none => exact tells_null
  | some a => exact h a rfl

end Value
end Json

variable {screens : Screen → Prop}

theorem Surface.tells (s : Surface) : s.toJson.Tells screens := Value.tells_text _

namespace Projection

theorem SongSource.tells (s : SongSource) : s.toJson.Tells screens := by
  obtain ⟨songId, songTitle, block, title⟩ := s
  refine Value.tells_object ?_
  cases block <;> cases title <;> simp [Value.present]

theorem Content.tells (c : Content) : c.toJson.Tells screens := by
  cases c with
  | empty => exact Value.tells_object (by simp)
  | text t =>
    obtain ⟨title, body, song⟩ := t
    refine Value.tells_object ?_
    cases song <;> cases title <;> simp [Value.present, SongSource.tells]
  | media m =>
    obtain ⟨title, path, type⟩ := m
    refine Value.tells_object ?_
    cases title <;> cases type <;> simp [Value.present, MediaType.toJson]

/-- A screen tells of itself. -/
theorem Screen.tells {s : Screen} (h : screens s) : s.toJson.Tells screens := by
  have hmode : s.display.mode.toJson.Tells screens := by
    cases s.display.mode <;> exact Value.tells_text _
  refine Value.tells_of_fields (fun _ => ⟨s, h, rfl⟩) ?_
  simp [s.display.content.tells, hmode]

end Projection

theorem Link.tells (link : Link) : link.toJson.Tells screens := by
  cases link <;> exact Value.tells_object (by simp [Surface.tells])

theorem Reason.tells (r : Reason) : r.toJson.Tells screens := by
  cases r <;> exact Value.tells_text _

theorem Outcome.tells {o : Outcome} (h : ∀ s, o.screen = some s → screens s) :
    o.toJson.Tells screens := by
  obtain ⟨ok, reason, surface, screen⟩ := o
  refine Value.tells_object ?_
  cases screen with
  | none => cases reason <;> cases surface <;> simp [Value.present, Reason.tells, Surface.tells]
  | some s =>
    have hs := Screen.tells (h s rfl)
    cases reason <;> cases surface <;> simp [Value.present, Reason.tells, Surface.tells, hs]

theorem Live.State.tells (s : Live.State) : s.toJson.Tells screens := by
  have locks : (Locks.toJson s.locks).Tells screens := Value.tells_object (by simp)
  have planId : (Value.ofOption .text s.planId).Tells screens :=
    Value.tells_ofOption fun id _ => Value.tells_text id
  exact Value.tells_object (by simp [locks, planId, Surface.tells])

theorem Navigated.tells {n : Navigated}
    (h : ∀ o s, n.projection = some o → o.screen = some s → screens s) :
    n.toJson.Tells screens := by
  obtain ⟨live, projection⟩ := n
  refine Value.tells_object ?_
  cases projection with
  | none => simp [Value.present, live.tells]
  | some o =>
    have ho : o.toJson.Tells screens := Outcome.tells fun s hs => h o s rfl hs
    simp [Value.present, live.tells, ho]

theorem SurfaceInfo.tells (i : SurfaceInfo) : i.toJson.Tells screens :=
  Value.tells_object (by simp [Surface.tells, Link.tells])

theorem Role.tells (r : Role) : r.toJson.Tells screens := by
  cases r <;> exact Value.tells_object (by simp [Surface.tells])

theorem Event.tells {e : Event} (h : ∀ s screen, e = .screen s screen → screens screen) :
    e.toJson.Tells screens := by
  cases e with
  | screen s screen =>
    have hscreen := Screen.tells (h s screen rfl)
    exact Value.tells_object (by simp [hscreen, Surface.tells])
  | window s isOpen => exact Value.tells_object (by simp [Surface.tells])
  | live state => exact Value.tells_object (by simp [state.tells])

theorem Response.tells {r : Response} (h : ∀ v, r.data = some v → v.Tells screens)
    (id : Option Nat) : (Message.toJson (.response id r)).Tells screens := by
  obtain ⟨ok, data, reason, error⟩ := r
  refine Value.tells_object ?_
  cases data with
  | none =>
    cases error <;> cases id <;> cases reason <;> simp [fields, Value.present, Reason.tells]
  | some v =>
    have hv := h v rfl
    cases error <;> cases id <;> cases reason <;> simp [fields, Value.present, Reason.tells, hv]

end Lectern
