import Lectern.Proofs.Wire.Live
import Lectern.Wire.Request

/-!
# Commands read back

What a command carries is read as the command, as far as the whole numbers fit sixty-four
bits, the kinds of items are those that names stand for, and the doubles survive as numbers.
Fields of an edit stand beside the surface and are not taken for it.
-/

namespace Lectern

open Json Projection

/-- The order fits sixty-four bits, and the kind is the one its name stands for. -/
structure Plan.Item.Representable (i : Plan.Item) : Prop where
  order : IsInt64 i.order
  kind : Plan.Kind.ofName i.kind.name = i.kind

theorem Plan.Item.Representable.reads {i : Plan.Item} (h : i.Representable) :
    Plan.Item.decoder.Reads 1 i.toJson i := by
  have hkind : Plan.Kind.decoder.Reads 0 i.kind.toJson i.kind := by
    have hmap := (Decoder.reads_text 0 i.kind.name).map Plan.Kind.ofName
    rwa [h.kind] at hmap
  refine Decoder.reads_record (by simp) (by simp) ?_ ?_
  · simp [hkind.legible, Value.legible_int 0 h.order.exact]
  · intro a room
    simp [hkind.reads a room, Decoder.int64_toNode a h.order]

/-- The doubles that an edit sets. -/
def Projection.Edit.doubles : Edit → List Binary64
  | patch p => p.textScale.toList
  | appearance p => p.textScale.toList
  | text _ | media _ | mode _ => []

namespace Command

variable {a : Access} {levels : Nat} {fields : List (String × Value)} {names : List String}

/-- The doubles that a command carries. -/
def doubles : Command → List Binary64
  | edit _ e => e.doubles
  | _ => []

/-- What the types of a command's numbers and kinds can hold: whole numbers of sixty-four
bits, finite doubles, and kinds that names stand for. -/
def Representable : Command → Prop
  | edit _ e => ∀ x ∈ e.doubles, x.isFinite = true
  | setLive p => p.Representable
  | setCursor n => IsInt64 n
  | goLive _ cursor => ∀ n, cursor = some n → IsInt64 n
  | projectItem _ item => item.Representable
  | _ => True

theorem ofFields_toNode {read : Fields → Option Command} {c : Command}
    (room : a.Room (levels + 1)) (known : ∀ field ∈ fields, field.1 ∈ names)
    (nodup : (fields.map Prod.fst).Nodup)
    (reads : ∀ b : Access, b.Room levels → read (.ofValues b fields) = some c) :
    ofFields names read (some ⟨a, (Value.object fields).toNode⟩) = some c := by
  obtain ⟨b, enter, hroom⟩ := room.enter
  have honly : (Fields.ofValues b fields).only names = some (.ofValues b fields) :=
    Fields.only_ofValues_of_known b known nodup
  simp [ofFields, Fields.Carried.decode, Fields.ofObject_toNode, enter, honly, reads b hroom]

/-- The fields of an edit are found again beside the surface. -/
theorem ofEdit_toNode {read : Fields → Option Edit} {s : Surface} {e : Edit}
    (room : a.Room (levels + 1)) (known : ∀ field ∈ fields, field.1 ∈ names)
    (sorted : Value.Sorted fields) (apart : "surface" ∉ names)
    (legible : ∀ field ∈ fields, field.2.Legible levels)
    (reads : ∀ b : Access, b.held = true → read (.ofValues b fields) = some e) :
    ofEdit names read (some ⟨a, (onSurface s fields).toNode⟩) = some (.edit s e) := by
  obtain ⟨b, enter, hroom⟩ := room.enter
  have hfresh : ∀ field ∈ fields, field.1 ≠ "surface" := by
    intro field hf heq
    exact apart (heq ▸ known field hf)
  have htake : (Fields.ofValues b (Value.insertField "surface" s.toJson fields)).take "surface" =
      some (some s.toJson.toNode, .ofValues b fields) := by
    rw [Fields.take_ofValues b "surface"
      (Decoder.nodup_of_sorted (Value.sorted_insertField sorted)), Value.lookup_insertField,
      if_pos rfl, Value.filter_insertField hfresh]
    rfl
  have hhold : (Fields.ofValues b fields).hold = some (.ofValues b.hold fields) :=
    Fields.hold_ofValues hroom legible
  have honly : (Fields.ofValues b.hold fields).only names = some (.ofValues b.hold fields) :=
    Fields.only_ofValues_of_known b.hold known (Decoder.nodup_of_sorted sorted)
  simp [ofEdit, onSurface, Fields.Carried.decode, Fields.ofObject_toNode, enter, htake, hhold,
    honly, reads b.hold rfl, (s.reads levels).reads b hroom]

theorem legible_onSurface {s : Surface} (sorted : Value.Sorted fields)
    (legible : ∀ field ∈ fields, field.2.Legible levels) :
    (onSurface s fields).Legible (levels + 1) := by
  refine Value.legible_object (Value.sorted_insertField sorted) ?_
  intro field hf
  rcases Value.mem_insertField hf with rfl | hf
  · exact (s.reads levels).legible
  · exact legible field hf

/-- What stands in the payload of a command is legible, and the form of the command makes the
command of it. -/
structure Carries (c : Command) : Prop where
  legible : ∀ v, c.payload? = some v → v.Legible 4
  reads : ∀ a : Access, a.Room 4 → ∃ form, forms.lookup c.name = some form ∧
    form (c.payload?.map fun v => ⟨a, v.toNode⟩) = some c

theorem carries_bare {c : Command} (payload : c.payload? = none)
    (known : forms.lookup c.name = some (bare c)) : c.Carries where
  legible := by simp [payload]
  reads a _ := ⟨bare c, known, by simp [payload, bare, Fields.Carried.nothing]⟩

theorem carries_ofFields {c : Command} {read : Fields → Option Command}
    (payload : c.payload? = some (.object fields))
    (known : forms.lookup c.name = some (ofFields names read))
    (hnames : ∀ field ∈ fields, field.1 ∈ names)
    (sorted : Value.Sorted fields) (legible : ∀ field ∈ fields, field.2.Legible 3)
    (reads : ∀ b : Access, b.Room 3 → read (.ofValues b fields) = some c) : c.Carries where
  legible := by
    simp only [payload, Option.some.injEq, forall_eq']
    exact Value.legible_object sorted legible
  reads a room := by
    refine ⟨_, known, ?_⟩
    rw [payload]
    exact ofFields_toNode room hnames (Decoder.nodup_of_sorted sorted) reads

theorem carries_ofEdit {s : Surface} {e : Edit} {read : Fields → Option Edit}
    (payload : (edit s e).payload? = some (onSurface s fields))
    (known : forms.lookup (edit s e).name = some (ofEdit names read))
    (apart : "surface" ∉ names) (hnames : ∀ field ∈ fields, field.1 ∈ names)
    (sorted : Value.Sorted fields) (legible : ∀ field ∈ fields, field.2.Legible 3)
    (reads : ∀ b : Access, b.held = true → read (.ofValues b fields) = some e) :
    (edit s e).Carries where
  legible := by
    simp only [payload, Option.some.injEq, forall_eq']
    exact legible_onSurface sorted legible
  reads a room := by
    refine ⟨_, known, ?_⟩
    rw [payload]
    exact ofEdit_toNode room hnames sorted apart legible reads

theorem carries_edit {s : Surface} {e : Edit} (back : ∀ x ∈ e.doubles, x.ReadsBack) :
    (edit s e).Carries := by
  have hs := s.reads 3
  cases e with
  | patch p =>
    have hp := Patch.reads (p := p) fun x hx => back x (by simp [Edit.doubles, hx])
    refine carries_ofFields rfl rfl (by simp) (by simp) ?_ ?_
    · simp [hs.legible, hp.legible]
    · intro b room
      simp [hs.reads b room, hp.reads b room]
  | text t =>
    refine carries_ofEdit rfl rfl (by decide) ?_ ?_ t.legible_fields ?_
    · simp [TextSlide.fields, TextSlide.fieldNames]
    · simp [TextSlide.fields]
    · intro b held
      simp [TextSlide.ofFields_fields (.inl held)]
  | media m =>
    refine carries_ofEdit rfl rfl (by decide) ?_ ?_ m.legible_fields ?_
    · simp [MediaSlide.fields, MediaSlide.fieldNames]
    · simp [MediaSlide.fields]
    · simp [MediaSlide.ofFields_fields]
  | mode m =>
    have hm := m.reads 3
    refine carries_ofFields rfl rfl (by simp) (by simp) ?_ ?_
    · simp [hs.legible, hm.legible]
    · intro b room
      simp [hs.reads b room, hm.reads b room]
  | appearance p =>
    have hscale (x : Binary64) (hx : p.textScale = some x) : x.ReadsBack :=
      back x (by simp [Edit.doubles, hx])
    refine carries_ofEdit rfl rfl (by decide) ?_ ?_ (Appearance.legible_fields hscale) ?_
    · simp [Appearance.fields, Appearance.fieldNames]
    · simp [Appearance.fields]
    · simp [Appearance.ofFields_fields _ hscale]

/-- Every command is carried. -/
theorem carries {c : Command} (h : c.Representable) (back : ∀ x ∈ c.doubles, x.ReadsBack) :
    c.Carries := by
  cases c with
  | edit s e => exact carries_edit back
  | listSurfaces | getLive | next | prev | toggle | toggleBlack | toggleWhite | resume | ping =>
    exact carries_bare rfl rfl
  | getState s | openSurface s | closeSurface s =>
    have hs := s.reads 3
    refine carries_ofFields rfl rfl (by simp) (by simp) ?_ ?_
    · simp [hs.legible]
    · intro b room
      simp [hs.reads b room]
  | setLink s link =>
    have hs := s.reads 3
    have hlink := link.reads.mono (Nat.le_add_left 1 2)
    refine carries_ofFields rfl rfl (by simp) (by simp) ?_ ?_
    · simp [hs.legible, hlink.legible]
    · intro b room
      simp [hs.reads b room, hlink.reads b room]
  | setLocked s locked =>
    have hs := s.reads 3
    refine carries_ofFields rfl rfl (by simp) (by simp) ?_ ?_
    · simp [hs.legible]
    · intro b room
      simp [hs.reads b room]
  | setLive p =>
    have hp := Live.Patch.Representable.reads h
    refine ⟨?_, fun a room => ⟨_, rfl, ?_⟩⟩
    · simpa [payload?] using hp.legible.mono (Nat.le_add_left 2 2)
    · simp [payload?, Fields.Carried.decode, hp.reads a (room.mono (by omega))]
  | setCursor n =>
    have hn := Decoder.reads_int64 3 h
    refine carries_ofFields rfl rfl (by simp) (by simp) ?_ ?_
    · simp [hn.legible]
    · intro b room
      simp [hn.reads b room]
  | setTarget target =>
    exact carries_ofFields rfl rfl (by simp) (by simp) (by simp) (by simp)
  | goLive planId cursor =>
    have hcursor (n : Int) (hn : cursor = some n) := Decoder.reads_int64 3 (h n hn)
    refine carries_ofFields rfl rfl (by simp) (by simp) ?_ ?_
    · simp [Decoder.legible_ofOption hcursor]
    · intro b room
      simp [Decoder.optional_ofOption hcursor room]
  | projectItem target item =>
    have hitem := (Plan.Item.Representable.reads h).mono (Nat.le_add_left 1 2)
    refine carries_ofFields rfl rfl (by simp) (by simp) ?_ ?_
    · simp [hitem.legible]
    · intro b room
      simp [hitem.reads b room]
  | subscribe role =>
    have hrole := role.reads.mono (Nat.le_add_left 1 2)
    refine carries_ofFields rfl rfl (by simp) (by simp) ?_ ?_
    · simp [hrole.legible]
    · intro b room
      simp [hrole.reads b room]

end Command
end Lectern
