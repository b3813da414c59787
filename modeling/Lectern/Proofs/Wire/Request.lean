import Lectern.Proofs.Json.Accepted
import Lectern.Proofs.Wire.Command

/-!
# Requests read back

A request is read from its text as what it was written for: any number, any command and
whatever it carries. Whatever is accepted as a request is one whose numbers and kinds the
types can hold, so an accepted request can be written and read again.
-/

namespace Lectern

open Json Projection

/-- The name of an item's kind that has been read is the kind's own name. -/
theorem Plan.Kind.ofName_name_of_decoder {a : Access} {n : Node} {k : Plan.Kind}
    (h : Plan.Kind.decoder a n = some k) : Plan.Kind.ofName k.name = k := by
  obtain ⟨s, -, rfl⟩ := Decoder.map_eq_some h
  rw [Plan.Kind.name_ofName]

theorem Plan.Item.representable_of_decoder {a : Access} {n : Node} {i : Plan.Item}
    (h : Plan.Item.decoder a n = some i) : i.Representable := by
  simp only [Plan.Item.decoder, Option.bind_eq_bind, Option.bind_eq_some_iff, Option.pure_def,
    Option.some.injEq] at h
  obtain ⟨f, -, id, -, order, horder, kind, hkind, title, -, content, -, refId, -, refSubId, -,
    mediaPath, -, rfl⟩ := h
  obtain ⟨_, _, horder⟩ := Fields.required_eq_some horder
  obtain ⟨_, _, hkind⟩ := Fields.required_eq_some hkind
  exact ⟨Decoder.isInt64_of_int64 horder, Plan.Kind.ofName_name_of_decoder hkind⟩

theorem Live.Patch.representable_of_decoder {a : Access} {n : Node} {p : Live.Patch}
    (h : Live.Patch.decoder a n = some p) : p.Representable := by
  simp only [Live.Patch.decoder, Option.bind_eq_bind, Option.bind_eq_some_iff, Option.pure_def,
    Option.some.injEq] at h
  obtain ⟨f, -, enabled, -, planId, -, cursor, hcursor, target, -, black, -, white, -, locks, -,
    rfl⟩ := h
  rintro i rfl
  obtain ⟨_, _, hcursor⟩ := Fields.optional_eq_some hcursor
  exact Decoder.isInt64_of_int64 hcursor

theorem Projection.Patch.isFinite_of_decoder {a : Access} {n : Node} {p : Projection.Patch}
    (h : Projection.Patch.decoder a n = some p) :
    ∀ x ∈ (Edit.patch p).doubles, x.isFinite = true := by
  simp only [Projection.Patch.decoder, Option.bind_eq_bind, Option.bind_eq_some_iff,
    Option.pure_def, Option.some.injEq] at h
  obtain ⟨f, -, mode, -, lower, -, transition, -, scale, hscale, background, -, foreground, -,
    content, -, rfl⟩ := h
  intro x hx
  obtain rfl : scale = some x := by simpa [Edit.doubles] using hx
  obtain ⟨_, _, hscale⟩ := Fields.optional_eq_some hscale
  exact Decoder.isFinite_of_float hscale

theorem Projection.Appearance.isFinite_of_ofFields {f : Fields} {p : Appearance}
    (h : Appearance.ofFields f = some p) :
    ∀ x ∈ (Edit.appearance p).doubles, x.isFinite = true := by
  simp only [Appearance.ofFields, Option.bind_eq_bind, Option.bind_eq_some_iff,
    Option.pure_def, Option.some.injEq] at h
  obtain ⟨scale, hscale, background, -, foreground, -, rfl⟩ := h
  intro x hx
  obtain rfl : scale = some x := by simpa [Edit.doubles] using hx
  obtain ⟨_, _, hscale⟩ := Fields.optional_eq_some hscale
  exact Decoder.isFinite_of_float hscale

namespace Command

/-- Whatever the form makes of a payload, its numbers and kinds can be held. -/
def Form.Sound (form : Form) : Prop := ∀ carried c, form carried = some c → c.Representable

theorem sound_bare {c : Command} (h : c.Representable) : (bare c).Sound := by
  intro carried d hd
  obtain ⟨_, -, rfl⟩ := Option.map_eq_some_iff.mp hd
  exact h

theorem sound_ofFields {names : List String} {read : Fields → Option Command}
    (h : ∀ f c, read f = some c → c.Representable) : (ofFields names read).Sound := by
  intro carried c hc
  obtain ⟨f, -, hf⟩ := Option.bind_eq_some_iff.mp hc
  exact h f c hf

theorem sound_ofSurface {make : Surface → Command} (h : ∀ s, (make s).Representable) :
    (ofSurface make).Sound := by
  refine sound_ofFields fun f c hc => ?_
  obtain ⟨s, -, rfl⟩ := Option.map_eq_some_iff.mp hc
  exact h s

theorem sound_ofEdit {names : List String} {read : Fields → Option Edit}
    (h : ∀ f e, read f = some e → ∀ x ∈ e.doubles, x.isFinite = true) :
    (ofEdit names read).Sound := by
  intro carried c hc
  simp only [ofEdit, Option.bind_eq_bind, Option.bind_eq_some_iff, Option.pure_def,
    Option.some.injEq] at hc
  obtain ⟨_, -, f, -, _, -, s, -, _, -, g, -, e, he, rfl⟩ := hc
  exact h g e he

theorem forms_sound : ∀ entry ∈ forms, entry.2.Sound := by
  have hbare {c : Command} (h : c.Representable) := sound_bare h
  simp only [forms, List.forall_mem_cons, List.not_mem_nil, false_imp_iff, implies_true, and_true]
  refine ⟨sound_ofSurface fun _ => trivial, ?patch, ?text, ?media, ?mode, ?appearance, ?link,
    hbare trivial, hbare trivial, ?live, hbare trivial, hbare trivial, ?cursor, ?target,
    hbare trivial, hbare trivial, hbare trivial, hbare trivial, ?locked, ?goLive, ?item,
    sound_ofSurface fun _ => trivial, sound_ofSurface fun _ => trivial, ?subscribe, hbare trivial⟩
  case patch =>
    refine sound_ofFields fun f c hc => ?_
    simp only [Option.bind_eq_bind, Option.bind_eq_some_iff, Option.pure_def,
      Option.some.injEq] at hc
    obtain ⟨s, -, p, hp, rfl⟩ := hc
    obtain ⟨_, _, hp⟩ := Fields.required_eq_some hp
    exact Projection.Patch.isFinite_of_decoder hp
  case text =>
    refine sound_ofEdit fun f e he => ?_
    obtain ⟨t, -, rfl⟩ := Option.map_eq_some_iff.mp he
    simp [Edit.doubles]
  case media =>
    refine sound_ofEdit fun f e he => ?_
    obtain ⟨m, -, rfl⟩ := Option.map_eq_some_iff.mp he
    simp [Edit.doubles]
  case mode =>
    refine sound_ofFields fun f c hc => ?_
    simp only [Option.bind_eq_bind, Option.bind_eq_some_iff, Option.pure_def,
      Option.some.injEq] at hc
    obtain ⟨s, -, m, -, rfl⟩ := hc
    simp [Representable, Edit.doubles]
  case appearance =>
    refine sound_ofEdit fun f e he => ?_
    obtain ⟨p, hp, rfl⟩ := Option.map_eq_some_iff.mp he
    exact Appearance.isFinite_of_ofFields hp
  case link | locked =>
    refine sound_ofFields fun f c hc => ?_
    simp only [Option.bind_eq_bind, Option.bind_eq_some_iff, Option.pure_def,
      Option.some.injEq] at hc
    obtain ⟨s, -, l, -, rfl⟩ := hc
    trivial
  case live =>
    intro carried c hc
    obtain ⟨p, hp, rfl⟩ := Option.map_eq_some_iff.mp hc
    obtain ⟨_, -, hp⟩ := Option.bind_eq_some_iff.mp hp
    exact Live.Patch.representable_of_decoder hp
  case cursor =>
    refine sound_ofFields fun f c hc => ?_
    obtain ⟨n, hn, rfl⟩ := Option.map_eq_some_iff.mp hc
    obtain ⟨_, _, hn⟩ := Fields.required_eq_some hn
    exact Decoder.isInt64_of_int64 hn
  case target | subscribe =>
    refine sound_ofFields fun f c hc => ?_
    obtain ⟨_, -, rfl⟩ := Option.map_eq_some_iff.mp hc
    trivial
  case goLive =>
    refine sound_ofFields fun f c hc => ?_
    simp only [Option.bind_eq_bind, Option.bind_eq_some_iff, Option.pure_def,
      Option.some.injEq] at hc
    obtain ⟨planId, -, cursor, hcursor, rfl⟩ := hc
    rintro n rfl
    obtain ⟨_, _, hcursor⟩ := Fields.optional_eq_some hcursor
    exact Decoder.isInt64_of_int64 hcursor
  case item =>
    refine sound_ofFields fun f c hc => ?_
    simp only [Option.bind_eq_bind, Option.bind_eq_some_iff, Option.pure_def,
      Option.some.injEq] at hc
    obtain ⟨target, -, item, hitem, rfl⟩ := hc
    obtain ⟨_, _, hitem⟩ := Fields.required_eq_some hitem
    exact Plan.Item.representable_of_decoder hitem

/-- The command is written in one object and is legible. -/
theorem legible_fields {c : Command} (h : c.Carries) : ∀ field ∈ c.fields, field.2.Legible 4 := by
  cases hp : c.payload? with
  | none => simp [fields, hp, Value.present]
  | some v => simp [fields, hp, Value.present, h.legible v hp]

theorem sorted_fields (c : Command) : Value.Sorted c.fields := by
  cases hp : c.payload? <;> simp [fields, hp, Value.present]

/-- The form of the command and what it carries are found in its fields. -/
theorem beside_fields (c : Command) (a : Access) :
    (Fields.ofValues a c.fields).beside "command" "payload" forms =
      (forms.lookup c.name).map (·, c.payload?.map fun v => ⟨a, v.toNode⟩) := by
  cases hp : c.payload? with
  | none => simp [fields, hp, Value.present, Fields.beside_name]
  | some v =>
    simpa [fields, hp, Value.present] using
      Fields.beside_both a forms c.name v (show "command" ≠ "payload" by decide)

theorem Representable.isFinite {c : Command} (h : c.Representable) :
    ∀ x ∈ c.doubles, x.isFinite = true := by
  cases c with
  | edit s e => exact h
  | _ => simp [doubles]

end Command

namespace Request

/-- What the types of a request can hold. -/
structure Representable (r : Request) : Prop where
  id : ∀ n, r.id = some n → n < UInt64.size
  command : r.command.Representable

/-- What the steps of reading a request have come to. -/
structure Read (a : Access) (n : Node) (r : Request) where
  fields : Fields
  object : Fields.ofObject a n = some fields
  number : Option Node
  rest : Fields
  take : fields.take "id" = some (number, rest)
  noNumber : number = none → r.id = none
  someNumber : ∀ m, number = some m → Decoder.optional (.nat 64) fields.access m = some r.id
  held : Fields
  hold : rest.hold = some held
  form : Command.Form
  carried : Option Fields.Carried
  beside : held.beside "command" "payload" Command.forms = some (form, carried)
  command : form carried = some r.command

theorem exists_read {a : Access} {n : Node} {r : Request} (h : decoder a n = some r) :
    Nonempty (Read a n r) := by
  simp only [decoder, Option.bind_eq_bind, Option.bind_eq_some_iff, Option.pure_def] at h
  obtain ⟨f, hf, ⟨field, rest⟩, htake, h⟩ := h
  cases field with
  | none =>
    simp only [Option.bind_eq_some_iff, Option.some.injEq] at h
    obtain ⟨id, rfl, held, hhold, ⟨form, carried⟩, hform, c, hc, rfl⟩ := h
    exact ⟨⟨f, hf, none, rest, htake, fun _ => rfl, by simp, held, hhold, form, carried, hform, hc⟩⟩
  | some m =>
    simp only [Option.bind_eq_some_iff, Option.some.injEq] at h
    obtain ⟨id, hid, held, hhold, ⟨form, carried⟩, hform, c, hc, rfl⟩ := h
    exact ⟨⟨f, hf, some m, rest, htake, by simp, fun _ hm => Option.some.inj hm ▸ hid, held, hhold,
      form, carried, hform, hc⟩⟩

theorem representable_of_decoder {a : Access} {n : Node} {r : Request}
    (h : decoder a n = some r) : r.Representable := by
  obtain ⟨read⟩ := exists_read h
  obtain ⟨name, hname⟩ := Fields.beside_mem read.beside
  refine ⟨?_, Command.forms_sound (name, read.form) hname read.carried _ read.command⟩
  intro k hk
  cases hnumber : read.number with
  | none => cases (read.noNumber hnumber).symm.trans hk
  | some m =>
    have hid := read.someNumber m hnumber
    rw [hk] at hid
    exact Decoder.lt_size_of_nat (Decoder.optional_eq_some hid)

/-- The fields of a request: those of its command, and its number if it has one. -/
def fields (r : Request) : List (String × Value) :=
  match r.id with
  | none => r.command.fields
  | some id => Value.insertField "id" (.int id) r.command.fields

theorem sorted_fields (r : Request) : Value.Sorted r.fields := by
  unfold fields
  split
  · exact r.command.sorted_fields
  · exact Value.sorted_insertField r.command.sorted_fields

theorem legible_fields {r : Request} (h : r.Representable) (carries : r.command.Carries) :
    ∀ field ∈ r.fields, field.2.Legible 4 := by
  intro field hf
  unfold fields at hf
  split at hf
  · exact Command.legible_fields carries field hf
  · rename_i id hid
    rcases Value.mem_insertField hf with rfl | hf
    · exact (Decoder.reads_nat 4 (h.id id hid)).legible
    · exact Command.legible_fields carries field hf

/-- The number is taken from beside the command. -/
theorem take_id (r : Request) (a : Access) :
    (Fields.ofValues a r.fields).take "id" =
      some (r.id.map fun n => (Value.int n).toNode, .ofValues a r.command.fields) := by
  have hfresh : ∀ field ∈ r.command.fields, field.1 ≠ "id" := by
    cases hp : r.command.payload? <;> simp [Command.fields, hp, Value.present]
  have hlookup : r.command.fields.lookup "id" = none := by
    cases hp : r.command.payload? <;> simp [Command.fields, hp, Value.present, List.lookup_cons]
  rw [Fields.take_ofValues a "id" (Decoder.nodup_of_sorted r.sorted_fields)]
  unfold fields
  cases r.id with
  | none =>
    have hself : r.command.fields.filter (fun field => field.1 != "id") = r.command.fields :=
      List.filter_eq_self.mpr fun field hf => by simpa using hfresh field hf
    simp [hlookup, hself]
  | some id =>
    simp [Value.lookup_insertField, Value.filter_insertField hfresh]

theorem reads {r : Request} (h : r.Representable) (carries : r.command.Carries) :
    decoder.Reads 5 r.toJson r where
  notNull := by unfold toJson; exact Value.noConfusion
  legible := Value.legible_object r.sorted_fields (legible_fields h carries)
  reads a room := by
    obtain ⟨b, enter, hroom⟩ := room.enter
    obtain ⟨form, hform, hc⟩ := carries.reads b.hold (b.room_hold 4)
    have hobject : r.toJson = .object r.fields := rfl
    have hhold : (Fields.ofValues b r.command.fields).hold =
        some (.ofValues b.hold r.command.fields) :=
      Fields.hold_ofValues hroom (Command.legible_fields carries)
    have hbeside := r.command.beside_fields b.hold
    obtain ⟨id, c⟩ := r
    cases id with
    | none =>
      simp [decoder, hobject, Fields.ofObject_toNode, enter, take_id, hhold, hbeside, hform, hc]
    | some n =>
      have hid := (Decoder.reads_nat 4 (h.id n rfl)).optional_some hroom
      simp [decoder, hobject, Fields.ofObject_toNode, enter, take_id, hhold, hbeside, hform, hc,
        hid]

/-- The request is what its text is read as. -/
theorem decode?_chars {r : Request} (h : r.Representable)
    (back : ∀ x ∈ r.command.doubles, x.ReadsBack) : decode? decoder r.toJson.chars = some r :=
  (reads h (Command.carries h.command back)).decode?_chars (by decide)

/-- A request is read from its own text, and so is whatever has been accepted as a request.
That its doubles are read from their texts is what is asked of them. -/
theorem read_back (r : Request)
    (exact : ∀ x ∈ r.command.doubles, x.isFinite = true → x.ReadsBack) :
    (r.Representable → decode? decoder r.toJson.chars = some r) ∧
      ∀ cs, decode? decoder cs = some r → decode? decoder r.toJson.chars = some r := by
  have hwritten (h : r.Representable) : decode? decoder r.toJson.chars = some r :=
    decode?_chars h fun x hx => exact x hx (h.command.isFinite x hx)
  refine ⟨hwritten, fun cs hcs => hwritten ?_⟩
  obtain ⟨n, -, hn⟩ := Option.bind_eq_some_iff.mp hcs
  exact representable_of_decoder hn

/-- A request with a number that scales the text by one and a half. -/
def enlarge : Request :=
  ⟨some 7, .edit .b (.appearance ⟨some (.ofDecimal false 15 (-1)), none, some "#fff"⟩)⟩

theorem read_back_enlarge :
    (∀ x ∈ enlarge.command.doubles, x.isFinite = true → x.ReadsBack) ∧ enlarge.Representable ∧
      decode? decoder enlarge.toJson.chars = some enlarge := by
  have exact : ∀ x ∈ enlarge.command.doubles, x.isFinite = true → x.ReadsBack := by
    decide +kernel
  have finite : ∀ x ∈ enlarge.command.doubles, x.isFinite = true := by decide +kernel
  have representable : enlarge.Representable := by
    refine ⟨?_, finite⟩
    rintro n ⟨⟩
    decide
  exact ⟨exact, representable, (read_back enlarge exact).1 representable⟩

end Request
end Lectern
