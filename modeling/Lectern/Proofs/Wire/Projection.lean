import Lectern.Proofs.Json.Reading
import Lectern.Wire.Projection

/-!
# Screens and edits read back

Everything a screen consists of, the edits made to it and their outcomes are read from what
was written of them. The text scale of a screen or an edit has to survive as a number, and
times fit sixty-four bits.
-/

namespace Lectern

open Json

theorem Surface.reads (levels : Nat) (s : Surface) : decoder.Reads levels s.toJson s :=
  Decoder.reads_choice levels (by cases s <;> rfl)

namespace Projection

theorem MediaType.reads (levels : Nat) (t : MediaType) : decoder.Reads levels t.toJson t := by
  cases t <;> exact Decoder.reads_choice levels rfl

theorem Mode.reads (levels : Nat) (m : Mode) : decoder.Reads levels m.toJson m := by
  cases m <;> exact Decoder.reads_choice levels rfl

theorem SongSource.reads (s : SongSource) : decoder.Reads 1 s.toJson s := by
  refine Decoder.reads_record ?_ ?_ ?_ ?_
  all_goals
    obtain ⟨_, _, block, title⟩ := s
    cases block <;> cases title <;> simp [Value.present]

theorem TextSlide.legible_fields {levels : Nat} (t : TextSlide) :
    ∀ field ∈ t.fields, field.2.Legible (levels + 1) := by
  have hsong (s : SongSource) (_ : t.song = some s) := s.reads.mono (Nat.le_add_left 1 levels)
  simp [fields, Decoder.legible_ofOption hsong]

theorem TextSlide.ofFields_fields {a : Access} (room : a.Room 1) (t : TextSlide) :
    ofFields (.ofValues a t.fields) = some t := by
  have hsong (s : SongSource) (_ : t.song = some s) := s.reads
  simp [fields, ofFields, Decoder.optional_ofOption hsong room]

theorem MediaSlide.legible_fields {levels : Nat} (m : MediaSlide) :
    ∀ field ∈ m.fields, field.2.Legible levels := by
  simp [fields, (m.type.reads levels).legible]

theorem MediaSlide.ofFields_fields (a : Access) (m : MediaSlide) :
    ofFields (.ofValues a m.fields) = some m := by
  simp [fields, ofFields, (m.type.reads 0).reads a (.inr (Nat.zero_le _))]

/-- A text among the contents of a screen: absent parts are left out. -/
theorem TextSlide.decoder_present {a : Access} (held : a.held = true) (t : TextSlide) :
    decoder a (Value.object (("body", .text t.body) ::
      (Value.present "metaSong" SongSource.toJson t.song ++
        Value.present "title" .text t.title))).toNode = some t := by
  obtain ⟨title, body, song⟩ := t
  rw [decoder, Fields.record_of_held held]
  · cases song with
    | none => cases title <;> simp [Value.present, ofFields]
    | some s =>
      cases title <;> simp [Value.present, ofFields, s.reads.optional_some (.inl held)]
  all_goals cases song <;> cases title <;> simp [Value.present, fieldNames]

theorem MediaSlide.decoder_present {a : Access} (held : a.held = true) (m : MediaSlide) :
    decoder a (Value.object (("mediaPath", .text m.path) :: ("mediaType", m.type.toJson) ::
      Value.present "title" .text m.title)).toNode = some m := by
  obtain ⟨title, path, type⟩ := m
  rw [decoder, Fields.record_of_held held]
  · cases title <;> simp [Value.present, ofFields, (type.reads 0).reads a (.inl held)]
  all_goals cases title <;> simp [Value.present, fieldNames]

theorem Content.reads (c : Content) : decoder.Reads 2 c.toJson c := by
  cases c with
  | empty =>
    refine Decoder.reads_tagged (by simp) rfl rfl (by simp) ?_
    intro a held
    have hrecord : Fields.record [] 0 a (Value.object []).toNode = some (.ofValues a []) :=
      Fields.record_of_held held (by simp) (by simp)
    simp [Fields.Carried.noFields, Fields.Carried.decode, hrecord]
  | text t =>
    refine Decoder.reads_tagged ?_ rfl rfl ?_ ?_
    · obtain ⟨title, body, song⟩ := t
      cases song <;> cases title <;> simp [Value.present]
    · obtain ⟨title, body, song⟩ := t
      cases song with
      | none => cases title <;> simp [Value.present]
      | some s => cases title <;> simp [Value.present, s.reads.legible]
    · intro a held
      have hread := TextSlide.decoder_present held t
      obtain ⟨title, body, song⟩ := t
      cases song <;> cases title <;> simp_all [Value.present, Fields.Carried.decode]
  | media m =>
    refine Decoder.reads_tagged ?_ rfl rfl ?_ ?_
    · obtain ⟨title, path, type⟩ := m
      cases title <;> simp [Value.present]
    · obtain ⟨title, path, type⟩ := m
      cases title <;> simp [Value.present, (type.reads 1).legible]
    · intro a held
      have hread := MediaSlide.decoder_present held m
      obtain ⟨title, path, type⟩ := m
      cases title <;> simp_all [Value.present, Fields.Carried.decode]

/-- The text scale of the patch, if it has one, survives. -/
theorem Patch.reads {p : Patch} (h : ∀ x, p.textScale = some x → x.ReadsBack) :
    decoder.Reads 3 p.toJson p := by
  have hmode (m : Mode) (_ : p.mode = some m) := m.reads 2
  have hscale (x : Binary64) (hx : p.textScale = some x) := Decoder.reads_float 2 (h x hx)
  have hcontent (c : Content) (_ : p.content = some c) := c.reads
  refine Decoder.reads_record (by simp) (by simp) ?_ ?_
  · simp [Decoder.legible_ofOption hmode, Decoder.legible_ofOption hscale,
      Decoder.legible_ofOption hcontent]
  · intro a room
    simp [Decoder.optional_ofOption hmode room, Decoder.optional_ofOption hscale room,
      Decoder.optional_ofOption hcontent room]

theorem Appearance.legible_fields {levels : Nat} {p : Appearance}
    (h : ∀ x, p.textScale = some x → x.ReadsBack) :
    ∀ field ∈ p.fields, field.2.Legible levels := by
  have hscale (x : Binary64) (hx : p.textScale = some x) := Decoder.reads_float levels (h x hx)
  simp [fields, Decoder.legible_ofOption hscale]

theorem Appearance.ofFields_fields (a : Access) {p : Appearance}
    (h : ∀ x, p.textScale = some x → x.ReadsBack) : ofFields (.ofValues a p.fields) = some p := by
  have hscale (x : Binary64) (hx : p.textScale = some x) := Decoder.reads_float 0 (h x hx)
  simp [fields, ofFields, Decoder.optional_ofOption hscale (.inr (Nat.zero_le a.depth))]

/-- Whatever its numbers are, a screen is written in order and not too deep. -/
theorem Screen.shaped_toJson (s : Screen) : s.toJson.Shaped 3 := by
  simp [toJson, Value.Shaped, s.display.content.reads.legible.shaped,
    (s.display.mode.reads 2).legible.shaped]

/-- The numbers of the screen survive. -/
structure Screen.Representable (s : Screen) : Prop where
  textScale : s.display.textScale.ReadsBack
  updatedAt : IsInt64 s.updatedAt

theorem Screen.Representable.reads {s : Screen} (h : s.Representable) :
    decoder.Reads 3 s.toJson s := by
  refine Decoder.reads_record (by simp) (by simp) ?_ ?_
  · simp [s.display.content.reads.legible, (s.display.mode.reads 2).legible,
      Value.legible_ofBinary64 2 h.textScale, Value.legible_int 2 h.updatedAt.exact]
  · intro a room
    simp [s.display.content.reads.reads a room, (s.display.mode.reads 2).reads a room,
      Decoder.float_toNode a h.textScale, Decoder.int64_toNode a h.updatedAt]

end Projection

theorem Link.reads (link : Link) : decoder.Reads 1 link.toJson link := by
  cases link with
  | free =>
    refine Decoder.reads_tagged (by simp) rfl rfl (by simp) ?_
    intro a held
    have hrecord : Fields.record [] 0 a (Value.object []).toNode = some (.ofValues a []) :=
      Fields.record_of_held held (by simp) (by simp)
    simp [Fields.Carried.noFields, Fields.Carried.decode, hrecord]
  | mirror source =>
    refine Decoder.reads_tagged (by simp) rfl rfl ?_ ?_
    · simp [(source.reads 0).legible]
    · intro a held
      have hrecord : Fields.record ["from"] 1 a (Value.object [("from", source.toJson)]).toNode =
          some (.ofValues a [("from", source.toJson)]) :=
        Fields.record_of_held held (by simp) (by simp)
      simp [Fields.Carried.decode, hrecord, (source.reads 0).reads a (.inl held)]

theorem Reason.reads (levels : Nat) (r : Reason) : decoder.Reads levels r.toJson r := by
  cases r <;> exact Decoder.reads_choice levels rfl

theorem Outcome.shaped_toJson (o : Outcome) : o.toJson.Shaped 4 := by
  obtain ⟨ok, reason, surface, screen⟩ := o
  have hreason (r : Reason) := (Reason.reads 3 r).legible.shaped
  have hsurface (s : Surface) := (Surface.reads 3 s).legible.shaped
  cases reason <;> cases surface <;> cases screen <;>
    simp [toJson, Value.present, Value.Shaped, hreason, hsurface, Projection.Screen.shaped_toJson]

/-- The numbers of the screen survive, if the outcome has one. -/
def Outcome.Representable (o : Outcome) : Prop := ∀ s, o.screen = some s → s.Representable

theorem Outcome.Representable.reads {o : Outcome} (h : o.Representable) :
    decoder.Reads 4 o.toJson o := by
  obtain ⟨ok, reason, surface, screen⟩ := o
  have hreason (r : Reason) := Reason.reads 3 r
  have hsurface (s : Surface) := Surface.reads 3 s
  refine Decoder.reads_record ?_ ?_ ?_ ?_
  all_goals cases screen with
    | none =>
      cases reason <;> cases surface <;>
        simp +contextual [Value.present, (hreason _).legible, (hsurface _).legible,
          (hreason _).optional_some, (hsurface _).optional_some]
    | some s =>
      have hs := (h s rfl).reads
      cases reason <;> cases surface <;>
        simp +contextual [Value.present, (hreason _).legible, (hsurface _).legible,
          (hreason _).optional_some, (hsurface _).optional_some, hs.legible, hs.optional_some]

theorem SurfaceInfo.reads (i : SurfaceInfo) : decoder.Reads 2 i.toJson i := by
  refine Decoder.reads_record (by simp) (by simp) ?_ ?_
  · simp [(i.surface.reads 1).legible, i.link.reads.legible]
  · intro a room
    simp [(i.surface.reads 1).reads a room, i.link.reads.reads a room]

end Lectern
