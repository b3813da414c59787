import Lectern.Proofs.Wire.Projection
import Lectern.Wire.Live

/-!
# The live state and events read back

The cursor and the times have to fit sixty-four bits. A patch that does not mention the plan
id, one that clears it and one that sets it are read as three different patches.
-/

namespace Lectern

open Json

theorem Locks.reads (levels : Nat) (l : Locks) : decoder.Reads (levels + 1) l.toJson l := by
  refine Decoder.reads_record (by simp) (by simp) (by simp) ?_
  intro a room
  simp

namespace Live

theorem State.shaped_toJson (s : State) : s.toJson.Shaped 2 := by
  simp [toJson, Value.Shaped, (s.target.reads 1).legible.shaped,
    (Locks.reads 0 s.locks).legible.shaped, (Value.legible_ofOption_text 1 s.planId).shaped]

/-- The numbers of the state fit. -/
structure State.Representable (s : State) : Prop where
  cursor : IsInt64 s.cursor
  updatedAt : IsInt64 s.updatedAt

theorem State.Representable.reads {s : State} (h : s.Representable) :
    State.decoder.Reads 2 s.toJson s := by
  have htarget := s.target.reads 1
  have hlocks := Locks.reads 0 s.locks
  refine Decoder.reads_record (by simp) (by simp) ?_ ?_
  · simp [htarget.legible, hlocks.legible, Value.legible_int 1 h.cursor.exact,
      Value.legible_int 1 h.updatedAt.exact]
  · intro a room
    simp [htarget.reads a room, hlocks.reads a room, Decoder.int64_toNode a h.cursor,
      Decoder.int64_toNode a h.updatedAt]

/-- The cursor of the patch fits, if it has one. -/
def Patch.Representable (p : Patch) : Prop := ∀ n, p.cursor = some n → IsInt64 n

theorem Patch.Representable.reads {p : Patch} (h : p.Representable) :
    Patch.decoder.Reads 2 p.toJson p := by
  obtain ⟨enabled, planId, cursor, target, black, white, locks⟩ := p
  have hcursor (n : Int) (hn : cursor = some n) := Decoder.reads_int64 1 (h n hn)
  have hlocks (l : Locks) (_ : locks = some l) := Locks.reads 0 l
  have hc := Decoder.legible_ofOption hcursor
  have hl := Decoder.legible_ofOption hlocks
  refine Decoder.reads_record ?_ ?_ ?_ ?_
  · cases planId <;> simp [Value.present]
  · cases planId <;> simp [Value.present]
  · cases planId <;> simp [Value.present, hc, hl]
  · intro a room
    cases planId <;>
      simp [Value.present, Decoder.map, Decoder.optional_ofOption hcursor room,
        Decoder.optional_ofOption hlocks room]

end Live

theorem Role.reads (r : Role) : decoder.Reads 1 r.toJson r where
  notNull := by cases r <;> exact Value.noConfusion
  legible := by
    cases r with
    | control => exact Value.legible_object (by simp) (by simp)
    | display s => exact Value.legible_object (by simp) (by simp [(s.reads 0).legible])
  reads a room := by
    obtain ⟨b, enter, hroom⟩ := room.enter
    cases r with
    | control =>
      simp [decoder, toJson, Fields.tagBeside_toNode, enter, Fields.beside_name, kinds,
        Fields.Carried.nothing]
    | display s =>
      have hboth : (Fields.ofValues b [("kind", .text "DISPLAY"), ("surface", s.toJson)]).beside
          "kind" "surface" kinds = some (.display, some ⟨b, s.toJson.toNode⟩) :=
        Fields.beside_both b kinds "DISPLAY" s.toJson (by decide)
      simp [decoder, toJson, Fields.tagBeside_toNode, enter, hboth, Fields.Carried.decode,
        (s.reads 0).reads b hroom]

/-- The numbers of the event survive. -/
def Event.Representable : Event → Prop
  | screen _ state => state.Representable
  | window _ _ => True
  | live state => state.Representable

theorem Event.Representable.reads {e : Event} (h : e.Representable) :
    Event.decoder.Reads 4 e.toJson e := by
  cases e with
  | screen s state =>
    have hstate := Projection.Screen.Representable.reads h
    refine Decoder.reads_tagged (by simp) rfl rfl ?_ ?_
    · simp [hstate.legible, (s.reads 3).legible]
    · intro a held
      simp [Fields.Carried.decode, Fields.record_of_held held, hstate.reads a (.inl held),
        (s.reads 0).reads a (.inl held)]
  | window s isOpen =>
    refine Decoder.reads_tagged (by simp) rfl rfl ?_ ?_
    · simp [(s.reads 3).legible]
    · intro a held
      simp [Fields.Carried.decode, Fields.record_of_held held, (s.reads 0).reads a (.inl held)]
  | live state =>
    have hstate := Live.State.Representable.reads h
    refine Decoder.reads_tagged (by simp) rfl rfl ?_ ?_
    · simp [hstate.legible.mono]
    · intro a held
      simp [Fields.Carried.decode, Fields.record_of_held held, hstate.reads a (.inl held)]

theorem Navigated.shaped_toJson (n : Navigated) : n.toJson.Shaped 5 := by
  obtain ⟨live, projection⟩ := n
  cases projection <;>
    simp [toJson, Value.present, Value.Shaped, live.shaped_toJson.mono, Outcome.shaped_toJson]

/-- The numbers of the answer survive. -/
structure Navigated.Representable (n : Navigated) : Prop where
  live : n.live.Representable
  projection : ∀ o, n.projection = some o → o.Representable

theorem Navigated.Representable.reads {n : Navigated} (h : n.Representable) :
    Navigated.decoder.Reads 5 n.toJson n := by
  obtain ⟨live, projection⟩ := n
  have hlive := h.live.reads
  have hprojection (o : Outcome) (ho : projection = some o) := (h.projection o ho).reads
  refine Decoder.reads_record ?_ ?_ ?_ ?_
  · cases projection <;> simp [Value.present]
  · cases projection <;> simp [Value.present]
  · cases projection with
    | none => simp [Value.present, hlive.legible.mono]
    | some o => simp [Value.present, hlive.legible.mono, (hprojection o rfl).legible]
  · intro a room
    cases projection with
    | none => simp [Value.present, hlive.reads a (room.mono (by omega))]
    | some o =>
      simp [Value.present, hlive.reads a (room.mono (by omega)),
        (hprojection o rfl).optional_some room]

end Lectern
