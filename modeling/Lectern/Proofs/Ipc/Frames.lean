import Lectern.Ipc.Frame

/-!
# Streams of frames

A stream of frames may come in pieces. What has come is divided into the payloads of the
frames that are complete and the beginning of the next one; whatever comes later, these are
the first payloads of the whole stream.
-/

namespace Lectern
namespace Ipc

/-- A payload behind the header that says how long it is. -/
def framed (payload : Bytes) : Bytes := Frame.header payload.length ++ payload

namespace Frame

variable {payload rest stream more left : Bytes} {payloads : List Bytes}

theorem start_framed (short : payload.length ≤ maxSize) (more : Bytes) :
    start (framed payload ++ more) = .frame payload more :=
  start_append_of_write (if_neg (Nat.not_lt.mpr short)) more

theorem start_framed_nil (short : payload.length ≤ maxSize) :
    start (framed payload) = .frame payload [] := by
  simpa using start_framed short []

/-- No complete frame is at the front, and none that is too large is announced. -/
def Partial (stream : Bytes) : Prop :=
  start stream = .partialHeader ∨ start stream = .partialPayload

theorem partial_nil : Partial [] := .inl rfl

/-- What stands at the front of a stream stays there when more comes. -/
theorem start_append (stream more : Bytes) (h : ¬ Partial stream) :
    start (stream ++ more) =
      match start stream with
      | .frame payload rest => .frame payload (rest ++ more)
      | .tooLarge size rest => .tooLarge size (rest ++ more)
      | other => other := by
  rcases stream with _ | ⟨a, _ | ⟨b, _ | ⟨c, _ | ⟨d, after⟩⟩⟩⟩
  case cons.cons.cons.cons =>
    simp only [Partial, List.cons_append, start] at h ⊢
    generalize a.toNat + (b.toNat <<< 8) + (c.toNat <<< 16) + (d.toNat <<< 24) = size at h ⊢
    by_cases hsize : maxSize < size
    · simp [hsize]
    · by_cases hlength : (after.take size).length < size
      · exact absurd (.inr (by rw [if_neg hsize, if_pos hlength])) h
      · have hle : size ≤ after.length := by
          rw [List.length_take] at hlength
          omega
        simp [hsize, List.take_append_of_le_length hle, List.drop_append_of_le_length hle, hle]
  all_goals exact absurd (.inl rfl) h

theorem start_append_of_frame (h : start stream = .frame payload rest) (more : Bytes) :
    start (stream ++ more) = .frame payload (rest ++ more) := by
  rw [start_append stream more (by simp [Partial, h]), h]

theorem start_append_of_tooLarge {size : Nat} (h : start stream = .tooLarge size rest)
    (more : Bytes) : start (stream ++ more) = .tooLarge size (rest ++ more) := by
  rw [start_append stream more (by simp [Partial, h]), h]

/-- The complete frames at the front of a stream, and the beginning of the next one. -/
inductive Divides : Bytes → List Bytes → Bytes → Prop
  | stop {stream : Bytes} (h : Partial stream) : Divides stream [] stream
  | frame {stream payload rest left : Bytes} {payloads : List Bytes}
    (front : start stream = .frame payload rest) (later : Divides rest payloads left) :
    Divides stream (payload :: payloads) left

theorem Divides.partial_left (h : Divides stream payloads left) : Partial left := by
  induction h with
  | stop h => exact h
  | frame _ _ ih => exact ih

theorem divides_flatMap (short : ∀ payload ∈ payloads, payload.length ≤ maxSize) :
    Divides (payloads.flatMap framed) payloads [] := by
  induction payloads with
  | nil => exact .stop partial_nil
  | cons payload payloads ih =>
    rw [List.flatMap_cons]
    exact .frame (start_framed (short payload List.mem_cons_self) _)
      (ih fun p hp => short p (List.mem_cons_of_mem payload hp))

/-- What has come of a stream of frames is divided into some of its payloads, and what is left
begins the frames of the others. -/
theorem exists_divides (short : ∀ payload ∈ payloads, payload.length ≤ maxSize)
    (whole : stream ++ more = payloads.flatMap framed) :
    ∃ before after left, payloads = before ++ after ∧ Divides stream before left ∧
      left ++ more = after.flatMap framed := by
  induction payloads generalizing stream with
  | nil =>
    obtain ⟨rfl, rfl⟩ := List.append_eq_nil_iff.mp whole
    exact ⟨[], [], [], rfl, .stop partial_nil, rfl⟩
  | cons payload payloads ih =>
    have hwhole : start (stream ++ more) = .frame payload (payloads.flatMap framed) := by
      rw [whole, List.flatMap_cons]
      exact start_framed (short payload List.mem_cons_self) _
    cases hstart : start stream with
    | frame first rest =>
      rw [start_append_of_frame hstart] at hwhole
      obtain ⟨rfl, hrest⟩ : first = payload ∧ rest ++ more = payloads.flatMap framed := by
        simpa using hwhole
      obtain ⟨before, after, left, rfl, hdivides, hleft⟩ :=
        ih (fun p hp => short p (List.mem_cons_of_mem _ hp)) hrest
      exact ⟨first :: before, after, left, rfl, .frame hstart hdivides, hleft⟩
    | tooLarge size rest =>
      rw [start_append_of_tooLarge hstart] at hwhole
      cases hwhole
    | partialHeader => exact ⟨[], payload :: payloads, stream, rfl, .stop (.inl hstart), whole⟩
    | partialPayload => exact ⟨[], payload :: payloads, stream, rfl, .stop (.inr hstart), whole⟩

/-- A stream of frames that has come whole is divided into all of its payloads. -/
theorem eq_nil_of_partial (short : ∀ payload ∈ payloads, payload.length ≤ maxSize)
    (h : Partial (payloads.flatMap framed)) : payloads = [] := by
  cases payloads with
  | nil => rfl
  | cons payload payloads =>
    have hstart := start_framed (short payload List.mem_cons_self) (payloads.flatMap framed)
    rw [← List.flatMap_cons] at hstart
    rcases h with h | h <;> cases hstart.symm.trans h

end Frame
end Ipc
end Lectern
