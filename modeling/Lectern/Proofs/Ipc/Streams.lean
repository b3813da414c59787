import Lectern.Ipc.Client
import Lectern.Proofs.Ipc.Frames

/-!
# Streams read to their end

A stream is read frame by frame until something else than a payload is found. What has been
written is found again as it was, and writer and reader agree on how long a payload may be.
A stream that breaks off inside a payload is noticed. One that breaks off inside a header
is not: it ends like a stream that is complete.
-/

namespace Lectern
namespace Ipc
namespace Frame

variable {payload rest stream more left : Bytes} {payloads : List Bytes} {size : Nat}

/-- The size that the four bytes of a header announce. -/
def announced (a b c d : UInt8) : Nat :=
  a.toNat + (b.toNat <<< 8) + (c.toNat <<< 16) + (d.toNat <<< 24)

theorem announced_eq (a b c d : UInt8) :
    announced a b c d = a.toNat + b.toNat * 256 + c.toNat * 65536 + d.toNat * 16777216 := by
  unfold announced
  rw [Nat.shiftLeft_eq, Nat.shiftLeft_eq, Nat.shiftLeft_eq]

theorem announced_lt (a b c d : UInt8) : announced a b c d < UInt32.size := by
  have ha : a.toNat < 256 := a.toNat_lt
  have hb : b.toNat < 256 := b.toNat_lt
  have hc : c.toNat < 256 := c.toNat_lt
  have hd : d.toNat < 256 := d.toNat_lt
  simp only [announced_eq, UInt32.size]
  omega

theorem header_announced (a b c d : UInt8) : header (announced a b c d) = [a, b, c, d] := by
  have ha : a.toNat < 256 := a.toNat_lt
  have hb : b.toNat < 256 := b.toNat_lt
  have hc : c.toNat < 256 := c.toNat_lt
  have hd : d.toNat < 256 := d.toNat_lt
  simp only [header, announced_eq, List.cons.injEq, and_true, ← UInt8.toNat_inj,
    UInt8.toNat_ofNat', Nat.shiftRight_eq_div_pow, Nat.reducePow]
  omega

theorem length_header (size : Nat) : (header size).length = 4 := rfl

/-- A stream has a whole header or is shorter than one. -/
theorem header_or_short (stream : Bytes) :
    (∃ size rest, size < UInt32.size ∧ stream = header size ++ rest) ∨ stream.length < 4 := by
  rcases stream with _ | ⟨a, _ | ⟨b, _ | ⟨c, _ | ⟨d, rest⟩⟩⟩⟩
  case cons.cons.cons.cons =>
    exact .inl ⟨announced a b c d, rest, announced_lt a b c d, by rw [header_announced]; rfl⟩
  all_goals exact .inr (by simp)

theorem read_of_length_lt (short : stream.length < 4) : read stream = .finished := by
  rcases stream with _ | ⟨a, _ | ⟨b, _ | ⟨c, _ | ⟨d, rest⟩⟩⟩⟩
  case cons.cons.cons.cons =>
    simp only [List.length_cons] at short
    omega
  all_goals rfl

/-- What a header and the bytes behind it come to. -/
theorem read_header (h : size < UInt32.size) (rest : Bytes) :
    read (header size ++ rest) =
      if maxSize < size then .failed (.tooLarge size) rest
      else if rest.length < size then .failed .payloadCutShort []
      else .frame (rest.take size) (rest.drop size) := by
  rw [read, start_header_append h]
  by_cases large : maxSize < size
  · simp only [large, if_true]
  · by_cases cut : rest.length < size
    · have hcut : (rest.take size).length < size := by rw [List.length_take]; omega
      simp only [large, hcut, cut, if_false, if_true]
    · have hwhole : ¬ (rest.take size).length < size := by rw [List.length_take]; omega
      simp only [large, hwhole, cut, if_false]

theorem lt_size_of_le_maxSize (h : size ≤ maxSize) : size < UInt32.size :=
  Nat.lt_of_le_of_lt h (by decide)

theorem read_eq_frame_iff :
    read stream = .frame payload rest ↔
      payload.length ≤ maxSize ∧ stream = framed payload ++ rest := by
  constructor
  · intro h
    rcases header_or_short stream with ⟨size, after, hsize, rfl⟩ | hshort
    · rw [read_header hsize] at h
      split at h
      · cases h
      · split at h
        · cases h
        · rename_i fits whole
          cases h
          have hlength : (after.take size).length = size := by
            rw [List.length_take]
            omega
          refine ⟨by omega, ?_⟩
          rw [framed, hlength, List.append_assoc, List.take_append_drop]
    · rw [read_of_length_lt hshort] at h
      cases h
  · rintro ⟨fits, rfl⟩
    rw [read, start_framed fits]

theorem read_eq_tooLarge_iff :
    read stream = .failed (.tooLarge size) rest ↔
      maxSize < size ∧ size < UInt32.size ∧ stream = header size ++ rest := by
  constructor
  · intro h
    rcases header_or_short stream with ⟨size, after, hsize, rfl⟩ | hshort
    · rw [read_header hsize] at h
      split at h
      · cases h
        exact ⟨‹_›, hsize, rfl⟩
      · split at h
        · cases h
        · cases h
    · rw [read_of_length_lt hshort] at h
      cases h
  · rintro ⟨large, hsize, rfl⟩
    rw [read_header hsize, if_pos large]

theorem length_lt_of_read (h : read stream = .frame payload rest) :
    rest.length < stream.length := by
  obtain ⟨-, rfl⟩ := read_eq_frame_iff.mp h
  rw [List.length_append, framed, List.length_append, length_header]
  omega

/-- The payloads of the first `n` frames of a stream, and the bytes behind them. -/
def readMany : Nat → Bytes → Option (List Bytes × Bytes)
  | 0, stream => some ([], stream)
  | n + 1, stream =>
    match read stream with
    | .frame payload rest =>
      (readMany n rest).map fun (payloads, left) => (payload :: payloads, left)
    | _ => none

/-- The payloads of a stream that will not grow, and what is found instead of one more. -/
def readAll (stream : Bytes) : List Bytes × Read :=
  match _h : read stream with
  | .frame payload rest => (payload :: (readAll rest).1, (readAll rest).2)
  | last => ([], last)
termination_by stream.length
decreasing_by all_goals exact length_lt_of_read _h

theorem readAll_framed (short : payload.length ≤ maxSize) (more : Bytes) :
    readAll (framed payload ++ more) = (payload :: (readAll more).1, (readAll more).2) := by
  have hread : read (framed payload ++ more) = .frame payload more :=
    read_eq_frame_iff.mpr ⟨short, rfl⟩
  rw [readAll]
  split
  · rename_i first rest h
    cases hread.symm.trans h
    rfl
  · rename_i h
    exact absurd hread (h payload more)

theorem readAll_of_ne_frame (h : ∀ payload rest, read stream ≠ .frame payload rest) :
    readAll stream = ([], read stream) := by
  rw [readAll]
  split
  · rename_i payload rest hread
    exact absurd hread (h payload rest)
  · rfl

theorem readAll_of_length_lt (short : stream.length < 4) : readAll stream = ([], .finished) := by
  have hread := read_of_length_lt short
  rw [readAll_of_ne_frame (by simp [hread]), hread]

theorem readAll_nil : readAll [] = ([], .finished) := readAll_of_length_lt (by decide)

theorem readAll_flatMap_framed (short : ∀ payload ∈ payloads, payload.length ≤ maxSize)
    (more : Bytes) :
    readAll (payloads.flatMap framed ++ more) =
      (payloads ++ (readAll more).1, (readAll more).2) := by
  induction payloads with
  | nil => rfl
  | cons payload payloads ih =>
    rw [List.flatMap_cons, List.append_assoc, readAll_framed (short payload List.mem_cons_self),
      ih fun p hp => short p (List.mem_cons_of_mem _ hp)]
    rfl

theorem readMany_flatMap_framed (short : ∀ payload ∈ payloads, payload.length ≤ maxSize)
    (more : Bytes) :
    readMany payloads.length (payloads.flatMap framed ++ more) = some (payloads, more) := by
  induction payloads with
  | nil => rfl
  | cons payload payloads ih =>
    have hread : read (framed payload ++ (payloads.flatMap framed ++ more)) =
        .frame payload (payloads.flatMap framed ++ more) :=
      read_eq_frame_iff.mpr ⟨short payload List.mem_cons_self, rfl⟩
    rw [List.flatMap_cons, List.append_assoc, List.length_cons, readMany, hread]
    simp only [ih fun p hp => short p (List.mem_cons_of_mem _ hp), Option.map_some]

theorem write_of_le (short : payload.length ≤ maxSize) : write payload = .ok (framed payload) :=
  if_neg (Nat.not_lt.mpr short)

theorem write_of_lt (long : maxSize < payload.length) :
    write payload = .error (.tooLarge payload.length) := if_pos long

theorem mapM_ofValue {values : List Json.Value}
    (short : ∀ v ∈ values, (Text.toBytes v.chars).length ≤ maxSize) :
    values.mapM ofValue = .ok (values.map fun v => framed (Text.toBytes v.chars)) := by
  induction values with
  | nil => rfl
  | cons v values ih =>
    have hv : ofValue v = .ok (framed (Text.toBytes v.chars)) :=
      write_of_le (short v List.mem_cons_self)
    rw [List.mapM_cons, hv, ih fun w hw => short w (List.mem_cons_of_mem _ hw)]
    rfl

theorem send_of_long {c : Connection} {m : Message}
    (long : maxSize < (Text.toBytes m.toJson.chars).length) : (c.send m).sent = c.sent := by
  have hwrite : ofValue m.toJson = .error (.tooLarge (Text.toBytes m.toJson.chars).length) :=
    write_of_lt long
  by_cases can : c.canSend = true
  · simp only [Connection.send, can, hwrite, if_true]
  · simp only [Connection.send, can, Bool.false_eq_true, if_false]

/-- A request that is too long does not come to the server. -/
theorem request_of_long {c : Client} {s : Server} {command : Command}
    (long : maxSize < (Text.toBytes (Request.toJson ⟨some c.nextId, command⟩).chars).length) :
    (c.request s command).2.2 = s := by
  have hframe : c.requestFrame command = .error (.tooLarge
      (Text.toBytes (Request.toJson ⟨some c.nextId, command⟩).chars).length) := write_of_lt long
  simp only [Client.request, hframe]

/-- What has been written is read back, payload by payload, whatever comes behind it. A text that
is too long is not written at all, and read is what has been written with a length that a frame
may have; what else announces a length beyond it is refused for that. -/
theorem written_frames_read_back {values : List Json.Value}
    (short : ∀ v ∈ values, (Text.toBytes v.chars).length ≤ maxSize) :
    (∃ frames, values.mapM ofValue = .ok frames ∧
      readAll frames.flatten = (values.map fun v => Text.toBytes v.chars, .finished) ∧
      ∀ more, readMany values.length (frames.flatten ++ more) =
        some (values.map fun v => Text.toBytes v.chars, more)) ∧
    (∀ v : Json.Value, maxSize < (Text.toBytes v.chars).length →
      ofValue v = .error (.tooLarge (Text.toBytes v.chars).length)) ∧
    (∀ (c : Connection) (m : Message), maxSize < (Text.toBytes m.toJson.chars).length →
      (c.send m).sent = c.sent) ∧
    (∀ (c : Client) (s : Server) (command : Command),
      maxSize < (Text.toBytes (Request.toJson ⟨some c.nextId, command⟩).chars).length →
      (c.request s command).2.2 = s) ∧
    (∀ stream payload rest, read stream = .frame payload rest → payload.length ≤ maxSize) ∧
    (∀ stream size rest, read stream = .failed (.tooLarge size) rest ↔
      maxSize < size ∧ size < UInt32.size ∧ stream = header size ++ rest) ∧
    ∀ payload : Bytes, payload.length < UInt32.size →
      ((∃ bytes, write payload = .ok bytes) ↔
        ∃ first rest, read (framed payload) = .frame first rest) := by
  have hshort : ∀ payload ∈ values.map fun v => Text.toBytes v.chars,
      payload.length ≤ maxSize := by
    simpa using short
  have hflatten : (values.map fun v => framed (Text.toBytes v.chars)).flatten =
      (values.map fun v => Text.toBytes v.chars).flatMap framed := by
    rw [List.flatMap_def, List.map_map]
    rfl
  refine ⟨⟨_, mapM_ofValue short, ?_, fun more => ?_⟩, fun v long => write_of_lt long,
    fun c m long => send_of_long long, fun c s command long => request_of_long long,
    fun stream payload rest h => (read_eq_frame_iff.mp h).1,
    fun stream size rest => read_eq_tooLarge_iff, fun payload hsize => ⟨?_, ?_⟩⟩
  · have hread := readAll_flatMap_framed hshort []
    rw [readAll_nil, List.append_nil, List.append_nil] at hread
    rw [hflatten, hread]
  · have hread := readMany_flatMap_framed hshort more
    rw [List.length_map] at hread
    rw [hflatten, hread]
  · rintro ⟨bytes, hwrite⟩
    have fits : payload.length ≤ maxSize := by
      refine Nat.not_lt.mp fun long => ?_
      rw [write_of_lt long] at hwrite
      cases hwrite
    exact ⟨payload, [], read_eq_frame_iff.mpr ⟨fits, (List.append_nil _).symm⟩⟩
  · rintro ⟨first, rest, hread⟩
    rw [framed, read_header hsize] at hread
    split at hread
    · cases hread
    · exact ⟨framed payload, write_of_le (Nat.not_lt.mp ‹_›)⟩

theorem written_frames_read_back_two :
    (∀ v ∈ [Json.Value.int 7, .text "é"], (Text.toBytes v.chars).length ≤ maxSize) ∧
    ∃ frames, [Json.Value.int 7, .text "é"].mapM ofValue = .ok frames ∧
      readAll frames.flatten =
        ([Json.Value.int 7, .text "é"].map fun v => Text.toBytes v.chars, .finished) ∧
      ∀ more, readMany 2 (frames.flatten ++ more) =
        some ([Json.Value.int 7, .text "é"].map fun v => Text.toBytes v.chars, more) := by
  have short : ∀ v ∈ [Json.Value.int 7, .text "é"],
      (Text.toBytes v.chars).length ≤ maxSize := by decide
  exact ⟨short, (written_frames_read_back short).1⟩

/-- A stream of frames that breaks off has some whole frames at its front and a part of the next
one. -/
theorem exists_cut (cut : stream ++ more = payloads.flatMap framed) (proper : more ≠ []) :
    ∃ before payload after left missing, payloads = before ++ payload :: after ∧
      stream = before.flatMap framed ++ left ∧ left ++ missing = framed payload ∧
      missing ≠ [] := by
  induction payloads generalizing stream with
  | nil => exact absurd (List.append_eq_nil_iff.mp cut).2 proper
  | cons payload payloads ih =>
    rw [List.flatMap_cons] at cut
    by_cases inside : stream.length < (framed payload).length
    · obtain ⟨missing, hmissing, -⟩ | ⟨extra, rfl, -⟩ := List.append_eq_append_iff.mp cut
      · refine ⟨[], payload, payloads, stream, missing, rfl, rfl, hmissing.symm, ?_⟩
        rintro rfl
        rw [hmissing, List.append_nil] at inside
        exact Nat.lt_irrefl _ inside
      · rw [List.length_append] at inside
        omega
    · obtain ⟨missing, hmissing, hmore⟩ | ⟨extra, rfl, hrest⟩ := List.append_eq_append_iff.mp cut
      · have hnil : missing = [] := by
          refine List.eq_nil_of_length_eq_zero ?_
          rw [hmissing, List.length_append] at inside
          omega
        subst hnil
        rw [List.append_nil] at hmissing
        have hrest : [] ++ more = payloads.flatMap framed := hmore ▸ rfl
        obtain ⟨before, next, after, left, rest, rfl, hleft, hnext, hrest⟩ := ih hrest
        refine ⟨payload :: before, next, after, left, rest, rfl, ?_, hnext, hrest⟩
        rw [List.flatMap_cons, List.append_assoc, ← hleft, List.append_nil, hmissing]
      · obtain ⟨before, next, after, left, rest, rfl, rfl, hnext, hleft⟩ := ih hrest.symm
        exact ⟨payload :: before, next, after, left, rest, rfl, by simp, hnext, hleft⟩

/-- A frame of which a part is missing is taken for the end of the stream as long as its header is
not complete, and is a mistake of the stream from there on. -/
theorem readAll_part {missing : Bytes} (fits : payload.length ≤ maxSize)
    (part : left ++ missing = framed payload) (some : missing ≠ []) :
    readAll left = ([], if left.length < 4 then .finished else .failed .payloadCutShort []) := by
  split
  · exact readAll_of_length_lt ‹_›
  · have hread : read left = .failed .payloadCutShort [] := by
      obtain ⟨rest, rfl⟩ : ∃ rest, left = header payload.length ++ rest := by
        obtain ⟨a, h, -⟩ | ⟨a, h, -⟩ := List.append_eq_append_iff.mp part
        · have hlength := congrArg List.length h
          rw [List.length_append, length_header] at hlength
          have ha : a = [] := List.eq_nil_of_length_eq_zero (by omega)
          exact ⟨[], by rw [h, ha, List.append_nil, List.append_nil]⟩
        · exact ⟨a, h⟩
      have hrest : rest.length < payload.length := by
        have hlength := congrArg List.length part
        have hmissing := List.length_pos_iff.mpr some
        simp only [framed, List.length_append, length_header] at hlength
        omega
      rw [read_header (lt_size_of_le_maxSize fits), if_neg (Nat.not_lt.mpr fits), if_pos hrest]
    rw [readAll_of_ne_frame (by simp [hread]), hread]

/-- A stream that breaks off is read up to the frame in which it does. It ends with an error when
that frame's header has come whole, and like a stream that is complete when it has not. -/
theorem readAll_cut (short : ∀ payload ∈ payloads, payload.length ≤ maxSize)
    (cut : stream ++ more = payloads.flatMap framed) (proper : more ≠ []) :
    ∃ before payload after left missing, payloads = before ++ payload :: after ∧
      stream = before.flatMap framed ++ left ∧ left ++ missing = framed payload ∧
      missing ≠ [] ∧
      readAll stream =
        (before, if left.length < 4 then .finished else .failed .payloadCutShort []) := by
  obtain ⟨before, payload, after, left, missing, rfl, rfl, part, some⟩ := exists_cut cut proper
  refine ⟨before, payload, after, left, missing, rfl, rfl, part, some, ?_⟩
  rw [readAll_flatMap_framed fun p hp => short p (List.mem_append_left _ hp),
    readAll_part (short payload (by simp)) part some, List.append_nil]

/-- Two empty objects. -/
def pair : List Bytes := [Text.toBytes ['\x7b', '\x7d'], Text.toBytes ['\x7b', '\x7d']]

/-- The frame of the first, and half the header of the second. -/
def cutPair : Bytes := framed (Text.toBytes ['\x7b', '\x7d']) ++ [2, 0]

theorem readAll_cut_pair :
    ((∀ payload ∈ pair, payload.length ≤ maxSize) ∧
      cutPair ++ [0, 0, 0x7b, 0x7d] = pair.flatMap framed ∧ ([0, 0, 0x7b, 0x7d] : Bytes) ≠ []) ∧
    ∃ before payload after left missing, pair = before ++ payload :: after ∧
      cutPair = before.flatMap framed ++ left ∧ left ++ missing = framed payload ∧
      missing ≠ [] ∧
      readAll cutPair =
        (before, if left.length < 4 then .finished else .failed .payloadCutShort []) := by
  have short : ∀ payload ∈ pair, payload.length ≤ maxSize := by decide
  have cut : cutPair ++ [0, 0, 0x7b, 0x7d] = pair.flatMap framed := by decide
  have proper : ([0, 0, 0x7b, 0x7d] : Bytes) ≠ [] := List.cons_ne_nil _ _
  exact ⟨⟨short, cut, proper⟩, readAll_cut short cut proper⟩

/-- A stream can break off inside a frame and end like one that is complete. -/
theorem header_cut_unnoticed :
    ¬ ∀ (payloads : List Bytes) (stream more : Bytes),
      (∀ payload ∈ payloads, payload.length ≤ maxSize) →
      stream ++ more = payloads.flatMap framed → more ≠ [] →
      ((readAll stream).2 = .finished ↔
        ∃ before after, payloads = before ++ after ∧ stream = before.flatMap framed) := by
  intro noticed
  have hread : (readAll cutPair).2 = .finished := by
    rw [cutPair, readAll_framed (by decide), readAll_of_length_lt (by decide)]
  obtain ⟨before, after, hpair, hstream⟩ :=
    (noticed pair cutPair [0, 0, 0x7b, 0x7d] (by decide) (by decide)
      (List.cons_ne_nil _ _)).mp hread
  have hbefore : before = pair.take before.length := by rw [hpair, List.take_left]
  have hlength : before.length ≤ 2 := by
    have := congrArg List.length hpair
    rw [List.length_append] at this
    exact Nat.le.intro this.symm
  have hnone : ∀ n ≤ 2, cutPair ≠ (pair.take n).flatMap framed := by decide
  exact hnone _ hlength (hbefore ▸ hstream)

end Frame
end Ipc
end Lectern
