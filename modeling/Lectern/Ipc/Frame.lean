import Lectern.Json.Node
import Lectern.Text.Utf8

/-!
# Frames

A frame is the length of its payload in four bytes, the least significant first, and the
payload. Payloads longer than ten mebibytes are neither written nor read.
-/

namespace Lectern
namespace Ipc

abbrev Bytes := List UInt8

namespace Frame

def maxSize : Nat := 10 * 1024 * 1024

inductive Problem where
  | tooLarge (size : Nat)
  | payloadCutShort
deriving DecidableEq

def Problem.message : Problem → String
  | tooLarge size =>
    "Message too large: " ++ size.repr ++ " bytes (max: " ++ maxSize.repr ++ ")"
  | payloadCutShort => "Failed to read message payload"

def header (size : Nat) : Bytes :=
  [UInt8.ofNat size, UInt8.ofNat (size >>> 8), UInt8.ofNat (size >>> 16),
    UInt8.ofNat (size >>> 24)]

def write (payload : Bytes) : Except Problem Bytes :=
  if maxSize < payload.length then .error (.tooLarge payload.length)
  else .ok (header payload.length ++ payload)

/-- The frame of the compact text of a value. -/
def ofValue (v : Json.Value) : Except Problem Bytes := write (Text.toBytes v.chars)

/-- What the bytes of a stream begin with. -/
inductive Start where
  | frame (payload rest : Bytes)
  | tooLarge (size : Nat) (rest : Bytes)
  | partialHeader
  | partialPayload

def start : Bytes → Start
  | a :: b :: c :: d :: rest =>
    let size := a.toNat + (b.toNat <<< 8) + (c.toNat <<< 16) + (d.toNat <<< 24)
    if maxSize < size then .tooLarge size rest
    else
      let payload := rest.take size
      if payload.length < size then .partialPayload else .frame payload (rest.drop size)
  | _ => .partialHeader

/-- How many reads one frame takes on a stream that ends behind these bytes: one for a header,
one for a payload, and one for the end where it is met. An empty payload needs none. -/
def reads (stream : Bytes) : Nat :=
  match start stream with
  | .frame payload _ => if payload.isEmpty then 1 else 2
  | .tooLarge _ _ => 1
  | .partialHeader => if stream.isEmpty then 1 else 2
  | .partialPayload => if stream.length = 4 then 2 else 3

/-- What reading one frame of a stream that will not grow comes to, and the bytes left. -/
inductive Read where
  | frame (payload rest : Bytes)
  | finished
  | failed (problem : Problem) (rest : Bytes)

/-- Fewer than four bytes count as the end of the stream. -/
def read (stream : Bytes) : Read :=
  match start stream with
  | .frame payload rest => .frame payload rest
  | .tooLarge size rest => .failed (.tooLarge size) rest
  | .partialHeader => .finished
  | .partialPayload => .failed .payloadCutShort []

theorem start_header_append {size : Nat} (h : size < UInt32.size) (rest : Bytes) :
    start (header size ++ rest) =
      if maxSize < size then .tooLarge size rest
      else if (rest.take size).length < size then .partialPayload
      else .frame (rest.take size) (rest.drop size) := by
  have value : (UInt8.ofNat size).toNat + ((UInt8.ofNat (size >>> 8)).toNat <<< 8) +
      ((UInt8.ofNat (size >>> 16)).toNat <<< 16) +
      ((UInt8.ofNat (size >>> 24)).toNat <<< 24) = size := by
    simp only [UInt32.size] at h
    simp only [UInt8.toNat_ofNat']
    omega
  simp only [header, List.cons_append, List.nil_append, start, value]

/-- A frame that has been written is found at the front of whatever follows it. -/
theorem start_append_of_write {payload bytes : Bytes} (h : write payload = .ok bytes)
    (rest : Bytes) : start (bytes ++ rest) = .frame payload rest := by
  unfold write at h
  split at h
  · cases h
  · rename_i fits
    cases h
    have bound : maxSize < UInt32.size := by decide
    rw [List.append_assoc, start_header_append (by omega)]
    simp [fits]

theorem length_lt_of_start {stream payload rest : Bytes}
    (h : start stream = .frame payload rest) : rest.length < stream.length := by
  unfold start at h
  split at h
  · rename_i a b c d after
    simp only at h
    generalize a.toNat + (b.toNat <<< 8) + (c.toNat <<< 16) + (d.toNat <<< 24) = size at h
    split at h
    · cases h
    · split at h
      · cases h
      · cases h
        simp only [List.length_cons, List.length_drop]
        omega
  · cases h

end Frame

/-- The document in a payload. -/
def document? (payload : Bytes) : Option Json.Node :=
  (Text.ofBytes? payload).bind Json.Node.read?

/-- The document in a payload, if all of it can be read as a value. -/
def readable? (payload : Bytes) : Option Json.Node :=
  (document? payload).filter fun n => (n.value? Json.maxDepth).isSome

end Ipc
end Lectern
