import Lectern.Proofs.Wire.Live
import Lectern.Response

/-!
# Responses read back

A response is read whole from the object it is written in, whatever number stands beside it,
provided its data is not null: absent data and null would be read alike.
-/

namespace Lectern

open Json

namespace Response

variable {r : Response}

/-- The data of a response can be told from no data and is nested as deep as a value in a
message may be. -/
structure Representable (r : Response) : Prop where
  notNull : r.data ≠ some .null
  legible : ∀ v, r.data = some v → v.Legible (maxDepth - 1)

theorem sorted_fields (r : Response) (id : Option Nat) :
    Value.Sorted (r.fields id) := by
  obtain ⟨ok, data, reason, error⟩ := r
  cases data <;> cases error <;> cases id <;> cases reason <;> simp [fields, Value.present]

theorem legible_fields (h : r.Representable) {id : Option Nat}
    (hid : ∀ n, id = some n → n < UInt64.size) :
    ∀ field ∈ r.fields id, field.2.Legible (maxDepth - 1) := by
  obtain ⟨ok, data, reason, error⟩ := r
  have hdata (v : Value) (hv : data = some v) := h.legible v hv
  have hnumber (n : Nat) (hn : id = some n) := (Decoder.reads_nat (maxDepth - 1) (hid n hn)).legible
  have hreason (x : Reason) := (x.reads (maxDepth - 1)).legible
  cases data <;> cases error <;> cases id <;> cases reason <;>
    simp_all [fields, Value.present]

/-- The number beside a response is passed over. -/
theorem filter_fields (r : Response) (id : Option Nat) :
    ((r.fields id).filter fun field => ["ok", "data", "reason", "error"].contains field.1) =
      r.fields none := by
  obtain ⟨ok, data, reason, error⟩ := r
  cases data <;> cases error <;> cases id <;> cases reason <;> simp [fields, Value.present]

theorem decoder_fields (h : r.Representable) (id : Option Nat) :
    decoder .top (Value.object (r.fields id)).toNode = some r := by
  have hrecord : Fields.record ["ok", "data", "reason", "error"] 1 .top
      (Value.object (r.fields id)).toNode =
      some (.ofValues ⟨maxDepth - 1, false⟩ (r.fields none)) := by
    rw [Fields.record_toNode .top (Decoder.nodup_of_sorted (r.sorted_fields id)),
      r.filter_fields id]
    rfl
  have hreason (x : Reason) :=
    (x.reads 0).optional_some (a := ⟨maxDepth - 1, false⟩) (.inr (Nat.zero_le _))
  have hdata (v : Value) (hv : r.data = some v) :
      Decoder.optional Decoder.value ⟨maxDepth - 1, false⟩ v.toNode = some (some v) :=
    Decoder.optional_of_ne_null (fun hnull => h.notNull (hnull ▸ hv)) (h.legible v hv).value?
  obtain ⟨ok, data, reason, error⟩ := r
  simp only [decoder, hrecord, Option.bind_eq_bind, Option.bind_some]
  cases data <;> cases error <;> cases reason <;>
    simp [fields, Value.present, hreason, hdata]

theorem lookup_id (r : Response) (id : Option Nat) :
    (r.fields id).lookup "id" = id.map fun n => .int n := by
  simp [fields, Value.lookup_present, List.lookup_append, List.lookup_cons]

theorem lookup_data (r : Response) (id : Option Nat) : (r.fields id).lookup "data" = r.data := by
  simp [fields, Value.lookup_present, List.lookup_append, List.lookup_cons]

theorem lookup_event (r : Response) (id : Option Nat) : (r.fields id).lookup "event" = none := by
  simp [fields, Value.lookup_present, List.lookup_append, List.lookup_cons]

end Response

end Lectern
