import Lectern.Proofs.Json.Decoding

/-!
# What a reader makes of what was written

A decoder reads a written value as what it was written for. The statement for a type follows
from those for its parts: a record is read from the object of its fields, and a variant from
an object with its tag, whose other fields are held back.
-/

namespace Lectern
namespace Json

variable {α β : Type} {a b : Access} {v : Value} {levels : Nat}

/-- A decoder reads a value as `x` wherever there is room for its levels. The value is legible
and is not null. -/
structure Decoder.Reads (d : Decoder α) (levels : Nat) (v : Value) (x : α) : Prop where
  notNull : v ≠ .null
  legible : v.Legible levels
  reads : ∀ a : Access, a.Room levels → d a v.toNode = some x

namespace Decoder

variable {d : Decoder α} {x : α}

theorem nodup_of_sorted {keys : List String} (sorted : keys.Pairwise (· < ·)) : keys.Nodup := by
  apply sorted.imp
  rintro k l hlt rfl
  exact String.lt_irrefl k hlt

theorem Reads.mono {more : Nat} (h : d.Reads levels v x) (le : levels ≤ more) :
    d.Reads more v x :=
  ⟨h.notNull, h.legible.mono le, fun a room => h.reads a (room.mono le)⟩

/-- The decoder reads the text of the value. -/
theorem Reads.decode?_chars (h : d.Reads levels v x) (le : levels ≤ maxDepth) :
    decode? d v.chars = some x := by
  rw [decode?, Node.read?_chars, Option.bind_some, h.reads .top (Access.room_top le)]

theorem Reads.map (f : α → β) (h : d.Reads levels v x) : (map f d).Reads levels v (f x) :=
  ⟨h.notNull, h.legible, fun a room => by rw [Decoder.map, h.reads a room, Option.map_some]⟩

theorem reads_text (levels : Nat) (s : String) : text.Reads levels (.text s) s :=
  ⟨Value.noConfusion, Value.legible_text levels s, fun _ _ => rfl⟩

theorem reads_int64 {n : Int} (levels : Nat) (h : IsInt64 n) : int64.Reads levels (.int n) n :=
  ⟨Value.noConfusion, Value.legible_int levels h.exact, fun a _ => int64_toNode a h⟩

theorem reads_nat {n : Nat} (levels : Nat) (h : n < UInt64.size) :
    (nat 64).Reads levels (.int n) n :=
  ⟨Value.noConfusion, Value.legible_int levels (Value.exact_int_iff.mpr ⟨by omega, by omega⟩),
    fun a _ => nat_toNode a h⟩

theorem reads_float {x : Binary64} (levels : Nat) (h : x.ReadsBack) :
    float.Reads levels (.ofBinary64 x) x :=
  ⟨by simp [Value.ofBinary64, h.isFinite], Value.legible_ofBinary64 levels h,
    fun a _ => float_toNode a h⟩

theorem reads_choice {names : List (String × α)} {s : String} (levels : Nat)
    (known : names.lookup s = some x) : (choice names).Reads levels (.text s) x :=
  ⟨Value.noConfusion, Value.legible_text levels s, fun _ _ => known⟩

theorem optional_of_ne_null (notNull : v ≠ .null) (reads : d a v.toNode = some x) :
    optional d a v.toNode = some (some x) := by
  cases v <;> simp_all [Value.toNode, optional]

theorem Reads.optional_some (h : d.Reads levels v x) (room : a.Room levels) :
    optional d a v.toNode = some (some x) :=
  optional_of_ne_null h.notNull (h.reads a room)

theorem optional_ofOption {encode : α → Value} {o : Option α}
    (h : ∀ x, o = some x → d.Reads levels (encode x) x) (room : a.Room levels) :
    optional d a (Value.ofOption encode o).toNode = some o := by
  cases o with
  | none => rfl
  | some x => exact (h x rfl).optional_some room

theorem reads_list {encode : α → Value} {xs : List α}
    (h : ∀ x ∈ xs, d.Reads levels (encode x) x) :
    (list d).Reads (levels + 1) (.list (xs.map encode)) xs where
  notNull := Value.noConfusion
  legible := Value.legible_list fun v hv => by
    obtain ⟨x, hx, rfl⟩ := List.mem_map.mp hv
    exact (h x hx).legible
  reads a room := by
    obtain ⟨b, enter, hroom⟩ := room.enter
    exact list_toNode enter fun x hx => (h x hx).reads b hroom

/-- A record is read from an object of its fields as from the fields themselves. -/
theorem reads_record {names : List String} {least : Nat} {fields : List (String × Value)}
    {read : Fields → Option α} (known : ∀ field ∈ fields, field.1 ∈ names)
    (sorted : Value.Sorted fields)
    (legible : ∀ field ∈ fields, field.2.Legible levels)
    (reads : ∀ a : Access, a.Room levels → read (.ofValues a fields) = some x) :
    Reads (fun a n => (Fields.record names least a n).bind read) (levels + 1) (.object fields)
      x where
  notNull := Value.noConfusion
  legible := Value.legible_object sorted legible
  reads a room := by
    obtain ⟨b, enter, hroom⟩ := room.enter
    have nodup : (fields.map Prod.fst).Nodup :=
      nodup_of_sorted sorted
    have hknown : (fields.filter fun field => names.contains field.1) = fields :=
      List.filter_eq_self.mpr fun field hf => by simpa using known field hf
    simp only [Fields.record_toNode a nodup, hknown, enter, Option.map_some, Option.bind_some,
      reads b hroom]

/-- A variant is read from an object with its tag as from the other fields held back. -/
theorem reads_tagged {tag name : String} {kinds : List (String × β)} {kind : β}
    {fields : List (String × Value)} {read : β × Fields.Carried → Option α}
    (sorted : Value.Sorted fields)
    (hasTag : fields.lookup tag = some (.text name)) (known : kinds.lookup name = some kind)
    (legible : ∀ field ∈ fields, field.2.Legible levels)
    (reads : ∀ a : Access, a.held = true → read (kind,
      ⟨a, (Value.object (fields.filter fun field => field.1 != tag)).toNode⟩) = some x) :
    Reads (fun a n => (Fields.tagged tag kinds a n).bind read) (levels + 1) (.object fields) x where
  notNull := Value.noConfusion
  legible := Value.legible_object sorted legible
  reads a room := by
    obtain ⟨b, enter, hroom⟩ := room.enter
    have nodup : (fields.map Prod.fst).Nodup :=
      nodup_of_sorted sorted
    simp only [Fields.tagged_toNode enter nodup hasTag known hroom legible, Option.bind_some,
      reads b.hold rfl]

theorem legible_ofOption {encode : α → Value} {o : Option α}
    (h : ∀ x, o = some x → d.Reads levels (encode x) x) :
    (Value.ofOption encode o).Legible levels :=
  Value.legible_ofOption fun x hx => (h x hx).legible

@[simp] theorem optional_text_toNode (a : Access) (s : String) :
    optional text a (Value.text s).toNode = some (some s) := rfl

@[simp] theorem optional_ofOption_text (a : Access) (o : Option String) :
    optional text a (Value.ofOption .text o).toNode = some o := by
  cases o <;> rfl

@[simp] theorem optional_ofOption_bool (a : Access) (o : Option Bool) :
    optional bool a (Value.ofOption .bool o).toNode = some o := by
  cases o <;> rfl

end Decoder

namespace Fields

variable {k name : String} {fields : List (String × Value)}

@[simp] theorem required_cons (a : Access) (k : String) (v : Value) (fields : List (String × Value))
    (name : String) (d : Decoder α) :
    (ofValues a ((k, v) :: fields)).required name d =
      if name = k then d a v.toNode else (ofValues a fields).required name d := by
  by_cases h : name = k
  · simp [required, ofValues, h]
  · simp [required, ofValues, List.lookup_cons, h, beq_eq_false_iff_ne.mpr h]

@[simp] theorem defaulted_nil (a : Access) (name : String) (d : Decoder α) (default : α) :
    (ofValues a []).defaulted name d default = some default := rfl

@[simp] theorem defaulted_cons (a : Access) (k : String) (v : Value)
    (fields : List (String × Value)) (name : String) (d : Decoder α) (default : α) :
    (ofValues a ((k, v) :: fields)).defaulted name d default =
      if name = k then d a v.toNode else (ofValues a fields).defaulted name d default := by
  by_cases h : name = k
  · simp [defaulted, ofValues, h]
  · simp [defaulted, ofValues, List.lookup_cons, h, beq_eq_false_iff_ne.mpr h]

@[simp] theorem optional_nil (a : Access) (name : String) (d : Decoder α) :
    (ofValues a []).optional name d = some none := rfl

@[simp] theorem optional_cons (a : Access) (k : String) (v : Value)
    (fields : List (String × Value)) (name : String) (d : Decoder α) :
    (ofValues a ((k, v) :: fields)).optional name d =
      if name = k then Decoder.optional d a v.toNode else (ofValues a fields).optional name d :=
  defaulted_cons a k v fields name _ none

/-- The record of an object that was held back. -/
theorem record_of_held {names : List String} {least : Nat} (held : a.held = true)
    (known : ∀ field ∈ fields, field.1 ∈ names) (nodup : (fields.map Prod.fst).Nodup) :
    record names least a (Value.object fields).toNode = some (ofValues a fields) := by
  rw [record_toNode a nodup, Access.enter, if_pos held, Option.map_some,
    List.filter_eq_self.mpr fun field hf => by simpa using known field hf]

end Fields
end Json

end Lectern
