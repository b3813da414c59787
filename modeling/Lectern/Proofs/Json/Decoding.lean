import Lectern.Number.Int64
import Lectern.Proofs.Json.RoundTrip

/-!
# Decoders on written values

What a decoder makes of the node of a value, in terms of the value: a record of an object
whose keys are among the known ones has just its fields, and what stands beside a tag can
be held back. Whether the decoder comes by the node directly or the node was held back makes
no difference as long as there is room for its levels.
-/

namespace Lectern

theorem IsInt64.exact {n : Int} (h : IsInt64 n) : (Json.Value.int n).Exact := by
  have hsize : ((1 <<< 63 : Nat) : Int) ≤ UInt64.size := by decide
  exact Json.Value.exact_int_iff.mpr ⟨h.1, by have := h.2; omega⟩

namespace Json

variable {α β : Type} {a b : Access} {v : Value} {levels : Nat}

namespace Value

/-- Nested at most so deep, with keys in their order and with numbers that survive: the value
is read back from its text. -/
structure Legible (levels : Nat) (v : Value) : Prop where
  shaped : v.Shaped levels
  exact : v.Exact

theorem Legible.mono {more : Nat} (h : v.Legible levels) (le : levels ≤ more) :
    v.Legible more := ⟨h.shaped.mono le, h.exact⟩

theorem Legible.value? (h : v.Legible levels) : v.toNode.value? levels = some v :=
  value?_toNode h.shaped h.exact

@[simp] theorem legible_null (levels : Nat) : null.Legible levels := by
  cases levels <;> exact ⟨trivial, .null⟩

@[simp] theorem legible_bool (levels : Nat) (p : Bool) : (bool p).Legible levels := by
  cases levels <;> exact ⟨trivial, .bool p⟩

@[simp] theorem legible_text (levels : Nat) (s : String) : (text s).Legible levels := by
  cases levels <;> exact ⟨trivial, .text s⟩

@[simp] theorem shaped_bool (levels : Nat) (p : Bool) : (bool p).Shaped levels :=
  (legible_bool levels p).shaped

@[simp] theorem shaped_int (levels : Nat) (n : Int) : (int n).Shaped levels := by
  cases levels <;> trivial

@[simp] theorem shaped_text (levels : Nat) (s : String) : (text s).Shaped levels :=
  (legible_text levels s).shaped

@[simp] theorem shaped_ofBinary64 (levels : Nat) (x : Binary64) :
    (ofBinary64 x).Shaped levels := by
  unfold ofBinary64
  split <;> cases levels <;> trivial

theorem legible_int {n : Int} (levels : Nat) (h : (int n).Exact) : (int n).Legible levels := by
  cases levels <;> exact ⟨trivial, h⟩

theorem legible_ofBinary64 {x : Binary64} (levels : Nat) (h : x.ReadsBack) :
    (ofBinary64 x).Legible levels := by
  rw [ofBinary64, if_pos h.isFinite]
  cases levels <;> exact ⟨trivial, .float h⟩

theorem legible_list {items : List Value} (h : ∀ v ∈ items, v.Legible levels) :
    (list items).Legible (levels + 1) :=
  ⟨fun v hv => (h v hv).shaped, .list fun v hv => (h v hv).exact⟩

theorem legible_object {fields : List (String × Value)}
    (sorted : Value.Sorted fields)
    (h : ∀ field ∈ fields, field.2.Legible levels) : (object fields).Legible (levels + 1) :=
  ⟨⟨sorted, fun field hf => (h field hf).shaped⟩, .object fun field hf => (h field hf).exact⟩

theorem legible_ofOption {encode : α → Value} {o : Option α}
    (h : ∀ x, o = some x → (encode x).Legible levels) : (ofOption encode o).Legible levels := by
  cases o with
  | none => exact legible_null levels
  | some x => exact h x rfl

@[simp] theorem legible_ofOption_text (levels : Nat) (o : Option String) :
    (ofOption text o).Legible levels := legible_ofOption fun s _ => legible_text levels s

@[simp] theorem legible_ofOption_bool (levels : Nat) (o : Option Bool) :
    (ofOption bool o).Legible levels := legible_ofOption fun p _ => legible_bool levels p

end Value

/-- A field of a document is looked for from its end; in a value each key stands once. -/
theorem Node.field?_toNode {fields : List (String × Value)} (name : String)
    (nodup : (fields.map Prod.fst).Nodup) :
    (Value.object fields).toNode.field? name = (fields.lookup name).map Value.toNode := by
  simp only [Value.toNode, Value.fieldNodes_eq_map, Node.field?]
  induction fields with
  | nil => rfl
  | cons field rest ih =>
    obtain ⟨k, v⟩ := field
    obtain ⟨hk, hrest⟩ := List.nodup_cons.mp nodup
    rw [List.map_cons, List.reverse_cons, List.find?_append]
    by_cases h : name = k
    · subst h
      have hnone : ((rest.map fun field => (some field.1, field.2.toNode)).reverse.find?
          fun field => field.1 == some name) = none := by
        simp only [List.find?_eq_none, List.mem_reverse, List.mem_map]
        rintro _ ⟨field, hfield, rfl⟩ heq
        exact hk (List.mem_map.mpr ⟨field, hfield, by simpa using heq⟩)
      simp [hnone]
    · simp [List.lookup_cons, beq_eq_false_iff_ne.mpr h, Ne.symm h, ih hrest]

theorem Value.lookup_present (key : String) (encode : α → Value) (o : Option α)
    (name : String) :
    (present key encode o).lookup name = if name = key then o.map encode else none := by
  cases o with
  | none => simp [present]
  | some x =>
    by_cases h : name = key <;> simp [present, h, List.lookup_cons, beq_eq_false_iff_ne.mpr]

namespace Access

/-- So many more lists and objects may open. -/
def Room (a : Access) (levels : Nat) : Prop := a.held = true ∨ levels ≤ a.depth

theorem room_top (h : levels ≤ maxDepth) : top.Room levels := .inr h

theorem room_hold (a : Access) (levels : Nat) : a.hold.Room levels := .inl rfl

theorem Room.mono {fewer : Nat} (h : a.Room levels) (le : fewer ≤ levels) : a.Room fewer :=
  h.imp_right fun hdepth => Nat.le_trans le hdepth

theorem Room.enter (h : a.Room (levels + 1)) : ∃ b, a.enter = some b ∧ b.Room levels := by
  obtain ⟨depth, held⟩ := a
  cases held with
  | true => exact ⟨⟨depth, true⟩, rfl, .inl rfl⟩
  | false =>
    have hdepth : levels + 1 ≤ depth := h.resolve_left (by simp)
    obtain ⟨n, rfl⟩ : ∃ n, depth = n + 1 := ⟨depth - 1, by omega⟩
    exact ⟨⟨n, false⟩, rfl, .inr (by simpa using hdepth)⟩

theorem Room.holds (h : a.Room levels) (legible : v.Legible levels) :
    a.holds v.toNode = true := by
  rcases h with h | h
  · simp [Access.holds, h]
  · simp [Access.holds, (legible.mono h).value?]

end Access

namespace Decoder

@[simp] theorem text_toNode (a : Access) (s : String) : text a (Value.text s).toNode = some s := rfl

@[simp] theorem bool_toNode (a : Access) (p : Bool) : bool a (Value.bool p).toNode = some p := rfl

theorem int_toNode {least greatest n : Int} (a : Access) (exact : (Value.int n).Exact)
    (hleast : least ≤ n) (hgreatest : n ≤ greatest) :
    int least greatest a (Value.int n).toNode = some n := by
  obtain ⟨hl, hg⟩ := Value.exact_int_iff.mp exact
  simp [int, Value.toNode, Numeral.value?_ofInt hl hg, hleast, hgreatest]

theorem int64_toNode {n : Int} (a : Access) (h : IsInt64 n) :
    int64 a (Value.int n).toNode = some n := int_toNode a h.exact h.1 h.2

theorem nat_toNode {n : Nat} (a : Access) (h : n < UInt64.size) :
    nat 64 a (Value.int n).toNode = some n := by
  have hsize : ((1 <<< 64 : Nat) : Int) = UInt64.size := rfl
  have hexact : (Value.int n).Exact := Value.exact_int_iff.mpr ⟨by omega, by omega⟩
  rw [nat, map, int_toNode a hexact (by omega) (by omega)]
  rfl

theorem float_toNode {x : Binary64} (a : Access) (h : x.ReadsBack) :
    float a (Value.ofBinary64 x).toNode = some x := by
  simp [Value.ofBinary64, h.isFinite, Value.toNode, float, h.value?_numeral]

@[simp] theorem choice_toNode (names : List (String × α)) (a : Access) (s : String) :
    choice names a (Value.text s).toNode = names.lookup s := rfl

theorem list_toNode {d : Decoder α} {encode : α → Value} {xs : List α} (enter : a.enter = some b)
    (reads : ∀ x ∈ xs, d b (encode x).toNode = some x) :
    list d a (Value.list (xs.map encode)).toNode = some xs := by
  have hitems : ((xs.map encode).map Value.toNode).mapM (d b) = some xs := by
    rw [List.map_map]
    exact Value.mapM_map_eq_some reads
  simp only [list, Value.toNode, Value.itemNodes_eq_map, enter, Option.bind_some, hitems]

end Decoder

namespace Fields

variable {names : List String} {fields : List (String × Value)} {least : Nat}

/-- The fields of an object that has been written. -/
def ofValues (a : Access) (fields : List (String × Value)) : Fields :=
  ⟨a, fields.map fun field => (field.1, field.2.toNode)⟩

@[simp] theorem access_ofValues (a : Access) (fields : List (String × Value)) :
    (ofValues a fields).access = a := rfl

theorem ofObject_toNode (a : Access) (fields : List (String × Value)) :
    ofObject a (Value.object fields).toNode = a.enter.map (ofValues · fields) := by
  have hentries : (fields.map fun field => (some field.1, field.2.toNode)).mapM
      (fun field : Option String × Node => field.1.map (·, field.2)) =
      some (fields.map fun field => (field.1, field.2.toNode)) := by
    rw [show (fields.map fun field => (some field.1, field.2.toNode)) =
      (fields.map fun field => (field.1, field.2.toNode)).map fun entry =>
        (some entry.1, entry.2) by simp]
    exact Value.mapM_map_eq_some fun entry _ => rfl
  cases hb : a.enter with
  | none => simp [ofObject, Value.toNode, hb]
  | some b => simp [ofObject, Value.toNode, Value.fieldNodes_eq_map, hb, hentries, ofValues]

/-- Fields of unknown names are passed over. -/
theorem only_ofValues (a : Access) (names : List String) (nodup : (fields.map Prod.fst).Nodup) :
    (ofValues a fields).only names =
      some (ofValues a (fields.filter fun field => names.contains field.1)) := by
  have hfilter : ((ofValues a fields).entries.filter fun entry => names.contains entry.1) =
      (ofValues a (fields.filter fun field => names.contains field.1)).entries := by
    rw [ofValues, List.filter_map]
    rfl
  have hnodup : ((ofValues a (fields.filter fun field => names.contains field.1)).entries.map
      Prod.fst).Nodup := by
    rw [show ((ofValues a (fields.filter fun field => names.contains field.1)).entries.map
      Prod.fst) = (fields.filter fun field => names.contains field.1).map Prod.fst by
        simp [ofValues, Function.comp_def]]
    exact nodup.sublist (List.filter_sublist.map Prod.fst)
  simp only [only, hfilter, if_pos hnodup]
  rfl

theorem only_ofValues_of_known (a : Access) (known : ∀ field ∈ fields, field.1 ∈ names)
    (nodup : (fields.map Prod.fst).Nodup) :
    (ofValues a fields).only names = some (ofValues a fields) := by
  rw [only_ofValues a names nodup,
    List.filter_eq_self.mpr fun field hf => by simpa using known field hf]

/-- A record is read from an object as from its fields of known names. -/
theorem record_toNode (a : Access) (nodup : (fields.map Prod.fst).Nodup) :
    record names least a (Value.object fields).toNode =
      a.enter.map (ofValues · (fields.filter fun field => names.contains field.1)) := by
  have hrecord : record names least a (Value.object fields).toNode =
      (ofObject a (Value.object fields).toNode).bind (only names) := rfl
  rw [hrecord, ofObject_toNode]
  cases a.enter with
  | none => rfl
  | some b => exact only_ofValues b names nodup

theorem filter_eq_lookup (name : String) (nodup : (fields.map Prod.fst).Nodup) :
    (fields.filter fun field => field.1 == name) =
      ((fields.lookup name).map fun v => (name, v)).toList := by
  induction fields with
  | nil => rfl
  | cons field rest ih =>
    obtain ⟨k, v⟩ := field
    obtain ⟨hk, hrest⟩ := List.nodup_cons.mp nodup
    by_cases h : k = name
    · subst h
      have hnone : (rest.filter fun field => field.1 == k) = [] := by
        refine List.filter_eq_nil_iff.mpr ?_
        intro field hfield heq
        exact hk (List.mem_map.mpr ⟨field, hfield, by simpa using heq⟩)
      simp [hnone]
    · have hne : (name == k) = false := by simpa using fun heq => h heq.symm
      simp [List.lookup_cons, hne, h, ih hrest]

theorem take_ofValues (a : Access) (name : String) (nodup : (fields.map Prod.fst).Nodup) :
    (ofValues a fields).take name =
      some ((fields.lookup name).map Value.toNode,
        ofValues a (fields.filter fun field => field.1 != name)) := by
  have hfound : ((ofValues a fields).entries.filter fun entry => entry.1 == name) =
      ((fields.lookup name).map fun v => (name, v.toNode)).toList := by
    rw [ofValues, List.filter_map, show ((fun entry : String × Node => entry.1 == name) ∘
      fun field : String × Value => (field.1, field.2.toNode)) = fun field => field.1 == name
      from rfl, filter_eq_lookup name nodup]
    cases fields.lookup name <;> rfl
  have hrest : ((ofValues a fields).entries.filter fun entry => entry.1 != name) =
      (ofValues a (fields.filter fun field => field.1 != name)).entries := by
    rw [ofValues, List.filter_map]
    rfl
  simp only [take, hfound, hrest]
  cases fields.lookup name <;> rfl

theorem hold_ofValues (room : a.Room levels)
    (legible : ∀ field ∈ fields, field.2.Legible levels) :
    (ofValues a fields).hold = some (ofValues a.hold fields) := by
  have hall : (ofValues a fields).entries.all
      (fun entry => (ofValues a fields).access.holds entry.2) = true := by
    simp only [ofValues, List.all_map, List.all_eq_true, Function.comp_apply]
    exact fun field hfield => room.holds (legible field hfield)
  rw [hold, if_pos hall]
  rfl

/-- A variant is told by its tag, and its other fields are held back. -/
theorem tagged_toNode {tag name : String} {kinds : List (String × α)} {kind : α}
    (enter : a.enter = some b) (nodup : (fields.map Prod.fst).Nodup)
    (hasTag : fields.lookup tag = some (.text name)) (known : kinds.lookup name = some kind)
    (room : b.Room levels) (legible : ∀ field ∈ fields, field.2.Legible levels) :
    tagged tag kinds a (Value.object fields).toNode =
      some (kind, ⟨b.hold, (Value.object (fields.filter fun field => field.1 != tag)).toNode⟩) := by
  have hhold : (ofValues b (fields.filter fun field => field.1 != tag)).hold =
      some (ofValues b.hold (fields.filter fun field => field.1 != tag)) :=
    hold_ofValues room fun field hf => legible field (List.mem_filter.mp hf).1
  have htagged : tagged tag kinds a (Value.object fields).toNode =
      (ofObject a (Value.object fields).toNode).bind fun f =>
        (f.take tag).bind fun found =>
          (found.1.bind (Decoder.variantName kinds f.access)).bind fun variant =>
            found.2.hold.bind fun rest =>
              some (variant, ⟨rest.access,
                .object (rest.entries.map fun entry => (some entry.1, entry.2))⟩) := rfl
  rw [htagged, ofObject_toNode, enter]
  simp only [Option.map_some, Option.bind_some, take_ofValues b tag nodup,
    hasTag, Value.toNode, Decoder.variantName, known, hhold]
  simp [ofValues, Value.fieldNodes_eq_map]

theorem beside_name (a : Access) (tag carried : String) (names : List (String × α))
    (name : String) :
    (ofValues a [(tag, .text name)]).beside tag carried names =
      (names.lookup name).map (·, none) := by
  have honly : (ofValues a [(tag, .text name)]).only [tag, carried] =
      some (ofValues a [(tag, .text name)]) := only_ofValues_of_known a (by simp) (by simp)
  simp only [beside, honly, Option.bind_eq_bind, Option.bind_some]
  cases h : names.lookup name <;> simp [ofValues, h]

theorem beside_both (a : Access) {tag carried : String} (names : List (String × α))
    (name : String) (v : Value) (ne : tag ≠ carried) :
    (ofValues a [(tag, .text name), (carried, v)]).beside tag carried names =
      (names.lookup name).map (·, some ⟨a, v.toNode⟩) := by
  have honly : (ofValues a [(tag, .text name), (carried, v)]).only [tag, carried] =
      some (ofValues a [(tag, .text name), (carried, v)]) :=
    only_ofValues_of_known a (by simp) (by simpa using ne)
  simp only [beside, honly, Option.bind_eq_bind, Option.bind_some]
  cases h : names.lookup name <;> simp [ofValues, h]

theorem tagBeside_toNode (a : Access) (tag carried : String) (names : List (String × α))
    (fields : List (String × Value)) :
    tagBeside tag carried names a (Value.object fields).toNode =
      a.enter.bind fun b => (ofValues b fields).beside tag carried names := by
  have h : tagBeside tag carried names a (Value.object fields).toNode =
      (ofObject a (Value.object fields).toNode).bind (beside tag carried names) := rfl
  rw [h, ofObject_toNode]
  cases a.enter <;> rfl

end Fields

end Json
end Lectern
