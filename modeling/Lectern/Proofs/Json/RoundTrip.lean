import Lectern.Json.Decoder
import Lectern.Proofs.Json.Documents

/-!
# Values read back from their texts

A value is read back from its compact text if its keys are in order, it is not nested too
deeply, and its numbers survive: whole numbers within sixty-four bits do, and so do the
doubles that are read back from their own text. Reading rounds step by step, so not every
finite double is among these.
-/

namespace Lectern

open Json

namespace Binary64

/-- The text of the double is read as the double. -/
def ReadsBack (x : Binary64) : Prop := decode? Decoder.float x.chars = some x

instance (x : Binary64) : Decidable x.ReadsBack := inferInstanceAs (Decidable (_ = _))

theorem read?_chars (x : Binary64) : Node.read? x.chars = some (.number x.numeral) := by
  have h := Node.read?_chars (.float x)
  rwa [Value.chars, Value.onto, List.append_nil, Value.toNode] at h

theorem value?_numeral_cases (x : Binary64) :
    x.numeral.value? = none ∨ ∃ y, y.isFinite = true ∧ x.numeral.value? = some (.float y) := by
  unfold Numeral.value?
  simp only [isWhole_numeral, Bool.false_and, Bool.false_eq_true, if_false]
  split
  · rename_i h
    exact .inr ⟨_, h, rfl⟩
  · exact .inl rfl

theorem decode?_chars (x : Binary64) :
    decode? Decoder.float x.chars = Decoder.float .top (.number x.numeral) := by
  simp [decode?, read?_chars]

variable {x : Binary64}

theorem ReadsBack.value?_numeral (h : x.ReadsBack) : x.numeral.value? = some (.float x) := by
  rw [ReadsBack, decode?_chars, Decoder.float] at h
  rcases x.value?_numeral_cases with hv | ⟨y, -, hv⟩
  · simp [hv] at h
  · simp only [hv, Option.some.injEq] at h
    rw [hv, h]

theorem ReadsBack.isFinite (h : x.ReadsBack) : x.isFinite = true := by
  rcases x.value?_numeral_cases with hv | ⟨y, hy, hv⟩
  · simp [h.value?_numeral] at hv
  · rw [h.value?_numeral] at hv
    cases hv
    exact hy

end Binary64

namespace Json
namespace Value

/-- The keys stand in their order, each of them once. -/
def Sorted (fields : List (String × Value)) : Prop := (fields.map Prod.fst).Pairwise (· < ·)

@[simp] theorem sorted_nil : Sorted [] := .nil

@[simp] theorem sorted_singleton (field : String × Value) : Sorted [field] :=
  List.pairwise_singleton ..

/-- Texts are ordered letter by letter. This is the order of texts in a form that `simp` can compute
on given texts. -/
@[simp] def precedes : List Char → List Char → Bool
  | _, [] => false
  | [], _ :: _ => true
  | a :: s, b :: t => if a = b then precedes s t else a < b

theorem precedes_iff {s t : List Char} : precedes s t = true ↔ s < t := by
  induction s generalizing t with
  | nil => cases t <;> simp
  | cons a s ih =>
    cases t with
    | nil => simp
    | cons b t =>
      rw [precedes, List.cons_lt_cons_iff]
      by_cases h : a = b
      · subst h
        simp [ih]
      · simp [h]

/-- Of sorted keys only the neighbours need to be compared. -/
@[simp] theorem sorted_cons_cons {field next : String × Value} {more : List (String × Value)} :
    Sorted (field :: next :: more) ↔
      precedes field.1.toList next.1.toList = true ∧ Sorted (next :: more) := by
  rw [precedes_iff]
  constructor
  · intro h
    exact ⟨List.rel_of_pairwise_cons h List.mem_cons_self, List.Pairwise.of_cons h⟩
  · rintro ⟨hlt, h⟩
    refine List.pairwise_cons.mpr ⟨fun key hkey => ?_, h⟩
    rcases List.mem_cons.mp hkey with rfl | hkey
    · exact hlt
    · exact String.lt_trans hlt (List.rel_of_pairwise_cons h hkey)

@[simp] theorem insertField_nil (key : String) (value : Value) :
    insertField key value [] = [(key, value)] := rfl

@[simp] theorem insertField_cons (key : String) (value : Value) (field : String × Value)
    (rest : List (String × Value)) :
    insertField key value (field :: rest) =
      if precedes key.toList field.1.toList = true then (key, value) :: field :: rest
      else if key = field.1 then (key, value) :: rest
      else field :: insertField key value rest := by
  simp only [precedes_iff]
  rfl

/-- Nested at most so deep, and the fields of each object sorted. -/
def Shaped : Nat → Value → Prop
  | _, null => True
  | _, bool _ => True
  | _, int _ => True
  | _, float _ => True
  | _, text _ => True
  | 0, list _ => False
  | 0, object _ => False
  | depth + 1, list items => ∀ v ∈ items, Shaped depth v
  | depth + 1, object fields =>
    Sorted fields ∧ ∀ field ∈ fields, Shaped depth field.2

/-- All numbers survive being written and read. -/
inductive Exact : Value → Prop
  | null : Exact null
  | bool (b : Bool) : Exact (bool b)
  | int {n : Int} (least : -(1 <<< 63 : Nat) ≤ n) (greatest : n < UInt64.size) : Exact (int n)
  | float {x : Binary64} (back : x.ReadsBack) : Exact (float x)
  | text (s : String) : Exact (text s)
  | list {items : List Value} (all : ∀ v ∈ items, Exact v) : Exact (list items)
  | object {fields : List (String × Value)} (all : ∀ field ∈ fields, Exact field.2) :
    Exact (object fields)

@[simp] theorem exact_null : Exact null := .null

@[simp] theorem exact_bool (b : Bool) : Exact (bool b) := .bool b

@[simp] theorem exact_text (s : String) : Exact (text s) := .text s

@[simp] theorem exact_int_iff {n : Int} :
    Exact (int n) ↔ -(1 <<< 63 : Nat) ≤ n ∧ n < UInt64.size :=
  ⟨fun | .int least greatest => ⟨least, greatest⟩, fun h => .int h.1 h.2⟩

@[simp] theorem exact_float_iff {x : Binary64} : Exact (float x) ↔ x.ReadsBack :=
  ⟨fun | .float back => back, .float⟩

@[simp] theorem exact_list_iff {items : List Value} : Exact (list items) ↔ ∀ v ∈ items, Exact v :=
  ⟨fun | .list all => all, .list⟩

@[simp] theorem exact_object_iff {fields : List (String × Value)} :
    Exact (object fields) ↔ ∀ field ∈ fields, Exact field.2 :=
  ⟨fun | .object all => all, .object⟩

variable {v : Value} {depth more : Nat}

theorem Shaped.mono (h : v.Shaped depth) (le : depth ≤ more) : v.Shaped more := by
  induction depth generalizing v more with
  | zero => cases v <;> cases more <;> trivial
  | succ depth ih =>
    obtain ⟨more, rfl⟩ : ∃ n, more = n + 1 := ⟨more - 1, by omega⟩
    cases v with
    | list items => exact fun v hv => ih (h v hv) (by omega)
    | object fields => exact ⟨h.1, fun field hf => ih (h.2 field hf) (by omega)⟩
    | null | bool | int | float | text => trivial

theorem insertField_of_lt {key : String} {value : Value} {fields : List (String × Value)}
    (h : ∀ field ∈ fields, field.1 < key) :
    insertField key value fields = fields ++ [(key, value)] := by
  induction fields with
  | nil => rfl
  | cons field rest ih =>
    obtain ⟨k, v⟩ := field
    have hk : k < key := h (k, v) (by simp)
    have hne : key ≠ k := by
      rintro rfl
      exact String.lt_irrefl _ hk
    rw [insertField, if_neg (String.lt_asymm hk), if_neg hne,
      ih fun field hf => h field (by simp [hf])]
    rfl

theorem mem_insertField {key : String} {value : Value} {fields : List (String × Value)}
    {field : String × Value} (h : field ∈ insertField key value fields) :
    field = (key, value) ∨ field ∈ fields := by
  fun_induction insertField key value fields with
  | case1 => exact .inl (by simpa using h)
  | case2 => exact List.mem_cons.mp h
  | case3 => exact (List.mem_cons.mp h).imp_right (List.mem_cons_of_mem _)
  | case4 k v rest _ _ ih =>
    rcases List.mem_cons.mp h with rfl | h
    · exact .inr List.mem_cons_self
    · exact (ih h).imp_right (List.mem_cons_of_mem _)

theorem lookup_insertField (key : String) (value : Value) (fields : List (String × Value))
    (name : String) :
    (insertField key value fields).lookup name =
      if name = key then some value else fields.lookup name := by
  fun_induction insertField key value fields with
  | case1 => by_cases h : name = key <;> simp [List.lookup_cons, h, beq_eq_false_iff_ne.mpr]
  | case2 => by_cases h : name = key <;> simp [List.lookup_cons, h, beq_eq_false_iff_ne.mpr]
  | case3 => by_cases h : name = key <;> simp [List.lookup_cons, h, beq_eq_false_iff_ne.mpr]
  | case4 k v rest hlt hne ih =>
    by_cases h : name = k
    · subst h
      simp [Ne.symm hne]
    · simp [List.lookup_cons, h, beq_eq_false_iff_ne.mpr, ih]

theorem sorted_insertField {key : String} {value : Value} {fields : List (String × Value)}
    (sorted : Sorted fields) : Sorted (insertField key value fields) := by
  fun_induction insertField key value fields with
  | case1 => simp
  | case2 k v rest hlt =>
    refine List.pairwise_cons.mpr ⟨?_, sorted⟩
    intro name hname
    rcases List.mem_cons.mp hname with rfl | hname
    · exact hlt
    · exact String.lt_trans hlt (List.rel_of_pairwise_cons sorted hname)
  | case3 v rest hlt => exact sorted
  | case4 k v rest hlt hne ih =>
    have hk : k < key :=
      String.not_le.mp fun hle => hne (String.le_antisymm hle (String.not_lt.mp hlt))
    refine List.pairwise_cons.mpr ⟨?_, ih (List.Pairwise.of_cons sorted)⟩
    intro name hname
    obtain ⟨field, hfield, rfl⟩ := List.mem_map.mp hname
    rcases mem_insertField hfield with rfl | hfield
    · exact hk
    · exact List.rel_of_pairwise_cons sorted (List.mem_map_of_mem hfield)

/-- Without the field that was inserted the others are left. -/
theorem filter_insertField {key : String} {value : Value} {fields : List (String × Value)}
    (fresh : ∀ field ∈ fields, field.1 ≠ key) :
    ((insertField key value fields).filter fun field => field.1 != key) = fields := by
  have hself : fields.filter (fun field => field.1 != key) = fields :=
    List.filter_eq_self.mpr fun field hf => by simpa using fresh field hf
  fun_induction insertField key value fields with
  | case1 => simp
  | case2 => simpa using hself
  | case3 v rest hlt => exact absurd rfl (fresh (key, v) List.mem_cons_self)
  | case4 k v rest hlt hne ih =>
    have hrest : rest.filter (fun field => field.1 != key) = rest :=
      List.filter_eq_self.mpr fun field hf => by simpa using fresh field (List.mem_cons_of_mem _ hf)
    rw [List.filter_cons_of_pos (by simpa using Ne.symm hne),
      ih (fun field hf => fresh field (List.mem_cons_of_mem _ hf)) hrest]

theorem ofFields_of_sorted {fields : List (String × Value)}
    (sorted : Sorted fields) : ofFields fields = object fields := by
  have hfold (rest : List (String × Value)) : ∀ done : List (String × Value),
      Sorted (done ++ rest) →
      rest.foldl (fun done field => insertField field.1 field.2 done) done = done ++ rest := by
    induction rest with
    | nil => simp
    | cons field rest ih =>
      intro done hsorted
      have hlt : ∀ f ∈ done, f.1 < field.1 := by
        intro f hf
        rw [Sorted, List.map_append, List.pairwise_append] at hsorted
        exact hsorted.2.2 f.1 (List.mem_map_of_mem hf) field.1 (by simp)
      rw [List.foldl_cons, insertField_of_lt hlt, ih]
      · simp
      · simpa using hsorted
  rw [ofFields, hfold fields [] (by simpa using sorted), List.nil_append]

theorem mapM_map_eq_some {α β : Type} {f : α → Option β} {g : β → α} {bs : List β}
    (h : ∀ b ∈ bs, f (g b) = some b) : (bs.map g).mapM f = some bs := by
  induction bs with
  | nil => rfl
  | cons b bs ih =>
    simp [h b (by simp), ih fun b hb => h b (by simp [hb])]

/-- What the text of a value means is the value. -/
theorem value?_toNode (shaped : v.Shaped depth) (exact : v.Exact) :
    v.toNode.value? depth = some v := by
  induction depth generalizing v with
  | zero =>
    cases exact with
    | int least greatest => simpa [toNode, Node.value?] using Numeral.value?_ofInt least greatest
    | float back => simpa [toNode, Node.value?] using back.value?_numeral
    | list | object => exact shaped.elim
    | null | bool | text => rfl
  | succ depth ih =>
    cases exact with
    | int least greatest => simpa [toNode, Node.value?] using Numeral.value?_ofInt least greatest
    | float back => simpa [toNode, Node.value?] using back.value?_numeral
    | @list items all =>
      have hitems : (items.map toNode).mapM (Node.value? depth) = some items :=
        mapM_map_eq_some fun v hv => ih (shaped v hv) (all v hv)
      simp [toNode, Node.value?, itemNodes_eq_map, hitems]
    | @object fields all =>
      have hfields : (fields.map fun field => (some field.1, field.2.toNode)).mapM
          (fun field : Option String × Node => do
            let key ← field.1
            let value ← field.2.value? depth
            return (key, value)) = some fields :=
        mapM_map_eq_some fun field hf => by simp [ih (shaped.2 field hf) (all field hf)]
      simp only [toNode, Node.value?, fieldNodes_eq_map, hfields, Option.map_some,
        ofFields_of_sorted shaped.1]
    | null | bool | text => rfl

/-- Values that are not nested too deeply are read back from their compact texts. -/
theorem read?_chars (shaped : v.Shaped maxDepth) (exact : v.Exact) :
    Value.read? v.chars = some v := by
  rw [Value.read?, Node.read?_chars, Option.bind_some, value?_toNode shaped exact]

end Value
end Json
end Lectern
