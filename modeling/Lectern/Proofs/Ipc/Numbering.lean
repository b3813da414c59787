import Lectern.Ipc.Server
import Lectern.Proofs.Wire.Request

/-!
# The number of a request

A payload says its number in the field `id` of its document. The server takes the number of
a request that it accepts from the request, and that of any other payload from the bare
document; both come to the same.
-/

namespace Lectern

open Json

namespace Json

variable {depth : Nat} {n : Node} {v : Value} {name : String}

/-- Of several fields with one key the last counts. -/
theorem Value.lookup_foldl_insertField (fields : List (String × Value)) (name : String)
    (done : List (String × Value)) :
    (fields.foldl (fun done field => insertField field.1 field.2 done) done).lookup name =
      ((fields.reverse.find? fun field => field.1 == name).map Prod.snd).or
        (done.lookup name) := by
  induction fields generalizing done with
  | nil => rfl
  | cons field rest ih =>
    rw [List.foldl_cons, ih, Value.lookup_insertField, List.reverse_cons, List.find?_append]
    cases rest.reverse.find? fun field => field.1 == name with
    | some found => rfl
    | none =>
      by_cases h : name = field.1
      · simp [h]
      · simp [h, Ne.symm h]

theorem exists_of_mapM {α β : Type} {f : α → Option β} {xs : List α} {ys : List β}
    (h : xs.mapM f = some ys) : ∀ x ∈ xs, ∃ y, f x = some y := by
  induction xs generalizing ys with
  | nil => simp
  | cons x xs ih =>
    simp only [List.mapM_cons, Option.bind_eq_bind, Option.bind_eq_some_iff] at h
    obtain ⟨y, hy, ys, hys, -⟩ := h
    rintro z hz
    rcases List.mem_cons.mp hz with rfl | hz
    · exact ⟨y, hy⟩
    · exact ih hys z hz

theorem mapM_isSome {α β : Type} {f : α → Option β} {xs : List α}
    (h : ∀ x ∈ xs, (f x).isSome = true) : (xs.mapM f).isSome = true := by
  induction xs with
  | nil => rfl
  | cons x xs ih =>
    obtain ⟨y, hy⟩ := Option.isSome_iff_exists.mp (h x List.mem_cons_self)
    obtain ⟨ys, hys⟩ := Option.isSome_iff_exists.mp (ih fun z hz => h z (List.mem_cons_of_mem x hz))
    simp [hy, hys]

/-- What is found last among the results comes of what is found last. -/
theorem find?_reverse_mapM {α β : Type} {f : α → Option β} {p : α → Bool} {q : β → Bool}
    (same : ∀ x y, f x = some y → q y = p x) {xs : List α} {ys : List β}
    (h : xs.mapM f = some ys) : ys.reverse.find? q = (xs.reverse.find? p).bind f := by
  induction xs generalizing ys with
  | nil =>
    obtain rfl : ys = [] := by simpa using h.symm
    rfl
  | cons x xs ih =>
    simp only [List.mapM_cons, Option.bind_eq_bind, Option.bind_eq_some_iff, Option.pure_def,
      Option.some.injEq] at h
    obtain ⟨y, hy, ys, hys, rfl⟩ := h
    rw [List.reverse_cons, List.reverse_cons, List.find?_append, List.find?_append, ih hys]
    cases hx : xs.reverse.find? p with
    | none => cases hp : p x <;> simp [same x y hy, hp, hy]
    | some found =>
      have hmem : found ∈ xs := List.mem_reverse.mp (List.mem_of_find?_eq_some hx)
      obtain ⟨z, hz⟩ := exists_of_mapM hys found hmem
      simp [hz]

/-- The field of a value comes of the field of its node. -/
theorem Node.field?_value? (h : n.value? (depth + 1) = some v) (name : String) :
    v.field? name = (n.field? name).bind (Node.value? depth) := by
  cases n with
  | object fields =>
    simp only [Node.value?, Option.map_eq_some_iff] at h
    obtain ⟨pairs, hpairs, rfl⟩ := h
    have hfind := find?_reverse_mapM (p := fun field => field.1 == some name)
      (q := fun pair => pair.1 == name) ?_ hpairs
    · simp only [Value.ofFields, Value.field?, Value.lookup_foldl_insertField, hfind, Node.field?]
      have hmem {field : Option String × Node} (hf : fields.reverse.find?
          (fun field => field.1 == some name) = some field) : field.1 = some name := by
        simpa using List.find?_some hf
      cases hf : fields.reverse.find? fun field => field.1 == some name with
      | none => rfl
      | some field =>
        obtain ⟨key, m⟩ := field
        obtain rfl : key = some name := hmem hf
        cases hv : m.value? depth <;> simp [hv]
    · rintro ⟨key, m⟩ ⟨k, w⟩ hpair
      simp only [Option.bind_eq_bind, Option.bind_eq_some_iff, Option.pure_def, Option.some.injEq,
        Prod.mk.injEq] at hpair
      obtain ⟨_, rfl, _, -, rfl, -⟩ := hpair
      simp
  | list items =>
    simp only [Node.value?, Option.map_eq_some_iff] at h
    obtain ⟨values, -, rfl⟩ := h
    rfl
  | number m =>
    rcases Numeral.value?_cases h with ⟨i, rfl, -⟩ | ⟨x, rfl, -⟩ <;> rfl
  | text s =>
    obtain ⟨t, -, rfl⟩ := Option.map_eq_some_iff.mp h
    rfl
  | null | bool =>
    cases h
    rfl

theorem Decoder.nat_eq_some_iff {a : Access} {k : Nat} :
    nat 64 a n = some k ↔ n.value? depth = some (.int k) := by
  constructor
  · intro h
    obtain ⟨i, hi, rfl⟩ := map_eq_some h
    obtain ⟨least, -⟩ := int_bounds hi
    unfold int at hi
    split at hi
    · split at hi
      · rename_i m j hj
        split at hi
        · cases hi
          rw [Int.toNat_of_nonneg least]
          simpa only [Node.value?] using hj
        · cases hi
      · cases hi
    · cases hi
  · intro h
    cases n with
    | number m =>
      have hm : m.value? = some (.int k) := by simpa [Node.value?] using h
      rcases Numeral.value?_cases hm with ⟨i, hi, hlt⟩ | ⟨x, hx, -⟩
      · cases hi
        have hsize : ((1 <<< 64 : Nat) : Int) = UInt64.size := rfl
        have hbounds : (0 : Int) ≤ k ∧ (k : Int) ≤ (1 <<< 64 : Nat) - 1 := by omega
        simp only [nat, map, int, hm, if_pos hbounds]
        rfl
      · cases hx
    | list items =>
      cases depth <;> simp [Node.value?] at h
    | object fields =>
      cases depth <;> simp [Node.value?, Value.ofFields] at h
    | _ => simp [Node.value?] at h

theorem Decoder.nat_access (a b : Access) (n : Node) : nat 64 a n = nat 64 b n := by
  cases n <;> rfl

theorem Decoder.optional_cases {α : Type} {d : Decoder α} {a : Access} {o : Option α}
    (h : optional d a n = some o) : n = .null ∧ o = none ∨ ∃ x, o = some x ∧ d a n = some x := by
  cases n with
  | null => exact .inl ⟨rfl, (Option.some.inj h).symm⟩
  | _ =>
    obtain ⟨x, hx, rfl⟩ := Option.map_eq_some_iff.mp h
    exact .inr ⟨x, rfl, hx⟩

/-- The only field of a name is also the last one. -/
theorem Fields.take_eq_some {f rest : Fields} {found : Option Node}
    (h : f.take name = some (found, rest)) :
    found = (f.entries.reverse.find? fun entry => entry.1 == name).map Prod.snd ∧
      (∀ entry ∈ f.entries, entry.1 = name → found = some entry.2) ∧
      rest = { f with entries := f.entries.filter fun entry => entry.1 != name } := by
  have hfind : f.entries.reverse.find? (fun entry => entry.1 == name) =
      (f.entries.filter fun entry => entry.1 == name).reverse.head? := by
    rw [← List.filter_reverse, List.head?_filter]
  have hmem (entry : String × Node) (hentry : entry ∈ f.entries) (hname : entry.1 = name) :
      entry ∈ f.entries.filter fun entry => entry.1 == name :=
    List.mem_filter.mpr ⟨hentry, by simpa using hname⟩
  unfold take at h
  rw [hfind]
  split at h
  · rename_i hfilter
    cases h
    simp only [hfilter, List.not_mem_nil] at hmem
    exact ⟨by simp [hfilter], fun entry hentry hname => (hmem entry hentry hname).elim, rfl⟩
  · rename_i only hfilter
    cases h
    simp only [hfilter, List.mem_singleton] at hmem
    exact ⟨by simp [hfilter], fun entry hentry hname => by rw [hmem entry hentry hname], rfl⟩
  · cases h

theorem Fields.hold_eq_some {f held : Fields} (h : f.hold = some held) :
    ∀ entry ∈ f.entries, f.access.holds entry.2 = true := by
  unfold hold at h
  split at h
  · rename_i hall
    exact List.all_eq_true.mp hall
  · cases h

theorem Fields.ofObject_eq_some {a : Access} {f : Fields} (h : ofObject a n = some f) :
    a.enter = some f.access ∧
      n = .object (f.entries.map fun entry => (some entry.1, entry.2)) := by
  unfold ofObject at h
  split at h
  · rename_i a fields
    simp only [Option.bind_eq_bind, Option.bind_eq_some_iff, Option.pure_def,
      Option.some.injEq] at h
    obtain ⟨b, hb, entries, hentries, rfl⟩ := h
    refine ⟨hb, congrArg Node.object ?_⟩
    show fields = entries.map fun entry => (some entry.1, entry.2)
    clear hb
    induction fields generalizing entries with
    | nil =>
      obtain rfl : entries = [] := by simpa using hentries.symm
      rfl
    | cons field fields ih =>
      simp only [List.mapM_cons, Option.bind_eq_bind, Option.bind_eq_some_iff, Option.pure_def,
        Option.some.injEq] at hentries
      obtain ⟨entry, hentry, more, hmore, rfl⟩ := hentries
      obtain ⟨key, hkey, rfl⟩ := Option.map_eq_some_iff.mp hentry
      rw [ih more hmore, List.map_cons]
      simp [← hkey]
  · cases h

end Json

namespace Ipc

/-- The payload is a document that is an object whose last field `id` is this number. -/
def Numbered (payload : Bytes) (k : Nat) : Prop :=
  ∃ cs fields, Text.ofBytes? payload = some cs ∧ Value.read? cs = some (.object fields) ∧
    fields.lookup "id" = some (.int k)

variable {payload : Bytes} {k : Nat}

/-- The bare document tells the number. -/
theorem requestId?_eq_some_iff : requestId? payload = some k ↔ Numbered payload k := by
  have hreadable {cs : List Char} {n : Node} {v : Value} (hcs : Text.ofBytes? payload = some cs)
      (hn : Node.read? cs = some n) (hv : n.value? maxDepth = some v) :
      requestId? payload = some k ↔ v.field? "id" = some (.int k) := by
    have hfound : readable? payload = some n := by
      simp [readable?, document?, hcs, hn, hv]
    have hfield : v.field? "id" = (n.field? "id").bind (Node.value? (maxDepth - 1)) :=
      Node.field?_value? hv "id"
    rw [requestId?, hfound, hfield, Option.bind_some]
    cases n.field? "id" with
    | none => simp
    | some m => exact Decoder.nat_eq_some_iff
  constructor
  · intro h
    obtain ⟨m, hm, -⟩ := Option.bind_eq_some_iff.mp h
    obtain ⟨n, hn, -⟩ := Option.bind_eq_some_iff.mp hm
    obtain ⟨hdocument, hvalue⟩ := Option.filter_eq_some_iff.mp hn
    obtain ⟨cs, hcs, hread⟩ := Option.bind_eq_some_iff.mp hdocument
    obtain ⟨v, hv⟩ := Option.isSome_iff_exists.mp hvalue
    have hid := (hreadable hcs hread hv).mp h
    cases v with
    | object fields => exact ⟨cs, fields, hcs, by simp [Value.read?, hread, hv], hid⟩
    | _ => cases hid
  · rintro ⟨cs, fields, hcs, hread, hid⟩
    obtain ⟨n, hn, hv⟩ := Option.bind_eq_some_iff.mp hread
    exact (hreadable hcs hn hv).mpr hid

/-- A request is accepted as its text says. -/
theorem request?_toBytes {r : Request} (h : r.Representable)
    (back : ∀ x ∈ r.command.doubles, x.ReadsBack) :
    request? (Text.toBytes r.toJson.chars) = some r := by
  rw [request?, document?, Text.ofBytes?_toBytes]
  exact Request.decode?_chars h back

/-- Every field of an accepted request can be read: its number by itself, and the others
because they are held back. -/
theorem requestId?_of_request? {r : Request} (h : request? payload = some r) :
    requestId? payload = r.id := by
  obtain ⟨n, hn, h⟩ := Option.bind_eq_some_iff.mp h
  obtain ⟨⟨f, hobject, number, rest, htake, hnone, hsome, held, hhold, _, _, _, _⟩⟩ :=
    Request.exists_read h
  obtain ⟨henter, rfl⟩ := Fields.ofObject_eq_some hobject
  obtain ⟨hnumber, hunique, rfl⟩ := Fields.take_eq_some htake
  have haccess : f.access = ⟨maxDepth - 1, false⟩ := (Option.some.inj henter).symm
  have hread (entry : String × Node) (hentry : entry ∈ f.entries) :
      (entry.2.value? (maxDepth - 1)).isSome = true := by
    by_cases hid : entry.1 = "id"
    · rcases Decoder.optional_cases (hsome _ (hunique entry hentry hid)) with ⟨hnull, -⟩ |
        ⟨k, -, hk⟩
      · simp [hnull, Node.value?]
      · simp [Decoder.nat_eq_some_iff.mp hk]
    · have hholds := Fields.hold_eq_some hhold entry
        (List.mem_filter.mpr ⟨hentry, by simpa using hid⟩)
      simpa [Access.holds, haccess] using hholds
  have hvalue : ((Node.object (f.entries.map fun entry => (some entry.1, entry.2))).value?
      maxDepth).isSome = true := by
    rw [show maxDepth = maxDepth - 1 + 1 from rfl, Node.value?, Option.isSome_map]
    refine mapM_isSome ?_
    rintro _ hfield
    obtain ⟨entry, hentry, rfl⟩ := List.mem_map.mp hfield
    obtain ⟨v, hv⟩ := Option.isSome_iff_exists.mp (hread entry hentry)
    simp [hv]
  have hfield : (Node.object (f.entries.map fun entry => (some entry.1, entry.2))).field? "id" =
      number := by
    rw [hnumber, Node.field?, ← List.map_reverse, List.find?_map, Option.map_map]
    simp [Function.comp_def]
  rw [requestId?, readable?, hn, Option.filter_some, if_pos hvalue, Option.bind_some, hfield]
  cases number with
  | none => exact (hnone rfl).symm
  | some m =>
    rcases Decoder.optional_cases (hsome m rfl) with ⟨rfl, hid⟩ | ⟨k, hid, hk⟩
    · rw [hid]
      rfl
    · rw [hid, Option.bind_some, Decoder.nat_access .top f.access, hk]

/-- The number of an accepted request is the number its payload says. -/
theorem Request.id_eq_some_iff {r : Request} (h : request? payload = some r) :
    r.id = some k ↔ Numbered payload k := by
  rw [← requestId?_of_request? h, requestId?_eq_some_iff]

end Ipc
end Lectern
