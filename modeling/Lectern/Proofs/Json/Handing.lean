import Lectern.Json.Decoder
import Lectern.Proofs.Json.Spans

/-!
# What decoders hand on

A decoder makes texts only of the texts of its node, and of each of them once. What it makes
of a node therefore takes no more than the node spans, and the fields of a record, which have
different names, together take no more than the record.
-/

namespace Lectern
namespace Json

variable {α β : Type} {a : Access} {n : Node}

namespace Decoder

/-- What the decoder makes of a node takes no more than the texts of the node. -/
def Keeps (d : Decoder α) (measure : α → Nat) : Prop :=
  ∀ a n x, d a n = some x → measure x ≤ n.span

theorem keeps_text : text.Keeps Json.span := by
  intro a n s h
  unfold text at h
  split at h
  · subst h
    exact Nat.le_refl _
  · cases h

theorem Keeps.optional {d : Decoder α} {measure : α → Nat} (keeps : d.Keeps measure) :
    d.optional.Keeps (spanIf measure) := by
  intro a n o h
  unfold Decoder.optional at h
  split at h
  · cases h
    exact Nat.zero_le _
  · obtain ⟨x, hx, rfl⟩ := Option.map_eq_some_iff.mp h
    exact keeps a _ x hx

theorem Keeps.map {d : Decoder α} {measure : α → Nat} (keeps : d.Keeps measure) {f : α → β}
    {other : β → Nat} (le : ∀ x, other (f x) ≤ measure x) : (map f d).Keeps other := by
  intro a n y h
  obtain ⟨x, hx, rfl⟩ := Option.map_eq_some_iff.mp h
  exact Nat.le_trans (le x) (keeps a n x hx)

end Decoder

namespace Fields

variable {f g : Fields} {name : String} {d : Decoder α} {measure : α → Nat}

/-- What all fields span. -/
def span (f : Fields) : Nat := (f.entries.map fun entry => entry.2.span).sum

/-- What the first field of a name spans. -/
def spanAt (f : Fields) (name : String) : Nat := spanIf Node.span (f.entries.lookup name)

/-- The fields of other names. -/
def without (f : Fields) (name : String) : Fields :=
  { f with entries := f.entries.filter fun entry => entry.1 != name }

/-- The fields of a name and those of other names are all fields. -/
theorem sum_add_span_without (f : Fields) (name : String) :
    ((f.entries.filter fun entry => entry.1 == name).map fun entry => entry.2.span).sum +
      (f.without name).span = f.span := by
  obtain ⟨access, entries⟩ := f
  simp only [without, span]
  induction entries with
  | nil => rfl
  | cons entry rest ih =>
    by_cases h : entry.1 = name
    · simp only [List.filter_cons, h, beq_self_eq_true, bne_self_eq_false, Bool.false_eq_true,
        if_true, if_false, List.map_cons, List.sum_cons]
      omega
    · simp only [List.filter_cons, beq_eq_false_iff_ne.mpr h, bne_iff_ne.mpr h, Bool.false_eq_true,
        if_true, if_false, List.map_cons, List.sum_cons]
      omega

theorem spanAt_add_span_without_le (f : Fields) (name : String) :
    f.spanAt name + (f.without name).span ≤ f.span := by
  rw [← f.sum_add_span_without name]
  refine Nat.add_le_add_right ?_ _
  unfold spanAt
  cases h : f.entries.lookup name with
  | none => exact Nat.zero_le _
  | some n =>
    obtain ⟨before, after, hentries, -⟩ := List.lookup_eq_some_iff.mp h
    simp only [hentries, List.filter_append, List.filter_cons, beq_self_eq_true, if_true,
      List.map_append, List.map_cons, List.sum_append, List.sum_cons, spanIf_some]
    omega

theorem spanAt_without {other : String} (ne : other ≠ name) (f : Fields) :
    (f.without name).spanAt other = f.spanAt other := by
  obtain ⟨access, entries⟩ := f
  simp only [spanAt, without]
  congr 1
  induction entries with
  | nil => rfl
  | cons entry rest ih =>
    obtain ⟨key, n⟩ := entry
    by_cases h : key = name
    · have hne : (other == key) = false := beq_eq_false_iff_ne.mpr (h ▸ ne)
      simp only [List.filter_cons, h, bne_self_eq_false, Bool.false_eq_true, if_false,
        List.lookup_cons]
      rw [← h, hne, ← ih, h]
    · simp only [List.filter_cons, bne_iff_ne.mpr h, if_true, List.lookup_cons, ih]

/-- Different names are those of different fields. -/
theorem sum_spanAt_le (f : Fields) (names : List String) (nodup : names.Nodup) :
    (names.map f.spanAt).sum ≤ f.span := by
  induction names generalizing f with
  | nil => exact Nat.zero_le _
  | cons name names ih =>
    obtain ⟨hname, hnames⟩ := List.nodup_cons.mp nodup
    have hother : names.map (f.without name).spanAt = names.map f.spanAt :=
      List.map_congr_left fun other hmem =>
        spanAt_without (by rintro rfl; exact hname hmem) f
    have hrest := ih (f.without name) hnames
    have hfirst := f.spanAt_add_span_without_le name
    rw [hother] at hrest
    rw [List.map_cons, List.sum_cons]
    omega

theorem spanAt_le (f : Fields) (name : String) : f.spanAt name ≤ f.span :=
  Nat.le_trans (Nat.le_add_right _ _) (f.spanAt_add_span_without_le name)

theorem le_spanAt_of_required {x : α} (keeps : d.Keeps measure)
    (h : f.required name d = some x) : measure x ≤ f.spanAt name := by
  obtain ⟨n, hn, h⟩ := Option.bind_eq_some_iff.mp h
  rw [spanAt, hn]
  exact keeps f.access n x h

theorem le_spanAt_of_defaulted {x default : α} (keeps : d.Keeps measure)
    (empty : measure default = 0) (h : f.defaulted name d default = some x) :
    measure x ≤ f.spanAt name := by
  unfold defaulted at h
  split at h
  · rename_i n hn
    rw [spanAt, hn]
    exact keeps f.access n x h
  · cases h
    rw [empty]
    exact Nat.zero_le _

theorem le_spanAt_of_optional {o : Option α} (keeps : d.Keeps measure)
    (h : f.optional name d = some o) : spanIf measure o ≤ f.spanAt name :=
  le_spanAt_of_defaulted keeps.optional rfl h

theorem span_ofObject (h : ofObject a n = some f) : f.span ≤ n.span := by
  have hentries {fields : List (Option String × Node)} {entries : List (String × Node)}
      (h : (fields.mapM fun field => field.1.map (·, field.2)) = some entries) :
      (entries.map fun entry => entry.2.span).sum = Node.fieldsSpan fields := by
    induction fields generalizing entries with
    | nil =>
      cases h
      rfl
    | cons field rest ih =>
      simp only [List.mapM_cons, Option.bind_eq_bind, Option.bind_eq_some_iff, Option.pure_def,
        Option.some.injEq] at h
      obtain ⟨entry, hentry, later, hlater, rfl⟩ := h
      obtain ⟨key, -, rfl⟩ := Option.map_eq_some_iff.mp hentry
      rw [List.map_cons, List.sum_cons, ih hlater, Node.fieldsSpan]
  unfold ofObject at h
  split at h
  · simp only [Option.bind_eq_bind, Option.bind_eq_some_iff, Option.pure_def,
      Option.some.injEq] at h
    obtain ⟨b, -, entries, hread, rfl⟩ := h
    exact Nat.le_of_eq (hentries hread)
  · cases h

theorem span_only {names : List String} (h : f.only names = some g) : g.span ≤ f.span := by
  unfold only at h
  dsimp only at h
  split at h
  · cases h
    exact (List.filter_sublist.map _).sum_le_sum fun _ _ => Nat.zero_le _
  · cases h

theorem span_hold (h : f.hold = some g) : g.span = f.span := by
  unfold hold at h
  split at h
  · cases h
    rfl
  · cases h

theorem span_take {m : Option Node} (h : f.take name = some (m, g)) :
    spanIf Node.span m + g.span ≤ f.span := by
  have hall := f.sum_add_span_without name
  unfold take at h
  dsimp only at h
  split at h
  · cases h
    exact Nat.le_trans (Nat.le_of_eq (Nat.zero_add _)) (hall ▸ Nat.le_add_left _ _)
  · rename_i entry hentry
    cases h
    rw [hentry] at hall
    simpa [without] using Nat.le_of_eq hall
  · cases h

theorem span_record {names : List String} {least : Nat} (h : record names least a n = some f) :
    f.span ≤ n.span := by
  unfold record at h
  split at h
  · rename_i items
    split at h
    · rename_i bounds
      obtain ⟨b, -, rfl⟩ := Option.map_eq_some_iff.mp h
      rw [Node.span, Node.itemsSpan_eq, span]
      have hitems : (names.zip items).map Prod.snd = items := List.map_snd_zip bounds.2
      have hspans : (names.zip items).map (fun entry => entry.2.span) = items.map Node.span := by
        have := congrArg (List.map Node.span) hitems
        rwa [List.map_map] at this
      exact Nat.le_of_eq (congrArg List.sum hspans)
    · cases h
  · obtain ⟨g, hg, h⟩ := Option.bind_eq_some_iff.mp h
    exact Nat.le_trans (span_only h) (span_ofObject hg)

/-- What stands beside a tag has come from the same node. -/
theorem span_tagged {tag : String} {names : List (String × α)} {kind : α} {carried : Carried}
    (h : tagged tag names a n = some (kind, carried)) : carried.node.span ≤ n.span := by
  unfold tagged at h
  split at h
  · rename_i m rest
    simp only [Option.bind_eq_bind, Option.bind_eq_some_iff, Option.pure_def] at h
    obtain ⟨b, -, variant, -, h⟩ := h
    split at h
    · cases h
      simp only [Node.span, Node.itemsSpan]
      omega
    · cases h
  · simp only [Option.bind_eq_bind, Option.bind_eq_some_iff, Option.pure_def,
      Option.some.injEq, Prod.mk.injEq] at h
    obtain ⟨f, hf, ⟨m, g⟩, htake, variant, -, held, hhold, -, rfl⟩ := h
    have hobject := span_ofObject hf
    have hrest := span_take htake
    have hspan : held.span = g.span := span_hold hhold
    calc (Node.object (held.entries.map fun entry => (some entry.1, entry.2))).span
        = held.span := by
          rw [Node.span, Node.fieldsSpan_eq, span, List.map_map]
          rfl
      _ ≤ n.span := by omega

theorem span_beside {tag carried : String} {names : List (String × α)} {x : α}
    {c : Option Carried} (h : f.beside tag carried names = some (x, c)) :
    spanIf (fun c : Carried => c.node.span) c ≤ f.span := by
  simp only [beside, Option.bind_eq_bind] at h
  obtain ⟨g, hg, h⟩ := Option.bind_eq_some_iff.mp h
  refine Nat.le_trans ?_ (span_only hg)
  split at h
  · split at h
    · obtain ⟨y, -, h⟩ := Option.bind_eq_some_iff.mp h
      cases h
      exact Nat.zero_le _
    · cases h
  · rename_i first n second m hentries
    rw [span, hentries, List.map_cons, List.map_cons, List.sum_cons, List.sum_cons]
    split at h
    · obtain ⟨y, -, h⟩ := Option.bind_eq_some_iff.mp h
      cases h
      simp only [spanIf_some]
      omega
    · split at h
      · obtain ⟨y, -, h⟩ := Option.bind_eq_some_iff.mp h
        cases h
        simp only [spanIf_some]
        omega
      · cases h
  · cases h

end Fields
end Json
end Lectern
