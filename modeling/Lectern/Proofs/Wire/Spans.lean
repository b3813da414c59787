import Lectern.Proofs.Json.Handing
import Lectern.Proofs.Wire.Request

/-!
# What requests hand on

The texts that a request puts on a screen, into the live state or into an item have come
with the request, each in a place of its own. All of them together take no more than the
payload of the request.
-/

namespace Lectern

open Json

namespace Projection

def SongSource.span (s : SongSource) : Nat :=
  Json.span s.songId + Json.span s.songTitle + spanIf Json.span s.blockId +
    spanIf Json.span s.blockTitle

def TextSlide.span (t : TextSlide) : Nat :=
  spanIf Json.span t.title + Json.span t.body + spanIf SongSource.span t.song

def MediaSlide.span (m : MediaSlide) : Nat := spanIf Json.span m.title + Json.span m.path

def Content.span : Content → Nat
  | empty => 0
  | text t => t.span
  | media m => m.span

def Patch.span (p : Patch) : Nat :=
  spanIf Json.span p.background + spanIf Json.span p.foreground + spanIf Content.span p.content

def Appearance.span (p : Appearance) : Nat :=
  spanIf Json.span p.background + spanIf Json.span p.foreground

def Edit.span : Edit → Nat
  | patch p => p.span
  | text t => t.span
  | media m => m.span
  | mode _ => 0
  | appearance p => p.span

theorem SongSource.keeps : decoder.Keeps SongSource.span := by
  intro a n s h
  simp only [decoder, Option.bind_eq_bind, Option.bind_eq_some_iff, Option.pure_def,
    Option.some.injEq] at h
  obtain ⟨f, hf, songId, hid, songTitle, htitle, blockId, hblock, blockTitle, hblockTitle, rfl⟩ := h
  have hsum := f.sum_spanAt_le ["songId", "songTitle", "blockId", "blockTitle"]
    (by decide)
  have hrecord := Fields.span_record hf
  have := Fields.le_spanAt_of_required Decoder.keeps_text hid
  have := Fields.le_spanAt_of_required Decoder.keeps_text htitle
  have := Fields.le_spanAt_of_optional Decoder.keeps_text hblock
  have := Fields.le_spanAt_of_optional Decoder.keeps_text hblockTitle
  simp only [List.map_cons, List.map_nil, List.sum_cons, List.sum_nil] at hsum
  simp only [span]
  omega

theorem TextSlide.span_le_of_ofFields {f : Fields} {t : TextSlide} (h : ofFields f = some t) :
    t.span ≤ f.span := by
  simp only [ofFields, Option.bind_eq_bind, Option.bind_eq_some_iff, Option.pure_def,
    Option.some.injEq] at h
  obtain ⟨title, htitle, body, hbody, song, hsong, rfl⟩ := h
  have hsum := f.sum_spanAt_le fieldNames (by decide)
  have := Fields.le_spanAt_of_optional Decoder.keeps_text htitle
  have := Fields.le_spanAt_of_required Decoder.keeps_text hbody
  have := Fields.le_spanAt_of_optional SongSource.keeps hsong
  simp only [fieldNames, List.map_cons, List.map_nil, List.sum_cons, List.sum_nil] at hsum
  simp only [span]
  omega

theorem MediaSlide.span_le_of_ofFields {f : Fields} {m : MediaSlide} (h : ofFields f = some m) :
    m.span ≤ f.span := by
  simp only [ofFields, Option.bind_eq_bind, Option.bind_eq_some_iff, Option.pure_def,
    Option.some.injEq] at h
  obtain ⟨title, htitle, path, hpath, type, -, rfl⟩ := h
  have hsum := f.sum_spanAt_le ["title", "mediaPath"] (by decide)
  have := Fields.le_spanAt_of_optional Decoder.keeps_text htitle
  have := Fields.le_spanAt_of_required Decoder.keeps_text hpath
  simp only [List.map_cons, List.map_nil, List.sum_cons, List.sum_nil] at hsum
  simp only [span]
  omega

/-- A decoder of a record keeps what the fields of the record come to. -/
theorem keeps_record {α : Type} {names : List String} {least : Nat} {read : Fields → Option α}
    {measure : α → Nat} (h : ∀ f x, read f = some x → measure x ≤ f.span) :
    Decoder.Keeps (fun a n => (Fields.record names least a n).bind read) measure := by
  intro a n x hx
  obtain ⟨f, hf, hread⟩ := Option.bind_eq_some_iff.mp hx
  exact Nat.le_trans (h f x hread) (Fields.span_record hf)

theorem Content.keeps : decoder.Keeps Content.span := by
  intro a n c h
  simp only [decoder, Option.bind_eq_bind, Option.bind_eq_some_iff] at h
  obtain ⟨⟨kind, carried⟩, htagged, h⟩ := h
  refine Nat.le_trans ?_ (Fields.span_tagged htagged)
  cases kind with
  | empty =>
    simp only [Option.bind_eq_some_iff, Option.pure_def, Option.some.injEq] at h
    obtain ⟨_, -, rfl⟩ := h
    exact Nat.zero_le _
  | text =>
    simp only [Option.bind_eq_some_iff, Option.pure_def, Option.some.injEq] at h
    obtain ⟨t, ht, rfl⟩ := h
    exact keeps_record (fun _ _ => TextSlide.span_le_of_ofFields) _ _ _ ht
  | media =>
    simp only [Option.bind_eq_some_iff, Option.pure_def, Option.some.injEq] at h
    obtain ⟨m, hm, rfl⟩ := h
    exact keeps_record (fun _ _ => MediaSlide.span_le_of_ofFields) _ _ _ hm

theorem Patch.keeps : decoder.Keeps Patch.span := by
  intro a n p h
  simp only [decoder, Option.bind_eq_bind, Option.bind_eq_some_iff, Option.pure_def,
    Option.some.injEq] at h
  obtain ⟨f, hf, mode, -, lower, -, transition, -, scale, -, background, hbackground, foreground,
    hforeground, content, hcontent, rfl⟩ := h
  have hsum := f.sum_spanAt_le ["background", "foreground", "current"] (by decide)
  have hrecord := Fields.span_record hf
  have := Fields.le_spanAt_of_optional Decoder.keeps_text hbackground
  have := Fields.le_spanAt_of_optional Decoder.keeps_text hforeground
  have := Fields.le_spanAt_of_optional Content.keeps hcontent
  simp only [List.map_cons, List.map_nil, List.sum_cons, List.sum_nil] at hsum
  simp only [span]
  omega

theorem Appearance.span_le_of_ofFields {f : Fields} {p : Appearance} (h : ofFields f = some p) :
    p.span ≤ f.span := by
  simp only [ofFields, Option.bind_eq_bind, Option.bind_eq_some_iff, Option.pure_def,
    Option.some.injEq] at h
  obtain ⟨scale, -, background, hbackground, foreground, hforeground, rfl⟩ := h
  have hsum := f.sum_spanAt_le ["background", "foreground"] (by decide)
  have := Fields.le_spanAt_of_optional Decoder.keeps_text hbackground
  have := Fields.le_spanAt_of_optional Decoder.keeps_text hforeground
  simp only [List.map_cons, List.map_nil, List.sum_cons, List.sum_nil] at hsum
  simp only [span]
  omega

end Projection

def Live.Patch.span (p : Live.Patch) : Nat := spanIf (spanIf Json.span) p.planId

theorem Live.Patch.keeps : Live.Patch.decoder.Keeps Live.Patch.span := by
  intro a n p h
  simp only [Live.Patch.decoder, Option.bind_eq_bind, Option.bind_eq_some_iff, Option.pure_def,
    Option.some.injEq] at h
  obtain ⟨f, hf, enabled, -, planId, hplan, cursor, -, target, -, black, -, white, -, locks, -,
    rfl⟩ := h
  have keeps : (Decoder.map some (.optional .text)).Keeps (spanIf (spanIf Json.span)) :=
    Decoder.keeps_text.optional.map fun _ => Nat.le_refl _
  have hfield := Fields.le_spanAt_of_defaulted keeps rfl hplan
  exact Nat.le_trans hfield (Nat.le_trans (f.spanAt_le "planId") (Fields.span_record hf))

/-- The texts of an item that can be shown. -/
def Plan.Item.span (i : Plan.Item) : Nat :=
  spanIf Json.span i.title + spanIf Json.span i.content + spanIf Json.span i.refId +
    spanIf Json.span i.mediaPath

theorem Plan.Item.keeps : Plan.Item.decoder.Keeps Plan.Item.span := by
  intro a n i h
  simp only [Plan.Item.decoder, Option.bind_eq_bind, Option.bind_eq_some_iff, Option.pure_def,
    Option.some.injEq] at h
  obtain ⟨f, hf, id, -, order, -, kind, -, title, htitle, content, hcontent, refId, href,
    refSubId, -, mediaPath, hmedia, rfl⟩ := h
  have hsum := f.sum_spanAt_le ["title", "content", "refId", "mediaPath"] (by decide)
  have hrecord := Fields.span_record hf
  have := Fields.le_spanAt_of_optional Decoder.keeps_text htitle
  have := Fields.le_spanAt_of_optional Decoder.keeps_text hcontent
  have := Fields.le_spanAt_of_optional Decoder.keeps_text href
  have := Fields.le_spanAt_of_optional Decoder.keeps_text hmedia
  simp only [List.map_cons, List.map_nil, List.sum_cons, List.sum_nil] at hsum
  simp only [span]
  omega

namespace Command

open Projection

/-- The texts of a command that are kept or shown. -/
def span : Command → Nat
  | edit _ e => e.span
  | setLive p => p.span
  | goLive planId _ => Json.span planId
  | projectItem _ item => item.span
  | _ => 0

/-- What the form makes of a payload takes no more than the payload. -/
def Form.Keeps (form : Form) : Prop :=
  ∀ carried c, form carried = some c →
    c.span ≤ spanIf (fun c : Fields.Carried => c.node.span) carried

theorem keeps_of_span_zero {form : Form} (h : ∀ carried c, form carried = some c → c.span = 0) :
    form.Keeps := by
  intro carried c hc
  rw [h carried c hc]
  exact Nat.zero_le _

theorem keeps_bare {c : Command} (h : c.span = 0) : Form.Keeps (bare c) := by
  refine keeps_of_span_zero fun carried d hd => ?_
  obtain ⟨_, -, rfl⟩ := Option.map_eq_some_iff.mp hd
  exact h

theorem keeps_ofFields {names : List String} {read : Fields → Option Command}
    (h : ∀ f c, read f = some c → c.span ≤ f.span) : Form.Keeps (ofFields names read) := by
  intro carried c hc
  obtain ⟨f, hf, hread⟩ := Option.bind_eq_some_iff.mp hc
  obtain ⟨g, hg, honly⟩ := Option.bind_eq_some_iff.mp hf
  obtain ⟨carried, rfl, hdecode⟩ := Option.bind_eq_some_iff.mp hg
  exact Nat.le_trans (h f c hread)
    (Nat.le_trans (Fields.span_only honly) (Fields.span_ofObject hdecode))

theorem keeps_ofSurface {make : Surface → Command} (h : ∀ s, (make s).span = 0) :
    Form.Keeps (ofSurface make) := by
  refine keeps_ofFields fun f c hc => ?_
  obtain ⟨s, -, rfl⟩ := Option.map_eq_some_iff.mp hc
  rw [h s]
  exact Nat.zero_le _

theorem keeps_ofEdit {names : List String} {read : Fields → Option Edit}
    (h : ∀ f e, read f = some e → e.span ≤ f.span) : Form.Keeps (ofEdit names read) := by
  intro carried c hc
  simp only [ofEdit, Option.bind_eq_bind, Option.bind_eq_some_iff, Option.pure_def,
    Option.some.injEq] at hc
  obtain ⟨carried, rfl, f, hf, ⟨m, rest⟩, htake, s, -, held, hhold, g, honly, e, he, rfl⟩ := hc
  have hobject : f.span ≤ carried.node.span := Fields.span_ofObject hf
  have hrest := Fields.span_take htake
  have hheld : held.span = rest.span := Fields.span_hold hhold
  have hnames := Fields.span_only honly
  have hedit := h g e he
  simp only [span, spanIf_some]
  omega

theorem forms_keep : ∀ entry ∈ forms, Form.Keeps entry.2 := by
  have hbare {c : Command} (h : c.span = 0) := keeps_bare h
  simp only [forms, List.forall_mem_cons, List.not_mem_nil, false_imp_iff, implies_true, and_true]
  refine ⟨keeps_ofSurface fun _ => rfl, ?patch, ?text, ?media, ?mode, ?appearance, ?link,
    hbare rfl, hbare rfl, ?live, hbare rfl, hbare rfl, ?cursor, ?target,
    hbare rfl, hbare rfl, hbare rfl, hbare rfl, ?locked, ?goLive, ?item,
    keeps_ofSurface fun _ => rfl, keeps_ofSurface fun _ => rfl, ?subscribe, hbare rfl⟩
  case patch =>
    refine keeps_ofFields fun f c hc => ?_
    simp only [Option.bind_eq_bind, Option.bind_eq_some_iff, Option.pure_def,
      Option.some.injEq] at hc
    obtain ⟨s, -, p, hp, rfl⟩ := hc
    have hfield := Fields.le_spanAt_of_required Projection.Patch.keeps hp
    exact Nat.le_trans hfield (f.spanAt_le "patch")
  case text =>
    refine keeps_ofEdit fun f e he => ?_
    obtain ⟨t, ht, rfl⟩ := Option.map_eq_some_iff.mp he
    exact TextSlide.span_le_of_ofFields ht
  case media =>
    refine keeps_ofEdit fun f e he => ?_
    obtain ⟨m, hm, rfl⟩ := Option.map_eq_some_iff.mp he
    exact MediaSlide.span_le_of_ofFields hm
  case appearance =>
    refine keeps_ofEdit fun f e he => ?_
    obtain ⟨p, hp, rfl⟩ := Option.map_eq_some_iff.mp he
    exact Appearance.span_le_of_ofFields hp
  case mode | link | locked =>
    refine keeps_ofFields fun f c hc => ?_
    simp only [Option.bind_eq_bind, Option.bind_eq_some_iff, Option.pure_def,
      Option.some.injEq] at hc
    obtain ⟨s, -, _, -, rfl⟩ := hc
    exact Nat.zero_le _
  case cursor | target | subscribe =>
    refine keeps_ofFields fun f c hc => ?_
    obtain ⟨_, -, rfl⟩ := Option.map_eq_some_iff.mp hc
    exact Nat.zero_le _
  case live =>
    intro carried c hc
    obtain ⟨p, hp, rfl⟩ := Option.map_eq_some_iff.mp hc
    obtain ⟨carried, rfl, hp⟩ := Option.bind_eq_some_iff.mp hp
    exact Live.Patch.keeps _ _ _ hp
  case goLive =>
    refine keeps_ofFields fun f c hc => ?_
    simp only [Option.bind_eq_bind, Option.bind_eq_some_iff, Option.pure_def,
      Option.some.injEq] at hc
    obtain ⟨planId, hplan, cursor, -, rfl⟩ := hc
    have hfield := Fields.le_spanAt_of_required Decoder.keeps_text hplan
    exact Nat.le_trans hfield (f.spanAt_le "planId")
  case item =>
    refine keeps_ofFields fun f c hc => ?_
    simp only [Option.bind_eq_bind, Option.bind_eq_some_iff, Option.pure_def,
      Option.some.injEq] at hc
    obtain ⟨target, -, item, hitem, rfl⟩ := hc
    have hfield := Fields.le_spanAt_of_required Plan.Item.keeps hitem
    exact Nat.le_trans hfield (f.spanAt_le "item")

end Command

theorem Request.span_le_of_decoder {a : Access} {n : Node} {r : Request}
    (h : decoder a n = some r) : r.command.span ≤ n.span := by
  obtain ⟨read⟩ := exists_read h
  obtain ⟨name, hname⟩ := Fields.beside_mem read.beside
  have hcommand := Command.forms_keep (name, read.form) hname read.carried _ read.command
  have hbeside := Fields.span_beside read.beside
  have hhold := Fields.span_hold read.hold
  have htake := Fields.span_take read.take
  have hobject := Fields.span_ofObject read.object
  omega

end Lectern
