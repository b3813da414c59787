import Lectern.Item
import Lectern.Proofs.Text.Trimming
import Mathlib.Data.List.Forall2

/-!
# What an item becomes

What a plan item becomes is settled by rules, one for each kind of slide: a picture or document,
the notice that it is missing, a block of a song, the notice that there is none, the verses of a
reference, and the item's own words. Exactly one slide follows from them for each item, whatever
the sources answer, and it is the one that is shown.
-/

namespace Lectern

open Projection Scripture Text

namespace Song

variable {song : Song} {blocks : List Block} {b : Block} {id : Option String}

/-- The block comes first in order, and first in the song among those of the same order. -/
def IsLeast (blocks : List Block) (b : Block) : Prop :=
  ∃ before after, blocks = before ++ b :: after ∧ (∀ c ∈ before, b.order < c.order) ∧
    ∀ c ∈ after, b.order ≤ c.order

theorem IsLeast.mem (h : IsLeast blocks b) : b ∈ blocks := by
  obtain ⟨before, after, rfl, -⟩ := h
  simp

theorem IsLeast.order_le (h : IsLeast blocks b) {c : Block} (hc : c ∈ blocks) :
    b.order ≤ c.order := by
  obtain ⟨before, after, rfl, hbefore, hafter⟩ := h
  rcases List.mem_append.mp hc with hc | hc
  · exact Int.le_of_lt (hbefore c hc)
  · rcases List.mem_cons.mp hc with rfl | hc
    · exact Int.le_refl _
    · exact hafter c hc

theorem isLeast_cons_self (h : ∀ c ∈ blocks, b.order ≤ c.order) : IsLeast (b :: blocks) b :=
  ⟨[], blocks, rfl, by simp, h⟩

theorem IsLeast.cons (h : IsLeast blocks b) {first : Block} (hlt : b.order < first.order) :
    IsLeast (first :: blocks) b := by
  obtain ⟨before, after, rfl, hbefore, hafter⟩ := h
  refine ⟨first :: before, after, rfl, fun c hc => ?_, hafter⟩
  rcases List.mem_cons.mp hc with rfl | hc
  · exact hlt
  · exact hbefore c hc

theorem leastBlock_eq_none_iff : leastBlock blocks = none ↔ blocks = [] := by
  cases blocks with
  | nil => simp [leastBlock]
  | cons first rest =>
    unfold leastBlock
    split
    · simp
    · simp

theorem isLeast_of_leastBlock (h : leastBlock blocks = some b) : IsLeast blocks b := by
  induction blocks generalizing b with
  | nil => cases h
  | cons first rest ih =>
    unfold leastBlock at h
    split at h
    · rename_i hrest
      cases h
      exact isLeast_cons_self (by simp [leastBlock_eq_none_iff.mp hrest])
    · rename_i least hrest
      have hleast := ih hrest
      split_ifs at h with hlt
      · cases h
        exact hleast.cons hlt
      · cases h
        exact isLeast_cons_self fun c hc => Int.le_trans (Int.not_lt.mp hlt) (hleast.order_le hc)

theorem leastBlock_of_isLeast (h : IsLeast blocks b) : leastBlock blocks = some b := by
  obtain ⟨before, after, rfl, hbefore, hafter⟩ := h
  induction before with
  | nil =>
    rw [List.nil_append, leastBlock]
    cases hleast : leastBlock after with
    | none => rfl
    | some least =>
      have := hafter least (isLeast_of_leastBlock hleast).mem
      simp only [Option.some.injEq, ite_eq_right_iff]
      omega
  | cons first before ih =>
    have hlt : b.order < first.order := hbefore first (by simp)
    rw [List.cons_append, leastBlock, ih fun c hc => hbefore c (by simp [hc])]
    simp [hlt]

/-- The block of a song that goes by an id: the first with that id, or if there is none, the one
that comes first in order. -/
inductive Picks (song : Song) : Option String → Block → Prop
  | named {id : String} {b : Block} {before after : List Block} :
      song.blocks = before ++ b :: after → b.id = id → (∀ c ∈ before, c.id ≠ id) →
      Picks song (some id) b
  | least {id : Option String} {b : Block} :
      (∀ c ∈ song.blocks, some c.id ≠ id) → IsLeast song.blocks b → Picks song id b

theorem blockOrFirst_eq (song : Song) (id : Option String) :
    song.blockOrFirst id =
      ((song.blocks.find? fun c => some c.id = id).or (leastBlock song.blocks)) := by
  unfold blockOrFirst
  cases id with
  | none =>
    rw [List.find?_eq_none.mpr (by simp), Option.none_or]
    rfl
  | some id =>
    simp only [Option.bind_some, Option.some.injEq]
    cases song.blocks.find? fun c => c.id = id with
    | none => rfl
    | some found => rfl

theorem blockOrFirst_eq_some_iff : song.blockOrFirst id = some b ↔ song.Picks id b := by
  rw [blockOrFirst_eq]
  constructor
  · intro h
    cases hfind : song.blocks.find? fun c => some c.id = id with
    | none =>
      rw [hfind, Option.none_or] at h
      refine .least (fun c hc => ?_) (isLeast_of_leastBlock h)
      simpa using List.find?_eq_none.mp hfind c hc
    | some found =>
      rw [hfind, Option.some_or] at h
      cases h
      obtain ⟨hid, before, after, hblocks, hbefore⟩ := List.find?_eq_some_iff_append.mp hfind
      obtain rfl : some b.id = id := by simpa using hid
      exact .named hblocks rfl fun c hc => by simpa using hbefore c hc
  · intro h
    cases h with
    | @named id _ before after hblocks hid hbefore =>
      have hfind : song.blocks.find? (fun c => some c.id = some id) = some b := by
        refine List.find?_eq_some_iff_append.mpr ⟨by simpa using hid, before, after, hblocks, ?_⟩
        simpa using hbefore
      rw [hfind, Option.some_or]
    | least hnone hleast =>
      rw [List.find?_eq_none.mpr (by simpa using hnone), Option.none_or,
        leastBlock_of_isLeast hleast]

theorem Picks.mem (h : song.Picks id b) : b ∈ song.blocks := by
  cases h with
  | named hblocks _ _ => simp [hblocks]
  | least _ hleast => exact hleast.mem

theorem blockOrFirst_eq_none_iff : song.blockOrFirst id = none ↔ song.blocks = [] := by
  rw [blockOrFirst_eq, Option.or_eq_none_iff, leastBlock_eq_none_iff]
  constructor
  · exact And.right
  · intro h
    simp [h]

theorem exists_picks (nonempty : song.blocks ≠ []) (id : Option String) :
    ∃ b, song.Picks id b := by
  cases hblock : song.blockOrFirst id with
  | none => exact absurd (blockOrFirst_eq_none_iff.mp hblock) nonempty
  | some b => exact ⟨b, blockOrFirst_eq_some_iff.mp hblock⟩

end Song

/-- The library has no block to show under the id: it fails, or has no song, or the song has no
blocks. -/
inductive Library.Lacks (library : Library) (id : String) : Prop
  | failure {f : Failure} : library.song id = .error f → Lacks library id
  | missing : library.song id = .ok none → Lacks library id
  | empty {song : Song} : library.song id = .ok (some song) → song.blocks = [] → Lacks library id

/-- The Bible has no verses for the reference: it fails, finds nothing or finds no verse. -/
inductive Bible.Lacks (bible : Bible) (reference : String) : Prop
  | failure {f : Failure} : bible.lookup reference = .error f → Lacks bible reference
  | missing : bible.lookup reference = .ok none → Lacks bible reference
  | empty : bible.lookup reference = .ok (some []) → Lacks bible reference

/-- The kind of items that show such a file. -/
def Projection.MediaType.kind : MediaType → Plan.Kind
  | image => .announcementImage
  | pdf => .announcementPdf

namespace Plan

/-- The item is looked up in the Bible when it has no text of its own. -/
inductive Kind.IsBible : Kind → Prop
  | verse : IsBible bibleVerse
  | passage : IsBible biblePassage

/-- The item shows nothing but its own text. -/
inductive Kind.IsText : Kind → Prop
  | announcement : IsText announcementText
  | manual : IsText verseManual
  | other (name : String) : IsText (other name)

theorem Kind.sorts (k : Kind) :
    k = songBlock ∨ (∃ type : MediaType, k = type.kind) ∨ k.IsBible ∨ k.IsText := by
  cases k with
  | songBlock => exact .inl rfl
  | announcementImage => exact .inr (.inl ⟨.image, rfl⟩)
  | announcementPdf => exact .inr (.inl ⟨.pdf, rfl⟩)
  | bibleVerse => exact .inr (.inr (.inl .verse))
  | biblePassage => exact .inr (.inr (.inl .passage))
  | announcementText => exact .inr (.inr (.inr .announcement))
  | verseManual => exact .inr (.inr (.inr .manual))
  | other name => exact .inr (.inr (.inr (.other name)))

namespace Item

variable {item : Item} {sources : Sources} {slide : Slide}

/-- The reference that is looked up: that of the item, or its title if there is none. -/
inductive Refers (item : Item) : String → Prop
  | byRefId {reference : String} : Leaves item.refId (some reference) → Refers item reference
  | byTitle {reference : String} :
      Leaves item.refId none → Leaves item.title (some reference) → Refers item reference

/-- A line of a passage: the number of the verse, a space and its trimmed text. -/
def Line (v : Verse) (line : String) : Prop :=
  ∃ text, Trims v.text text ∧ line = toString v.number ++ " " ++ text

/-- The title of a song, extended by that of the block if it has one. -/
def headed (song : Song) : Option String → String
  | some blockTitle => song.title ++ " — " ++ blockTitle
  | none => song.title

/-- Nothing is shown in place of the item's own words. -/
inductive SpeaksForItself (sources : Sources) (item : Item) : Prop
  | kind : item.kind.IsText → SpeaksForItself sources item
  | content {text : String} :
      item.kind.IsBible → Leaves item.content (some text) → SpeaksForItself sources item
  | lookup : item.kind.IsBible → (∀ reference, item.Refers reference →
      sources.bible.Lacks reference) → SpeaksForItself sources item

/-- The rules for what an item becomes. -/
inductive Becomes (sources : Sources) (item : Item) : Slide → Prop
  | media {type : MediaType} {title : Option String} {path : String} :
      item.kind = type.kind → Leaves item.title title → Leaves item.mediaPath (some path) →
      Becomes sources item (.media ⟨title, path, type⟩)
  | noMedia {type : MediaType} {title : Option String} :
      item.kind = type.kind → Leaves item.title title → Leaves item.mediaPath none →
      Becomes sources item (.text ⟨title, "This item has no media file attached.", none⟩)
  | block {id : String} {song : Song} {b : Song.Block} {blockTitle : Option String}
      {body : String} :
      item.kind = .songBlock → Leaves item.refId (some id) →
      sources.library.song id = .ok (some song) → song.Picks item.refSubId b →
      Leaves (some b.title) blockTitle → Trims b.content body →
      Becomes sources item (.text ⟨some (headed song blockTitle), body,
        some ⟨song.id, song.title, some b.id, blockTitle⟩⟩)
  | noBlock {title : Option String} :
      item.kind = .songBlock → Leaves item.title title →
      (∀ id, Leaves item.refId (some id) → sources.library.Lacks id) →
      Becomes sources item (.text ⟨some (title.getD "Missing song"),
        "This song is no longer available in the library.", none⟩)
  | verses {reference : String} {vs : List Verse} {title : Option String}
      {lines : List String} :
      item.kind.IsBible → Leaves item.content none → item.Refers reference →
      sources.bible.lookup reference = .ok (some vs) → vs ≠ [] →
      Leaves item.title title → List.Forall₂ Line vs lines →
      Becomes sources item (.text ⟨some (title.getD reference), "\n".intercalate lines, none⟩)
  | own {title : Option String} {body : String} :
      item.SpeaksForItself sources → Leaves item.title title →
      Trims (item.content.getD "") body → Becomes sources item (.text ⟨title, body, none⟩)

theorem blockSlide_eq (song : Song) (b : Song.Block) :
    blockSlide song b = .text ⟨some (headed song (content? b.title)), trim b.content,
      some ⟨song.id, song.title, some b.id, content? b.title⟩⟩ := by
  unfold blockSlide headed
  cases content? b.title with
  | none => rfl
  | some blockTitle => rfl

theorem slide_of_song (kind : item.kind = .songBlock) :
    item.slide sources = item.songSlide sources.library := by
  rw [slide, kind]

theorem slide_of_media {type : MediaType} (kind : item.kind = type.kind) :
    item.slide sources = item.mediaSlide type := by
  rw [slide, kind]
  cases type <;> rfl

theorem slide_of_bible (kind : item.kind.IsBible) :
    item.slide sources = item.bibleSlide sources.bible := by
  unfold slide
  generalize item.kind = k at kind
  cases kind with
  | verse | passage => rfl

theorem slide_of_text (kind : item.kind.IsText) : item.slide sources = item.ownText := by
  unfold slide
  generalize item.kind = k at kind
  cases kind with
  | announcement | manual | other => rfl

theorem leaves_shownTitle (item : Item) : Leaves item.title item.shownTitle := leaves_iff.mpr rfl

theorem eq_shownTitle {title : Option String} (h : Leaves item.title title) :
    item.shownTitle = title := leaves_iff.mp h

theorem leaves_refId_iff {id : String} :
    Leaves item.refId (some id) ↔ item.songId = some id := leaves_iff

section Songs

variable {id : String} {song : Song} {b : Song.Block}

theorem slide_of_lacks (kind : item.kind = .songBlock)
    (lacks : ∀ id, item.songId = some id → sources.library.Lacks id) :
    item.slide sources = item.missingSong := by
  rw [slide_of_song kind]
  unfold songSlide
  cases hid : item.songId with
  | none => rfl
  | some id =>
    rw [Option.map_some]
    cases lacks id hid with
    | failure hfailure => rw [hfailure]
    | missing hmissing => rw [hmissing]
    | empty hfound hempty =>
      rw [hfound]
      dsimp only
      rw [Song.blockOrFirst_eq_none_iff.mpr hempty]

theorem slide_of_picks (kind : item.kind = .songBlock) (hid : item.songId = some id)
    (found : sources.library.song id = .ok (some song)) (picks : song.Picks item.refSubId b) :
    item.slide sources = blockSlide song b := by
  rw [slide_of_song kind]
  unfold songSlide
  rw [hid, Option.map_some, found]
  dsimp only
  rw [Song.blockOrFirst_eq_some_iff.mpr picks]

/-- There is no block for the item, or just one of a song is picked. -/
theorem lacks_or_picks (item : Item) (library : Library) :
    (∀ id, item.songId = some id → library.Lacks id) ∨
      ∃ id song b, item.songId = some id ∧ library.song id = .ok (some song) ∧
        song.Picks item.refSubId b := by
  cases hid : item.songId with
  | none => exact .inl (by simp)
  | some id =>
    rcases hsong : library.song id with f | _ | song
    · exact .inl (by rintro _ ⟨⟩; exact .failure hsong)
    · exact .inl (by rintro _ ⟨⟩; exact .missing hsong)
    · cases hblock : song.blockOrFirst item.refSubId with
      | none =>
        have hempty := Song.blockOrFirst_eq_none_iff.mp hblock
        exact .inl (by rintro _ ⟨⟩; exact .empty hsong hempty)
      | some b =>
        exact .inr ⟨id, song, b, rfl, hsong, Song.blockOrFirst_eq_some_iff.mp hblock⟩

theorem becomes_of_song (kind : item.kind = .songBlock) :
    item.Becomes sources (item.slide sources) := by
  rcases item.lacks_or_picks sources.library with hlacks | ⟨id, song, b, hid, found, picks⟩
  · rw [slide_of_lacks kind hlacks]
    rw [missingSong, Option.or_some]
    exact .noBlock kind item.leaves_shownTitle fun id hid => hlacks id (leaves_refId_iff.mp hid)
  · rw [slide_of_picks kind hid found picks, blockSlide_eq]
    exact .block kind (leaves_refId_iff.mpr hid) found picks (leaves_some_iff.mpr rfl)
      (trims_trim b.content)

end Songs

section Verses

variable {bible : Bible} {reference : String} {vs : List Verse}

theorem refers_iff : item.Refers reference ↔
    (item.refId.bind content?).or item.shownTitle = some reference := by
  constructor
  · intro h
    cases h with
    | byRefId hid => rw [leaves_iff.mp hid, Option.some_or]
    | byTitle hid htitle => rw [leaves_iff.mp hid, Option.none_or, eq_shownTitle htitle]
  · intro h
    cases hid : item.refId.bind content? with
    | none =>
      rw [hid, Option.none_or] at h
      exact .byTitle (leaves_iff.mpr hid) (leaves_iff.mpr h)
    | some id =>
      rw [hid, Option.some_or] at h
      cases h
      exact .byRefId (leaves_iff.mpr hid)

theorem bibleSlide_of_content {text : String} (content : Leaves item.content (some text)) :
    item.bibleSlide bible = item.ownText := by
  unfold bibleSlide
  rw [leaves_iff.mp content]

theorem bibleSlide_of_lacks (h : ∀ reference, item.Refers reference → bible.Lacks reference) :
    item.bibleSlide bible = item.ownText := by
  unfold bibleSlide
  split
  · rename_i reference _ hreference
    cases h reference (refers_iff.mpr hreference) with
    | failure hfailure => rw [hfailure]
    | missing hmissing => rw [hmissing]
    | empty hempty => rw [hempty]
  · rfl

theorem bibleSlide_of_found (content : Leaves item.content none) (refers : item.Refers reference)
    (found : bible.lookup reference = .ok (some vs)) (nonempty : vs ≠ []) :
    item.bibleSlide bible =
      plainText (item.shownTitle.or (some reference)) (versesText vs) := by
  unfold bibleSlide
  rw [leaves_iff.mp content, refers_iff.mp refers]
  dsimp only
  rw [found]
  cases vs with
  | nil => exact absurd rfl nonempty
  | cons v vs => rfl

/-- The item's own words are shown, or just one passage is found. -/
theorem lacks_or_found (item : Item) (bible : Bible) :
    (∀ reference, item.Refers reference → bible.Lacks reference) ∨
      ∃ reference vs, item.Refers reference ∧ bible.lookup reference = .ok (some vs) ∧
        vs ≠ [] := by
  cases hreference : (item.refId.bind content?).or item.shownTitle with
  | none => exact .inl fun reference h => by rw [refers_iff, hreference] at h; cases h
  | some reference =>
    have honly (other : String) (h : item.Refers other) : reference = other := by
      rw [refers_iff, hreference] at h
      exact Option.some.inj h
    rcases hlookup : bible.lookup reference with f | _ | _ | ⟨v, vs⟩
    · exact .inl fun other h => honly other h ▸ .failure hlookup
    · exact .inl fun other h => honly other h ▸ .missing hlookup
    · exact .inl fun other h => honly other h ▸ .empty hlookup
    · exact .inr ⟨reference, v :: vs, refers_iff.mpr hreference, hlookup, by simp⟩

theorem line_iff {v : Verse} {line : String} : Line v line ↔ line = verseLine v := by
  constructor
  · rintro ⟨text, htrims, rfl⟩
    rw [← trims_iff.mp htrims]
    rfl
  · rintro rfl
    exact ⟨Text.trim v.text, trims_trim _, rfl⟩

theorem forall₂_line_iff {lines : List String} :
    List.Forall₂ Line vs lines ↔ lines = vs.map verseLine := by
  induction vs generalizing lines with
  | nil => simp
  | cons v vs ih => simp [List.forall₂_cons_left_iff, line_iff, ih]

theorem becomes_ownText (h : item.SpeaksForItself sources) :
    item.Becomes sources item.ownText := .own h item.leaves_shownTitle (trims_trim _)

theorem becomes_bibleSlide (kind : item.kind.IsBible) :
    item.Becomes sources (item.bibleSlide sources.bible) := by
  cases hcontent : item.content.bind content? with
  | some text =>
    have content := leaves_iff.mpr hcontent
    rw [bibleSlide_of_content content]
    exact becomes_ownText (.content kind content)
  | none =>
    rcases item.lacks_or_found sources.bible with hlacks | ⟨reference, vs, refers, found, hne⟩
    · rw [bibleSlide_of_lacks hlacks]
      exact becomes_ownText (.lookup kind hlacks)
    · have content := leaves_iff.mpr hcontent
      rw [bibleSlide_of_found content refers found hne, Option.or_some]
      exact .verses kind content refers found hne item.leaves_shownTitle
        (forall₂_line_iff.mpr rfl)

end Verses

theorem becomes_mediaSlide {type : MediaType} (kind : item.kind = type.kind) :
    item.Becomes sources (item.mediaSlide type) := by
  unfold mediaSlide
  cases hpath : item.mediaPath.bind content? with
  | some path => exact .media kind item.leaves_shownTitle (leaves_iff.mpr hpath)
  | none => exact .noMedia kind item.leaves_shownTitle (leaves_iff.mpr hpath)

/-- There is always a rule that applies. -/
theorem becomes_slide (item : Item) (sources : Sources) :
    item.Becomes sources (item.slide sources) := by
  rcases item.kind.sorts with kind | ⟨type, kind⟩ | kind | kind
  · exact becomes_of_song kind
  · rw [slide_of_media kind]
    exact becomes_mediaSlide kind
  · rw [slide_of_bible kind]
    exact becomes_bibleSlide kind
  · rw [slide_of_text kind]
    exact becomes_ownText (.kind kind)

theorem SpeaksForItself.slide_eq (h : item.SpeaksForItself sources) :
    item.slide sources = item.ownText := by
  cases h with
  | kind kind => exact slide_of_text kind
  | content kind content => rw [slide_of_bible kind, bibleSlide_of_content content]
  | lookup kind lacks => rw [slide_of_bible kind, bibleSlide_of_lacks lacks]

/-- The rules do not contradict each other. -/
theorem Becomes.slide_eq (h : item.Becomes sources slide) : item.slide sources = slide := by
  cases h with
  | media kind title path =>
    rw [slide_of_media kind, mediaSlide, leaves_iff.mp path, eq_shownTitle title]
  | noMedia kind title path =>
    rw [slide_of_media kind, mediaSlide, leaves_iff.mp path, eq_shownTitle title]
    rfl
  | block kind refId found picks title body =>
    have hid := leaves_refId_iff.mp refId
    rw [slide_of_picks kind hid found picks, blockSlide_eq, leaves_some_iff.mp title,
      trims_iff.mp body]
  | noBlock kind title lacks =>
    have hlacks := fun id hid => lacks id (leaves_refId_iff.mpr hid)
    rw [slide_of_lacks kind hlacks, missingSong, eq_shownTitle title, Option.or_some]
    rfl
  | verses kind content refers found nonempty title lines =>
    rw [slide_of_bible kind, bibleSlide_of_found content refers found nonempty,
      eq_shownTitle title, Option.or_some, forall₂_line_iff.mp lines]
    rfl
  | own speaks title body =>
    rw [speaks.slide_eq, ownText, eq_shownTitle title, trims_iff.mp body]
    rfl

/-- What an item becomes is what the rules say. A picture or document it becomes just when it is
to be one and has a path, and words of a song just when the library has a song with a block. -/
theorem becomes_one_slide (item : Item) (sources : Sources) :
    (∀ slide, item.slide sources = slide ↔ item.Becomes sources slide) ∧
      ((∃ media, item.slide sources = .media media) ↔
        (∃ type : MediaType, item.kind = type.kind) ∧
          ∃ path, Leaves item.mediaPath (some path)) ∧
      ((∃ text, item.slide sources = .text text ∧ text.song.isSome) ↔
        item.kind = .songBlock ∧ ∃ id song, Leaves item.refId (some id) ∧
          sources.library.song id = .ok (some song) ∧ song.blocks ≠ []) := by
  refine ⟨fun slide => ⟨?_, Becomes.slide_eq⟩, ?_, ?_⟩
  · rintro rfl
    exact item.becomes_slide sources
  · constructor
    · rintro ⟨media, hmedia⟩
      have hbecomes := item.becomes_slide sources
      rw [hmedia] at hbecomes
      cases hbecomes with
      | media kind _ path => exact ⟨⟨_, kind⟩, _, path⟩
    · rintro ⟨⟨type, kind⟩, path, hpath⟩
      exact ⟨_, (Becomes.media kind item.leaves_shownTitle hpath).slide_eq⟩
  · constructor
    · rintro ⟨text, htext, hsong⟩
      have hbecomes := item.becomes_slide sources
      rw [htext] at hbecomes
      cases hbecomes with
      | block kind refId found picks =>
        exact ⟨kind, _, _, refId, found, List.ne_nil_of_mem picks.mem⟩
      | _ => cases hsong
    · rintro ⟨kind, id, song, refId, found, nonempty⟩
      obtain ⟨b, picks⟩ := Song.exists_picks nonempty item.refSubId
      have hbecomes := Becomes.block kind refId found picks (leaves_some_iff.mpr rfl)
        (trims_trim b.content)
      exact ⟨_, hbecomes.slide_eq, rfl⟩

/-- No block goes by the id, and of the two that come first the upper one is shown. -/
example :
    let song : Song := ⟨"grace", "Amazing Grace",
      [⟨"v2", 2, "Verse 2", "Through many dangers"⟩, ⟨"c", 1, " ", "\tMy chains are gone "⟩,
        ⟨"v1", 1, "Verse 1", "Amazing grace"⟩]⟩
    let sources : Sources := ⟨.ofCatalogue (.ok ⟨[song], []⟩), ⟨fun _ => .ok none⟩⟩
    (⟨"i", 1, .songBlock, none, none, some " grace ", some "v3", none⟩ : Item).slide sources =
      .text ⟨some "Amazing Grace", "My chains are gone",
        some ⟨"grace", "Amazing Grace", some "c", none⟩⟩ := by
  decide

end Item
end Plan
end Lectern
