import Lectern.Proofs.Item.Showing

/-!
# Blanks around the texts of an item

Blanks around the title, the content, the reference and the path of an item make no difference to
what it shows. The id of a block is looked for as it stands: with blanks around it no block goes
by it, and the block that comes first in order is shown instead of the one that is meant.
-/

namespace Lectern

open Projection Text

namespace Song

/-- No block of a song with tidy ids goes by an id that is not tidy itself. -/
theorem blockOrFirst_of_untidy {song : Song} {raw : String} (tidy : ∀ c ∈ song.blocks, Tidy c.id)
    (untidy : ¬ Tidy raw) : song.blockOrFirst (some raw) = song.blockOrFirst none := by
  rw [blockOrFirst_eq, blockOrFirst_eq, List.find?_eq_none.mpr, List.find?_eq_none.mpr]
  · simp
  · intro c hc
    simp only [decide_eq_true_eq, Option.some.injEq]
    rintro rfl
    exact untidy (tidy c hc)

end Song

/-- No blanks around the ids of the songs and of their blocks. -/
def Library.TidyIds (library : Library) : Prop :=
  ∀ id song, library.song id = .ok (some song) → Tidy song.id ∧ ∀ b ∈ song.blocks, Tidy b.id

namespace Plan
namespace Item

variable {item tidied : Item} {sources : Sources}

/-- The item with each of its texts trimmed, and without those of which nothing is left. -/
structure Trimmed (item tidied : Item) : Prop where
  id : tidied.id = item.id
  order : tidied.order = item.order
  kind : tidied.kind = item.kind
  title : Leaves item.title tidied.title
  content : Leaves item.content tidied.content
  refId : Leaves item.refId tidied.refId
  refSubId : Leaves item.refSubId tidied.refSubId
  mediaPath : Leaves item.mediaPath tidied.mediaPath

/-- Only an item that is about a song has a use for the id of a block. -/
theorem slide_refSubId_of_ne_song (id : Option String) (other : item.kind ≠ .songBlock) :
    { item with refSubId := id }.slide sources = item.slide sources := by
  unfold slide
  cases hkind : item.kind with
  | songBlock => exact absurd hkind other
  | _ => rfl

namespace Trimmed

theorem shownTitle (h : item.Trimmed tidied) : tidied.shownTitle = item.shownTitle :=
  h.title.bind_content?_eq

theorem ownText (h : item.Trimmed tidied) : tidied.ownText = item.ownText := by
  rw [Item.ownText, Item.ownText, h.shownTitle, h.content.trim_getD_eq]

theorem missingSong (h : item.Trimmed tidied) : tidied.missingSong = item.missingSong := by
  rw [Item.missingSong, Item.missingSong, h.shownTitle]

theorem mediaSlide (h : item.Trimmed tidied) (type : MediaType) :
    tidied.mediaSlide type = item.mediaSlide type := by
  rw [Item.mediaSlide, Item.mediaSlide, h.mediaPath.bind_content?_eq, h.shownTitle]

theorem bibleSlide (h : item.Trimmed tidied) (bible : Bible) :
    tidied.bibleSlide bible = item.bibleSlide bible := by
  rw [Item.bibleSlide, Item.bibleSlide, h.content.bind_content?_eq, h.refId.bind_content?_eq,
    h.shownTitle, h.ownText]

theorem songId (h : item.Trimmed tidied) : tidied.songId = item.songId := h.refId.bind_content?_eq

/-- An item that is not about a song shows the same. -/
theorem slide_of_ne_song (h : item.Trimmed tidied) (other : item.kind ≠ .songBlock) :
    tidied.slide sources = item.slide sources := by
  rw [slide, slide, h.kind, h.mediaSlide, h.mediaSlide, h.bibleSlide, h.ownText]
  split
  · rename_i kind
    exact absurd kind other
  all_goals rfl

theorem songSlide_of_refSubId (h : item.Trimmed tidied) (library : Library) :
    ({ tidied with refSubId := item.refSubId } : Item).songSlide library =
      item.songSlide library := by
  have hid : ({ tidied with refSubId := item.refSubId } : Item).songId = item.songId := h.songId
  have hmissing : ({ tidied with refSubId := item.refSubId } : Item).missingSong =
      item.missingSong := h.missingSong
  rw [songSlide, songSlide, hid, hmissing]

/-- The item shows the same whether or not its texts are trimmed, as long as the id of its block
stays as it is. -/
theorem slide_of_refSubId (h : item.Trimmed tidied) (sources : Sources) :
    { tidied with refSubId := item.refSubId }.slide sources = item.slide sources := by
  by_cases kind : item.kind = .songBlock
  · have kind' : ({ tidied with refSubId := item.refSubId } : Item).kind = .songBlock :=
      h.kind.trans kind
    rw [slide_of_song kind, slide_of_song kind', h.songSlide_of_refSubId]
  · rw [slide_refSubId_of_ne_song _ (by rwa [h.kind]), h.slide_of_ne_song kind]

/-- Both show a block of the same song, each the one that its id picks. -/
theorem slide_of_picks (h : item.Trimmed tidied) {id : String} {song : Song} {b b' : Song.Block}
    (kind : item.kind = .songBlock) (refId : Leaves item.refId (some id))
    (found : sources.library.song id = .ok (some song)) (picks : song.Picks item.refSubId b)
    (picks' : song.Picks tidied.refSubId b') :
    item.slide sources = blockSlide song b ∧ tidied.slide sources = blockSlide song b' := by
  have hid : item.songId = some id := leaves_refId_iff.mp refId
  exact ⟨Item.slide_of_picks kind hid found picks,
    Item.slide_of_picks (h.kind.trans kind) (h.songId.trans hid) found picks'⟩

theorem slide_of_lacks (h : item.Trimmed tidied) (kind : item.kind = .songBlock)
    (lacks : ∀ id, item.songId = some id → sources.library.Lacks id) :
    tidied.slide sources = item.slide sources := by
  have lacks' : ∀ id, tidied.songId = some id → sources.library.Lacks id := by rwa [h.songId]
  rw [Item.slide_of_lacks kind lacks, Item.slide_of_lacks (h.kind.trans kind) lacks',
    h.missingSong]

/-- The item shows the same when its texts are trimmed if and only if the blocks look the same
that go by the trimmed id and by the id as it stands. -/
theorem slide_eq_iff (h : item.Trimmed tidied) (sources : Sources) :
    tidied.slide sources = item.slide sources ↔
      ∀ id song b b', item.kind = .songBlock → Leaves item.refId (some id) →
        sources.library.song id = .ok (some song) → song.Picks item.refSubId b →
        song.Picks tidied.refSubId b' → blockSlide song b' = blockSlide song b := by
  constructor
  · intro hsame id song b b' kind refId found picks picks'
    obtain ⟨hitem, htidied⟩ := h.slide_of_picks kind refId found picks picks'
    rw [← hitem, ← htidied, hsame]
  · intro hsame
    by_cases kind : item.kind = .songBlock
    · rcases item.lacks_or_picks sources.library with lacks | ⟨id, song, b, hid, found, picks⟩
      · exact h.slide_of_lacks kind lacks
      · have refId := leaves_refId_iff.mpr hid
        have nonempty : song.blocks ≠ [] := List.ne_nil_of_mem picks.mem
        obtain ⟨b', picks'⟩ := Song.exists_picks nonempty tidied.refSubId
        obtain ⟨hitem, htidied⟩ := h.slide_of_picks kind refId found picks picks'
        rw [hitem, htidied, hsame id song b b' kind refId found picks picks']
    · exact h.slide_of_ne_song kind

end Trimmed

/-- An id with blanks around it is as good as none. -/
theorem slide_of_untidy {raw : String} (named : item.refSubId = some raw) (untidy : ¬ Tidy raw)
    (tidy : sources.library.TidyIds) :
    item.slide sources = { item with refSubId := none }.slide sources := by
  by_cases kind : item.kind = .songBlock
  · have kind' : ({ item with refSubId := none } : Item).kind = .songBlock := kind
    have hid : ({ item with refSubId := none } : Item).songId = item.songId := rfl
    rcases item.lacks_or_picks sources.library with lacks | ⟨id, song, b, refId, found, picks⟩
    · rw [slide_of_lacks kind lacks, slide_of_lacks kind' (by rwa [hid])]
      rfl
    · have picks' : song.Picks none b := by
        rwa [named, ← Song.blockOrFirst_eq_some_iff,
          Song.blockOrFirst_of_untidy (tidy id song found).2 untidy,
          Song.blockOrFirst_eq_some_iff] at picks
      rw [slide_of_picks kind refId found picks,
        slide_of_picks kind' (hid.trans refId) found picks']
  · exact (slide_refSubId_of_ne_song none kind).symm

/-- Trimming the texts of an item makes no difference but for the id of its block, and none there
if the block that is picked looks the same. In a library with tidy ids an id with blanks around
it picks what no id at all would pick. -/
theorem Trimmed.shows_alike (h : item.Trimmed tidied) (sources : Sources) :
    { tidied with refSubId := item.refSubId }.slide sources = item.slide sources ∧
      (tidied.slide sources = item.slide sources ↔
        ∀ id song b b', item.kind = .songBlock → Leaves item.refId (some id) →
          sources.library.song id = .ok (some song) → song.Picks item.refSubId b →
          song.Picks tidied.refSubId b' → blockSlide song b' = blockSlide song b) ∧
      ∀ raw, item.refSubId = some raw → ¬ Tidy raw → sources.library.TidyIds →
        item.slide sources = { item with refSubId := none }.slide sources :=
  ⟨h.slide_of_refSubId sources, h.slide_eq_iff sources, fun _ => slide_of_untidy⟩

/-- A song with a verse and a chorus. -/
def chained : Song :=
  ⟨"grace", "Amazing Grace",
    [⟨"v1", 1, "Verse 1", "Amazing grace"⟩, ⟨"c", 3, "Chorus", "My chains"⟩]⟩

def chainedOnly : Sources := ⟨.ofCatalogue (.ok ⟨[chained], []⟩), .ofDataset []⟩

/-- An item for a block of the song. -/
def chainedItem (refSubId : String) : Item :=
  ⟨"1", 1, .songBlock, none, none, some "grace", some refSubId, none⟩

theorem trimmed_chainedItem : (chainedItem " c ").Trimmed (chainedItem "c") where
  id := rfl
  order := rfl
  kind := rfl
  title := .missing
  content := .missing
  refId := leaves_iff.mpr (by decide)
  refSubId := leaves_iff.mpr (by decide)
  mediaPath := .missing

theorem tidyIds_chainedOnly : chainedOnly.library.TidyIds := by
  intro id song found
  have hmem : song ∈ [chained] := by
    simp only [chainedOnly, Library.ofCatalogue, Except.map, Except.ok.injEq] at found
    exact List.mem_of_find?_eq_some found
  obtain rfl : song = chained := by simpa using hmem
  have hids : trim chained.id = chained.id ∧ ∀ b ∈ chained.blocks, trim b.id = b.id := by decide
  exact ⟨tidy_iff.mpr hids.1, fun b hb => tidy_iff.mpr (hids.2 b hb)⟩

/-- The chorus is meant, and the blanks around its id lead to the verse. -/
theorem shows_alike_chained :
    (chainedItem " c ").Trimmed (chainedItem "c") ∧
      { chainedItem "c" with refSubId := some " c " }.slide chainedOnly =
        (chainedItem " c ").slide chainedOnly ∧
      ¬ Tidy " c " ∧ chainedOnly.library.TidyIds ∧
      (chainedItem " c ").slide chainedOnly =
        { chainedItem " c " with refSubId := none }.slide chainedOnly := by
  obtain ⟨hrest, -, huntidy⟩ := trimmed_chainedItem.shows_alike chainedOnly
  have untidy : ¬ Tidy " c " := by
    rw [tidy_iff]
    decide
  exact ⟨trimmed_chainedItem, hrest, untidy, tidyIds_chainedOnly,
    huntidy " c " rfl untidy tidyIds_chainedOnly⟩

theorem trimming_changes_block :
    ¬ ∀ (item tidied : Item) (sources : Sources), item.Trimmed tidied →
      sources.library.TidyIds → tidied.slide sources = item.slide sources := by
  intro hsame
  have hslides := hsame _ _ _ trimmed_chainedItem tidyIds_chainedOnly
  revert hslides
  decide

end Item
end Plan
end Lectern
