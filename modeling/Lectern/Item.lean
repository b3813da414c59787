import Lectern.Plan
import Lectern.Projection.Content
import Lectern.Scripture.Dataset

/-!
# What a plan item shows

An item becomes a slide: a song block its text, an announcement its picture or document, a
Bible item its verses, and anything else its own title and content. Whatever cannot be
found, for whatever reason, is replaced by a text that says so or by the item's own text.
-/

namespace Lectern

open Projection Scripture

/-- Where songs, plans and verses come from. -/
structure Sources where
  library : Library
  bible : Bible

namespace Plan
namespace Item

variable (item : Item)

def shownTitle : Option String := item.title.bind Text.content?

def plainText (title : Option String) (body : String) : Slide := .text ⟨title, body, none⟩

/-- The item's own title and content. -/
def ownText : Slide := plainText item.shownTitle (Text.trim (item.content.getD ""))

def missingSong : Slide :=
  plainText (item.shownTitle.or (some "Missing song"))
    "This song is no longer available in the library."

def mediaSlide (type : MediaType) : Slide :=
  match item.mediaPath.bind Text.content? with
  | some path => .media ⟨item.shownTitle, path, type⟩
  | none => plainText item.shownTitle "This item has no media file attached."

def blockSlide (song : Song) (block : Song.Block) : Slide :=
  let blockTitle := Text.content? block.title
  let title := match blockTitle with
    | some t => song.title ++ " — " ++ t
    | none => song.title
  .text ⟨some title, Text.trim block.content,
    some ⟨song.id, song.title, some block.id, blockTitle⟩⟩

/-- The id of the song whose block the item shows. -/
def songId : Option String := item.refId.bind Text.content?

def songSlide (library : Library) : Slide :=
  match item.songId.map library.song with
  | some (.ok (some song)) =>
    match song.blockOrFirst item.refSubId with
    | some block => blockSlide song block
    | none => item.missingSong
  | _ => item.missingSong

def verseLine (v : Verse) : String := toString v.number ++ " " ++ Text.trim v.text

def versesText (vs : List Verse) : String := "\n".intercalate (vs.map verseLine)

/-- The reference is looked for in the item's reference, then in its title. -/
def bibleSlide (bible : Bible) : Slide :=
  match item.content.bind Text.content?, (item.refId.bind Text.content?).or item.shownTitle with
  | none, some reference =>
    match bible.lookup reference with
    | .ok (some (v :: vs)) =>
      plainText (item.shownTitle.or (some reference)) (versesText (v :: vs))
    | _ => item.ownText
  | _, _ => item.ownText

def slide (sources : Sources) : Slide :=
  match item.kind with
  | .songBlock => item.songSlide sources.library
  | .announcementImage => item.mediaSlide .image
  | .announcementPdf => item.mediaSlide .pdf
  | .bibleVerse | .biblePassage => item.bibleSlide sources.bible
  | .announcementText | .verseManual | .other _ => item.ownText

/-- Whether the library is asked for a song before the item can be shown. -/
def readsLibrary : Bool := item.kind == .songBlock && item.songId.isSome

end Item
end Plan
end Lectern
