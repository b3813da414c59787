import Lectern.Failure

/-!
# Plans and songs

A plan is a list of items, gone through in the order of their `order`; items of equal order
keep their place. A song is a list of blocks.
-/

namespace Lectern

namespace Plan

inductive Kind where
  | songBlock
  | announcementText
  | announcementImage
  | announcementPdf
  | verseManual
  | bibleVerse
  | biblePassage
  | other (name : String)
deriving DecidableEq

namespace Kind

def ofName (name : String) : Kind :=
  if name = "SONG_BLOCK" then songBlock
  else if name = "ANNOUNCEMENT_TEXT" then announcementText
  else if name = "ANNOUNCEMENT_IMAGE" then announcementImage
  else if name = "ANNOUNCEMENT_PDF" then announcementPdf
  else if name = "VERSE_MANUAL" then verseManual
  else if name = "BIBLE_VERSE" then bibleVerse
  else if name = "BIBLE_PASSAGE" then biblePassage
  else other name

def name : Kind → String
  | songBlock => "SONG_BLOCK"
  | announcementText => "ANNOUNCEMENT_TEXT"
  | announcementImage => "ANNOUNCEMENT_IMAGE"
  | announcementPdf => "ANNOUNCEMENT_PDF"
  | verseManual => "VERSE_MANUAL"
  | bibleVerse => "BIBLE_VERSE"
  | biblePassage => "BIBLE_PASSAGE"
  | other name => name

theorem name_ofName (s : String) : (ofName s).name = s := by
  unfold ofName
  repeat' split
  all_goals simp_all [name]

end Kind

structure Item where
  id : String
  order : Int
  kind : Kind
  title : Option String
  content : Option String
  refId : Option String
  refSubId : Option String
  mediaPath : Option String
deriving DecidableEq

end Plan

structure Plan where
  id : String
  title : String
  items : List Plan.Item
deriving DecidableEq

def Plan.ordered (p : Plan) : List Plan.Item :=
  p.items.mergeSort fun i j => decide (i.order ≤ j.order)

namespace Song

structure Block where
  id : String
  order : Int
  title : String
  content : String
deriving DecidableEq

end Song

structure Song where
  id : String
  title : String
  blocks : List Song.Block
deriving DecidableEq

namespace Song

/-- The first of the blocks whose order is least. -/
def leastBlock : List Block → Option Block
  | [] => none
  | b :: rest =>
    match leastBlock rest with
    | none => some b
    | some least => some (if least.order < b.order then least else b)

/-- The first block with the id, else the one that comes first in order. -/
def blockOrFirst (song : Song) (id : Option String) : Option Block :=
  match id.bind fun id => song.blocks.find? fun b => b.id = id with
  | some b => some b
  | none => leastBlock song.blocks

end Song

/-- Songs and plans, looked up by their ids. A lookup finds, finds nothing, or fails. -/
structure Library where
  plan : String → Except Failure (Option Plan)
  song : String → Except Failure (Option Song)

/-- The songs and plans of a file. -/
structure Catalogue where
  songs : List Song
  plans : List Plan
deriving DecidableEq

namespace Catalogue

def empty : Catalogue := ⟨[], []⟩

def plan? (c : Catalogue) (id : String) : Option Plan := c.plans.find? fun p => p.id = id

def song? (c : Catalogue) (id : String) : Option Song := c.songs.find? fun s => s.id = id

end Catalogue

/-- A library that reads its catalogue anew for each lookup. -/
def Library.ofCatalogue (c : Except Failure Catalogue) : Library where
  plan id := c.map (·.plan? id)
  song id := c.map (·.song? id)

end Lectern
