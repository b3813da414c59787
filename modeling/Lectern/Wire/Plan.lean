import Lectern.Json.Decoder
import Lectern.Plan
import Lectern.Scripture.Dataset

/-!
# Plans, songs and verses as JSON

The library and the Bible are kept in files. A missing file holds nothing; a file that
cannot be read or does not decode fails each lookup.
-/

namespace Lectern

open Json

namespace Plan

def Kind.toJson (k : Kind) : Value := .text k.name

def Kind.decoder : Decoder Kind := .map Kind.ofName .text

def Item.toJson (i : Item) : Value :=
  .object [
    ("content", .ofOption .text i.content),
    ("id", .text i.id),
    ("kind", i.kind.toJson),
    ("mediaPath", .ofOption .text i.mediaPath),
    ("order", .int i.order),
    ("refId", .ofOption .text i.refId),
    ("refSubId", .ofOption .text i.refSubId),
    ("title", .ofOption .text i.title)]

def Item.decoder : Decoder Item := fun a n => do
  let f ← Fields.record ["id", "order", "kind", "title", "content", "refId", "refSubId",
    "mediaPath"] 3 a n
  return {
    id := ← f.required "id" .text
    order := ← f.required "order" .int64
    kind := ← f.required "kind" Kind.decoder
    title := ← f.optional "title" .text
    content := ← f.optional "content" .text
    refId := ← f.optional "refId" .text
    refSubId := ← f.optional "refSubId" .text
    mediaPath := ← f.optional "mediaPath" .text }

def toJson (p : Plan) : Value :=
  .object [("id", .text p.id), ("items", .list (p.items.map Item.toJson)), ("title", .text p.title)]

def decoder : Decoder Plan := fun a n => do
  let f ← Fields.record ["id", "title", "items"] 1 a n
  return {
    id := ← f.required "id" .text
    title := ← f.defaulted "title" .text ""
    items := ← f.defaulted "items" (.list Item.decoder) [] }

end Plan

namespace Song

def Block.toJson (b : Block) : Value :=
  .object [("content", .text b.content), ("id", .text b.id), ("order", .int b.order),
    ("title", .text b.title)]

def Block.decoder : Decoder Block := fun a n => do
  let f ← Fields.record ["id", "order", "title", "content"] 1 a n
  return {
    id := ← f.required "id" .text
    order := ← f.defaulted "order" .int64 0
    title := ← f.defaulted "title" .text ""
    content := ← f.defaulted "content" .text "" }

def toJson (s : Song) : Value :=
  .object [("blocks", .list (s.blocks.map Block.toJson)), ("id", .text s.id),
    ("title", .text s.title)]

def decoder : Decoder Song := fun a n => do
  let f ← Fields.record ["id", "title", "blocks"] 2 a n
  return {
    id := ← f.required "id" .text
    title := ← f.required "title" .text
    blocks := ← f.defaulted "blocks" (.list Block.decoder) [] }

end Song

namespace Catalogue

def toJson (c : Catalogue) : Value :=
  .object [("plans", .list (c.plans.map Plan.toJson)), ("songs", .list (c.songs.map Song.toJson))]

def decoder : Decoder Catalogue := fun a n => do
  let f ← Fields.record ["songs", "plans"] 0 a n
  return {
    songs := ← f.defaulted "songs" (.list Song.decoder) []
    plans := ← f.defaulted "plans" (.list Plan.decoder) [] }

/-- The catalogue of the file at `path`. -/
def ofFile (path : String) : File → Except Failure Catalogue
  | .missing => .ok empty
  | .unreadable => .error (.of ("read library failed: " ++ path))
  | .text s =>
    match decode? decoder s.toList with
    | some c => .ok c
    | none => .error (.of ("parse library failed: " ++ path))

end Catalogue

def Library.ofFile (path : String) (file : File) : Library :=
  .ofCatalogue (Catalogue.ofFile path file)

namespace Scripture

def Verse.toJson (v : Verse) : Value :=
  .object [("book", .text v.book), ("chapter", .int v.chapter), ("text", .text v.text),
    ("verse", .int v.number)]

def Verse.decoder : Decoder Verse := fun a n => do
  let f ← Fields.record ["book", "chapter", "verse", "text"] 4 a n
  return {
    book := ← f.required "book" .text
    chapter := ← f.required "chapter" (.nat 32)
    number := ← f.required "verse" (.nat 32)
    text := ← f.required "text" .text }

/-- The verses of the file at `path`. -/
def datasetOfFile (path : String) : File → Except Failure (List Verse)
  | .missing => .ok []
  | .unreadable => .error (.of ("read bible dataset failed: " ++ path))
  | .text s =>
    match decode? (.list Verse.decoder) s.toList with
    | some vs => .ok vs
    | none => .error (.of ("parse bible dataset failed: " ++ path))

end Scripture
end Lectern
