import Lectern.Desk.Basic
import Lectern.Json.Decoder

/-!
# Screens and edits as JSON

Encoders and decoders of everything a screen consists of and of the edits made to it.
Objects are written with their fields in the order of the keys.
-/

namespace Lectern

open Json

def Surface.names : List (String × Surface) := [("A", .a), ("B", .b), ("C", .c)]

def Surface.toJson (s : Surface) : Value := .text s.name

def Surface.decoder : Decoder Surface := .choice Surface.names

namespace Projection

def MediaType.names : List (String × MediaType) := [("IMAGE", .image), ("PDF", .pdf)]

def MediaType.toJson : MediaType → Value
  | image => .text "IMAGE"
  | pdf => .text "PDF"

def MediaType.decoder : Decoder MediaType := .choice MediaType.names

def Mode.names : List (String × Mode) :=
  [("NORMAL", .normal), ("BLACK", .black), ("WHITE", .white)]

def Mode.toJson : Mode → Value
  | normal => .text "NORMAL"
  | black => .text "BLACK"
  | white => .text "WHITE"

def Mode.decoder : Decoder Mode := .choice Mode.names

def SongSource.toJson (s : SongSource) : Value :=
  .object (Value.present "blockId" .text s.blockId ++
    Value.present "blockTitle" .text s.blockTitle ++
    [("songId", .text s.songId), ("songTitle", .text s.songTitle)])

def SongSource.decoder : Decoder SongSource := fun a n => do
  let f ← Fields.record ["songId", "songTitle", "blockId", "blockTitle"] 2 a n
  return {
    songId := ← f.required "songId" .text
    songTitle := ← f.required "songTitle" .text
    blockId := ← f.optional "blockId" .text
    blockTitle := ← f.optional "blockTitle" .text }

/-- The fields of a text on its own, all of them written. -/
def TextSlide.fields (t : TextSlide) : List (String × Value) :=
  [("body", .text t.body), ("metaSong", .ofOption SongSource.toJson t.song),
    ("title", .ofOption .text t.title)]

def TextSlide.toJson (t : TextSlide) : Value := .object t.fields

def TextSlide.fieldNames : List String := ["title", "body", "metaSong"]

def TextSlide.ofFields (f : Fields) : Option TextSlide := do
  return {
    title := ← f.optional "title" .text
    body := ← f.required "body" .text
    song := ← f.optional "metaSong" SongSource.decoder }

def TextSlide.decoder : Decoder TextSlide := fun a n =>
  (Fields.record fieldNames 2 a n).bind ofFields

/-- The fields of a picture or document on its own, all of them written. -/
def MediaSlide.fields (m : MediaSlide) : List (String × Value) :=
  [("mediaPath", .text m.path), ("mediaType", m.type.toJson), ("title", .ofOption .text m.title)]

def MediaSlide.toJson (m : MediaSlide) : Value := .object m.fields

def MediaSlide.fieldNames : List String := ["title", "mediaPath", "mediaType"]

def MediaSlide.ofFields (f : Fields) : Option MediaSlide := do
  return {
    title := ← f.optional "title" .text
    path := ← f.required "mediaPath" .text
    type := ← f.required "mediaType" MediaType.decoder }

def MediaSlide.decoder : Decoder MediaSlide := fun a n =>
  (Fields.record fieldNames 3 a n).bind ofFields

inductive Content.Kind where
  | empty
  | text
  | media

def Content.kinds : List (String × Content.Kind) :=
  [("EMPTY", .empty), ("TEXT", .text), ("MEDIA", .media)]

/-- What a screen shows. Absent parts of a slide are left out. -/
def Content.toJson : Content → Value
  | empty => .object [("kind", .text "EMPTY")]
  | text t =>
    .object ([("body", .text t.body), ("kind", .text "TEXT")] ++
      Value.present "metaSong" SongSource.toJson t.song ++ Value.present "title" .text t.title)
  | media m =>
    .object ([("kind", .text "MEDIA"), ("mediaPath", .text m.path),
      ("mediaType", m.type.toJson)] ++ Value.present "title" .text m.title)

def Content.decoder : Decoder Content := fun a n => do
  match ← Fields.tagged "kind" Content.kinds a n with
  | (.empty, rest) =>
    rest.noFields
    return .empty
  | (.text, rest) => return .text (← rest.decode TextSlide.decoder)
  | (.media, rest) => return .media (← rest.decode MediaSlide.decoder)

def Patch.toJson (p : Patch) : Value :=
  .object [
    ("background", .ofOption .text p.background),
    ("current", .ofOption Content.toJson p.content),
    ("foreground", .ofOption .text p.foreground),
    ("lowerThirdEnabled", .ofOption .bool p.lowerThird),
    ("mode", .ofOption Mode.toJson p.mode),
    ("textScale", .ofOption .ofBinary64 p.textScale),
    ("transitionEnabled", .ofOption .bool p.transition)]

def Patch.decoder : Decoder Patch := fun a n => do
  let f ← Fields.record ["mode", "lowerThirdEnabled", "transitionEnabled", "textScale",
    "background", "foreground", "current"] 0 a n
  return {
    mode := ← f.optional "mode" Mode.decoder
    lowerThird := ← f.optional "lowerThirdEnabled" .bool
    transition := ← f.optional "transitionEnabled" .bool
    textScale := ← f.optional "textScale" .float
    background := ← f.optional "background" .text
    foreground := ← f.optional "foreground" .text
    content := ← f.optional "current" Content.decoder }

def Appearance.fields (p : Appearance) : List (String × Value) :=
  [("background", .ofOption .text p.background), ("foreground", .ofOption .text p.foreground),
    ("textScale", .ofOption .ofBinary64 p.textScale)]

def Appearance.toJson (p : Appearance) : Value := .object p.fields

def Appearance.fieldNames : List String := ["textScale", "background", "foreground"]

def Appearance.ofFields (f : Fields) : Option Appearance := do
  return {
    textScale := ← f.optional "textScale" .float
    background := ← f.optional "background" .text
    foreground := ← f.optional "foreground" .text }

def Appearance.decoder : Decoder Appearance := fun a n =>
  (Fields.record fieldNames 0 a n).bind ofFields

def Screen.toJson (s : Screen) : Value :=
  .object [
    ("background", .text s.display.background),
    ("current", s.display.content.toJson),
    ("foreground", .text s.display.foreground),
    ("lowerThirdEnabled", .bool s.display.lowerThird),
    ("mode", s.display.mode.toJson),
    ("textScale", .ofBinary64 s.display.textScale),
    ("transitionEnabled", .bool s.display.transition),
    ("updatedAt", .int s.updatedAt)]

def Screen.decoder : Decoder Screen := fun a n => do
  let f ← Fields.record ["mode", "lowerThirdEnabled", "transitionEnabled", "textScale",
    "background", "foreground", "current", "updatedAt"] 8 a n
  let display : Display := {
    mode := ← f.required "mode" Mode.decoder
    lowerThird := ← f.required "lowerThirdEnabled" .bool
    transition := ← f.required "transitionEnabled" .bool
    textScale := ← f.required "textScale" .float
    background := ← f.required "background" .text
    foreground := ← f.required "foreground" .text
    content := ← f.required "current" Content.decoder }
  return ⟨display, ← f.required "updatedAt" .int64⟩

end Projection

inductive Link.Kind where
  | free
  | mirror

def Link.kinds : List (String × Link.Kind) := [("FREE", .free), ("MIRROR", .mirror)]

def Link.toJson : Link → Value
  | free => .object [("kind", .text "FREE")]
  | mirror source => .object [("from", source.toJson), ("kind", .text "MIRROR")]

def Link.decoder : Decoder Link := fun a n => do
  match ← Fields.tagged "kind" Link.kinds a n with
  | (.free, rest) =>
    rest.noFields
    return .free
  | (.mirror, rest) =>
    let f ← rest.decode (Fields.record ["from"] 1)
    return .mirror (← f.required "from" Surface.decoder)

def Reason.names : List (String × Reason) := [("LOCKED", .locked), ("MIRROR", .mirror)]

def Reason.toJson : Reason → Value
  | locked => .text "LOCKED"
  | mirror => .text "MIRROR"

def Reason.decoder : Decoder Reason := .choice Reason.names

def Outcome.toJson (o : Outcome) : Value :=
  .object ([("ok", .bool o.ok)] ++ Value.present "reason" Reason.toJson o.reason ++
    Value.present "state" Projection.Screen.toJson o.screen ++
    Value.present "surface" Surface.toJson o.surface)

def Outcome.decoder : Decoder Outcome := fun a n => do
  let f ← Fields.record ["ok", "reason", "surface", "state"] 1 a n
  return {
    ok := ← f.required "ok" .bool
    reason := ← f.optional "reason" Reason.decoder
    surface := ← f.optional "surface" Surface.decoder
    screen := ← f.optional "state" Projection.Screen.decoder }

def SurfaceInfo.toJson (i : SurfaceInfo) : Value :=
  .object [("isOpen", .bool i.isOpen), ("key", i.surface.toJson), ("mirror", i.link.toJson)]

def SurfaceInfo.decoder : Decoder SurfaceInfo := fun a n => do
  let f ← Fields.record ["key", "isOpen", "mirror"] 3 a n
  return {
    surface := ← f.required "key" Surface.decoder
    isOpen := ← f.required "isOpen" .bool
    link := ← f.required "mirror" Link.decoder }

end Lectern
