import Lectern.Directories
import Lectern.Failure
import Lectern.Projection.Patch
import Lectern.Toml.Document

/-!
# Configuration

A configuration is read as it stands: an entry that is missing or of another type is empty,
and a missing text scale is zero. Empty paths are filled in later, from the data directory,
and empty colours leave the initial screen as it is.
-/

namespace Lectern

open Projection

structure Config where
  socket : String
  library : String
  bible : String
  logs : String
  background : String
  foreground : String
  textScale : Binary64
deriving DecidableEq

namespace Config

def empty : Config := ⟨"", "", "", "", "", "", .zero⟩

def ofToml (v : Toml.Value) : Config :=
  let entry := fun (table key : String) => (v.field? table).bind fun s => s.field? key
  let text := fun (table key : String) => ((entry table key).bind Toml.Value.text?).getD ""
  { socket := text "ipc" "socket_path"
    library := text "library" "path"
    bible := text "bible" "dataset_path"
    logs := text "logging" "dir"
    background := text "appearance" "background"
    foreground := text "appearance" "foreground"
    textScale := ((entry "appearance" "text_scale").bind Toml.Value.number?).getD .zero }

/-- All files below one directory. -/
def below (dataDirectory : String) : Config :=
  { empty with
    library := Directories.join dataDirectory "library.json"
    bible := Directories.join dataDirectory "bible.json"
    logs := Directories.join dataDirectory "logs" }

/-- The paths of the files, where they are empty, are taken from `defaults`. -/
def fillPaths (c defaults : Config) : Config :=
  let orDefault := fun (path default : String) => if path.isEmpty then default else path
  { c with
    library := orDefault c.library defaults.library
    bible := orDefault c.bible defaults.bible
    logs := orDefault c.logs defaults.logs }

/-- Reads the file that stands at `path`. -/
def ofFile (path : String) : File → Except Failure Config
  | .text s =>
    match Toml.read? s.toList with
    | some v => .ok (ofToml v)
    | none => .error (.of "Failed to parse config as TOML")
  | .missing | .unreadable => .error (.of ("Failed to read config file: " ++ path))

/-- The configuration to run with. A file that is asked for must load; the usual one need
not be there. -/
def resolve (files : String → File) (asked : Option String) (usual dataDirectory : String) :
    Except Failure Config :=
  let defaults := below dataDirectory
  let filled := fun (path : String) => (ofFile path (files path)).map fun c => c.fillPaths defaults
  match asked with
  | some path => filled path
  | none =>
    match files usual with
    | .missing => .ok defaults
    | _ => filled usual

/-- What every surface displays at first. -/
def display (c : Config) : Display :=
  Appearance.apply
    { textScale := if c.textScale.isPositive then some c.textScale else none
      background := Text.content? c.background
      foreground := Text.content? c.foreground }
    .default

end Config
end Lectern
