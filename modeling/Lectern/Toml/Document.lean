import Lectern.Toml.DateTable

/-!
# TOML documents

A document is a sequence of lines: headers that say which table the following lines belong
to, and keys with their values. There are no half-read documents: anything out of place
refuses the whole.
-/

namespace Lectern
namespace Toml

/-- Skips blanks, line ends and comments inside an array. -/
def skipLines : Nat → List Char → List Char
  | 0, cs => cs
  | fuel + 1, cs =>
    match skipSpace cs with
    | '#' :: rest =>
      match newline? (skipComment ('#' :: rest)) with
      | some rest => skipLines fuel rest
      | none => '#' :: rest
    | cs =>
      match newline? cs with
      | some rest => skipLines fuel rest
      | none => cs

mutual

/-- A value whose arrays and inline tables are nested at most `depth` deep. Each step uses up
a character. -/
def readValue : Nat → Nat → Reader Value
  | 0, _, _ => none
  | fuel + 1, depth, cs =>
    match cs with
    | '"' :: _ | '\'' :: _ => (text cs).map fun (s, rest) => (.text s, rest)
    | '[' :: rest =>
      match depth with
      | 0 => none
      | depth + 1 => (readItems fuel depth rest).map fun (items, rest) => (.list items, rest)
    | '\x7b' :: rest =>
      match depth with
      | 0 => none
      | depth + 1 =>
        match skipSpace rest with
        | '\x7d' :: rest => some (.table [], rest)
        | rest => readPairs fuel depth [] rest
    | 't' :: 'r' :: 'u' :: 'e' :: rest => some (.bool true, rest)
    | 'f' :: 'a' :: 'l' :: 's' :: 'e' :: rest => some (.bool false, rest)
    | _ =>
      match date cs with
      | some read => some read
      | none => number cs

/-- The rest of an array; a comma may stand behind the last item. -/
def readItems : Nat → Nat → Reader (List Value)
  | 0, _, _ => none
  | fuel + 1, depth, cs =>
    match skipLines cs.length cs with
    | ']' :: rest => some ([], rest)
    | cs =>
      match readValue fuel depth cs with
      | none => none
      | some (v, rest) =>
        match skipLines rest.length rest with
        | ',' :: rest => (readItems fuel depth rest).map fun (vs, rest) => (v :: vs, rest)
        | ']' :: rest => some ([v], rest)
        | _ => none

/-- The rest of an inline table. -/
def readPairs : Nat → Nat → Entries → Reader Value
  | 0, _, _, _ => none
  | fuel + 1, depth, done, cs =>
    match key cs with
    | some (path, '=' :: rest) =>
      match readValue fuel depth (skipSpace rest) with
      | none => none
      | some (v, rest) =>
        match Entries.addValue path.dropLast (path.getLast?.getD "") v .header done with
        | none => none
        | some done =>
          match skipSpace rest with
          | ',' :: rest => readPairs fuel depth done rest
          | '\x7d' :: rest => some (.table (Entry.toValues done), rest)
          | _ => none
    | _ => none

end

/-- Nothing but blanks and a comment up to the end of the line or of the document. -/
def lineEnd? (cs : List Char) : Option (List Char) :=
  match skipComment (skipSpace cs) with
  | [] => some []
  | rest => newline? rest

/-- Where the lines belong: the path of the last header, and all that has been read. -/
structure Progress where
  path : List String
  entries : Entries

def Progress.header (p : Progress) (path : List String)
    (open? : String → Entries → Option Entries) : Option Progress := do
  let key := path.getLast?.getD ""
  let entries ← Entries.change false (fun _ entries => open? key entries) path.dropLast .header
    p.entries
  return ⟨path, entries⟩

def Progress.add (p : Progress) (path : List String) (v : Value) : Option Progress := do
  let key := path.getLast?.getD ""
  let entries ← Entries.change false (Entries.addValue path.dropLast key v) p.path .header
    p.entries
  return { p with entries }

/-- Reads one header or one key with its value. -/
def readLine (p : Progress) : Reader Progress := fun cs => do
  match cs with
  | '[' :: '[' :: rest =>
    match ← key rest with
    | (path, ']' :: ']' :: rest) => return (← p.header path Entries.openTables, rest)
    | _ => none
  | '[' :: rest =>
    match ← key rest with
    | (path, ']' :: rest) => return (← p.header path Entries.openTable, rest)
    | _ => none
  | _ =>
    match ← key cs with
    | (path, '=' :: rest) =>
      let (v, rest) ← readValue (rest.length + 1) maxDepth (skipSpace rest)
      return (← p.add path v, rest)
    | _ => none

def readLines : Nat → Progress → List Char → Option Entries
  | 0, _, _ => none
  | fuel + 1, p, cs =>
    match skipSpace cs with
    | [] => some p.entries
    | '#' :: rest => (lineEnd? ('#' :: rest)).bind (readLines fuel p)
    | cs =>
      match newline? cs with
      | some rest => readLines fuel p rest
      | none =>
        match readLine p cs with
        | none => none
        | some (p, rest) => (lineEnd? rest).bind (readLines fuel p)

/-- The table that a text is the document of. A byte order mark in front is passed over. -/
def read? (cs : List Char) : Option Value :=
  let cs := match cs with
    | '\ufeff' :: rest => rest
    | _ => cs
  (readLines (cs.length + 1) ⟨[], []⟩ cs).bind fun entries =>
    (Value.table (Entry.toValues entries)).withDates?

end Toml
end Lectern
