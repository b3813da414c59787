import Lectern.Number.Binary64

/-!
# TOML values

A document is a table. While it is read, a table remembers how it came about: by its own
header, only as part of a longer header, or through a dotted key. A table has one header at
most, dotted keys extend only tables made by dotted keys, and the headers of an array of
tables each begin a new table at its end.
-/

namespace Lectern
namespace Toml

inductive Value where
  | text (s : String)
  | int (n : Int)
  | float (x : Binary64)
  | bool (b : Bool)
  | date (text : String)
  | list (items : List Value)
  | table (entries : List (String × Value))

namespace Value

/-- The entry of a table; nothing else has entries. -/
def field? (key : String) : Value → Option Value
  | table entries => entries.lookup key
  | _ => none

def text? : Value → Option String
  | text s => some s
  | _ => none

/-- Integers count as numbers. -/
def number? : Value → Option Binary64
  | float x => some x
  | int n => some (Binary64.ofInt n)
  | _ => none

end Value

/-- How a table came about. -/
inductive Origin where
  | header
  | implied
  | dotted
deriving DecidableEq

/-- An entry of a table that is still being read. -/
inductive Entry where
  | value (v : Value)
  | table (origin : Origin) (entries : List (String × Entry))
  | tables (each : List (List (String × Entry)))

abbrev Entries := List (String × Entry)

namespace Entries

def replace (key : String) (e : Entry) (entries : Entries) : Entries :=
  entries.map fun entry => if entry.1 == key then (key, e) else entry

/-- Changes the table at a path, making the tables on the way that are not there. Of an array
of tables the last one is meant. -/
def change (viaDots : Bool) (f : Origin → Entries → Option Entries) :
    List String → Origin → Entries → Option Entries
  | [], origin, entries => f origin entries
  | key :: path, _, entries =>
    match entries.lookup key with
    | none => do
      let origin := if viaDots then .dotted else .implied
      let inner ← change viaDots f path origin []
      return entries ++ [(key, .table origin inner)]
    | some (.value _) => none
    | some (.tables each) => do
      let inner ← change viaDots f path .header (each.getLast?.getD [])
      return replace key (.tables (each.dropLast ++ [inner])) entries
    | some (.table origin inner) =>
      if viaDots && origin == .header then none
      else do
        let inner ← change viaDots f path origin inner
        return replace key (.table origin inner) entries

/-- Adds a value under a key that is not taken. Behind dots only a table made by dots takes
new values. -/
def addValue (path : List String) (key : String) (v : Value) (origin : Origin)
    (entries : Entries) : Option Entries :=
  change true
    (fun origin entries =>
      if (origin == .dotted) == path.isEmpty then none
      else if (entries.lookup key).isSome then none
      else some (entries ++ [(key, .value v)]))
    path origin entries

/-- Gives a table its header. It stands where its header does, behind the tables so far. -/
def openTable (key : String) (entries : Entries) : Option Entries :=
  match entries.lookup key with
  | none => some (entries ++ [(key, .table .header [])])
  | some (.table .implied inner) =>
    some (entries.filter (fun entry => entry.1 != key) ++ [(key, .table .header inner)])
  | some _ => none

/-- Begins a new table of an array of tables. -/
def openTables (key : String) (entries : Entries) : Option Entries :=
  match entries.lookup key with
  | none => some (entries ++ [(key, .tables [[]])])
  | some (.tables each) => some (replace key (.tables (each ++ [[]])) entries)
  | some _ => none

end Entries

mutual

/-- What has been read, without the marks. -/
def Entry.toValue : Entry → Value
  | .value v => v
  | .table _ entries => .table (Entry.toValues entries)
  | .tables each => .list (Entry.toTables each)

def Entry.toValues : List (String × Entry) → List (String × Value)
  | [] => []
  | (key, e) :: rest => (key, e.toValue) :: Entry.toValues rest

def Entry.toTables : List (List (String × Entry)) → List Value
  | [] => []
  | entries :: rest => .table (Entry.toValues entries) :: Entry.toTables rest

end

end Toml
end Lectern
