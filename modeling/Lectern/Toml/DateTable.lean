import Lectern.Toml.Token

/-!
# Tables that stand for dates

A table whose first key is the mark of a date is the date that the text under the mark
tells, and its other entries do not count. A mark over anything but such a text refuses the
document.
-/

namespace Lectern
namespace Toml

def dateMark : String := "$__toml_private_datetime"

/-- A text that is a date and nothing else. -/
def isDateText (cs : List Char) : Bool := (date cs).any fun read => read.2.isEmpty

/-- The date that a value under the mark tells. -/
def Value.markedDate? : Value → Option Value
  | text s => if isDateText s.toList then some (date s) else none
  | _ => none

mutual

/-- A value with the dates that its tables stand for. -/
def Value.withDates? : Value → Option Value
  | .list items => (Value.eachWithDates? items).map .list
  | .table [] => some (.table [])
  | .table ((key, v) :: rest) =>
    if key = dateMark then v.markedDate?
    else
      match v.withDates?, Value.entriesWithDates? rest with
      | some v, some rest => some (.table ((key, v) :: rest))
      | _, _ => none
  | v => some v

def Value.eachWithDates? : List Value → Option (List Value)
  | [] => some []
  | v :: rest =>
    match v.withDates?, Value.eachWithDates? rest with
    | some v, some rest => some (v :: rest)
    | _, _ => none

def Value.entriesWithDates? : List (String × Value) → Option (List (String × Value))
  | [] => some []
  | (key, v) :: rest =>
    match v.withDates?, Value.entriesWithDates? rest with
    | some v, some rest => some ((key, v) :: rest)
    | _, _ => none

end

end Toml
end Lectern
