import Lectern.Number.Shortest

/-!
# JSON values and their compact text

A value is what a document means: objects hold each key once, in the order of their keys,
and whole numbers are kept apart from doubles. The compact text has no blanks between its
tokens and escapes only quotes, backslashes and controls.
-/

namespace Lectern
namespace Json

inductive Value where
  | null
  | bool (b : Bool)
  | int (n : Int)
  | float (x : Binary64)
  | text (s : String)
  | list (items : List Value)
  | object (fields : List (String × Value))

namespace Value

instance : Inhabited Value := ⟨null⟩

/-- The entries with `value` under `key`, in the order of the keys; an entry already there is
replaced. -/
def insertField (key : String) (value : Value) :
    List (String × Value) → List (String × Value)
  | [] => [(key, value)]
  | (k, v) :: rest =>
    if key < k then (key, value) :: (k, v) :: rest
    else if key = k then (key, value) :: rest
    else (k, v) :: insertField key value rest

/-- Of two fields with one key the later one counts. -/
def ofFields (fields : List (String × Value)) : Value :=
  .object (fields.foldl (fun done field => insertField field.1 field.2 done) [])

def field? (key : String) : Value → Option Value
  | object fields => fields.lookup key
  | _ => none

/-- The double as a number, or null when it is not finite. -/
def ofBinary64 (x : Binary64) : Value := if x.isFinite then .float x else .null

def ofOption (encode : α → Value) : Option α → Value
  | none => .null
  | some a => encode a

/-- An optional field that is left out when absent. -/
def present (key : String) (encode : α → Value) : Option α → List (String × Value)
  | none => []
  | some a => [(key, encode a)]

def escapeChar (c : Char) : List Char :=
  if c = '"' then ['\\', '"']
  else if c = '\\' then ['\\', '\\']
  else if c = '\x08' then ['\\', 'b']
  else if c = '\x0c' then ['\\', 'f']
  else if c = '\n' then ['\\', 'n']
  else if c = '\r' then ['\\', 'r']
  else if c = '\t' then ['\\', 't']
  else if c.toNat < 0x20 then
    ['\\', 'u', '0', '0', Nat.digitChar (c.toNat / 16), Nat.digitChar (c.toNat % 16)]
  else [c]

/-- The quoted text of `s` in front of `rest`. -/
def textOnto (s : String) (rest : List Char) : List Char :=
  '"' :: s.toList.foldr (fun c more => escapeChar c ++ more) ('"' :: rest)

def intChars (n : Int) : List Char :=
  (if n < 0 then ['-'] else []) ++ Nat.toDigits 10 n.natAbs

mutual

/-- The compact text of a value in front of `rest`. -/
def onto : Value → List Char → List Char
  | null, rest => 'n' :: 'u' :: 'l' :: 'l' :: rest
  | bool true, rest => 't' :: 'r' :: 'u' :: 'e' :: rest
  | bool false, rest => 'f' :: 'a' :: 'l' :: 's' :: 'e' :: rest
  | int n, rest => intChars n ++ rest
  | float x, rest => x.chars ++ rest
  | text s, rest => textOnto s rest
  | list items, rest => '[' :: itemsOnto items (']' :: rest)
  | object fields, rest => '\x7b' :: fieldsOnto fields ('\x7d' :: rest)

def itemsOnto : List Value → List Char → List Char
  | [], rest => rest
  | [v], rest => v.onto rest
  | v :: w :: more, rest => v.onto (',' :: itemsOnto (w :: more) rest)

def fieldsOnto : List (String × Value) → List Char → List Char
  | [], rest => rest
  | [(k, v)], rest => textOnto k (':' :: v.onto rest)
  | (k, v) :: w :: more, rest => textOnto k (':' :: v.onto (',' :: fieldsOnto (w :: more) rest))

end

def chars (v : Value) : List Char := v.onto []

def render (v : Value) : String := String.ofList v.chars

end Value
end Json
end Lectern
