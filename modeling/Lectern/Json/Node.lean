import Lectern.Json.Value
import Lectern.Number.Stepwise

/-!
# The syntax of a JSON document

Reading a document checks its grammar and keeps everything that decides what a decoder may
make of it: fields in their order, also repeated ones, numerals before they are rounded,
and texts whose escapes name no character. A part that nobody looks at needs only to be
well formed; a part that is looked at has to be readable, which `Node.value?` says.
-/

namespace Lectern
namespace Json

/-- The digits of a numeral before the point and behind it, and its exponent. -/
structure Numeral where
  negative : Bool
  whole : List Char
  fraction : List Char
  exponent : Option Int

/-- A text is none when one of its escapes is half of a surrogate pair. -/
inductive Node where
  | null
  | bool (b : Bool)
  | number (n : Numeral)
  | text (s : Option String)
  | list (items : List Node)
  | object (fields : List (Option String × Node))

namespace Numeral

/-- All digits as one number. -/
def digits (n : Numeral) : Nat := Nat.ofDigitChars 10 (n.whole ++ n.fraction) 0

/-- The power of ten that `digits` is multiplied by. -/
def scale (n : Numeral) : Int := n.exponent.getD 0 - n.fraction.length

/-- Written without a point and without an exponent. -/
def isWhole (n : Numeral) : Bool := n.fraction.isEmpty && n.exponent.isNone

/-- Whole numerals are integers while they fit sixty-four bits, signed or unsigned. All
others are doubles, rounded step by step, as is negative zero, and those too large for a
double have no value. -/
def value? (n : Numeral) : Option Value :=
  if n.isWhole && !n.negative && n.digits < UInt64.size then some (.int n.digits)
  else if n.isWhole && n.negative && 0 < n.digits && n.digits ≤ 1 <<< 63 then some (.int (-n.digits))
  else
    let x := Binary64.ofDigits n.negative n.whole n.fraction (n.exponent.getD 0)
    if x.isFinite then some (.float x) else none

end Numeral

namespace Node

/-- The value of a node whose lists and objects are nested at most `depth` deep. -/
def value? : Nat → Node → Option Value
  | _, null => some .null
  | _, bool b => some (.bool b)
  | _, number n => n.value?
  | _, text s => s.map .text
  | 0, list _ => none
  | 0, object _ => none
  | depth + 1, list items => (items.mapM (value? depth)).map .list
  | depth + 1, object fields =>
    (fields.mapM fun (field : Option String × Node) => do
      let key ← field.1
      let value ← value? depth field.2
      return (key, value)).map Value.ofFields

/-- The field of an object; the last one of its name counts. -/
def field? (name : String) : Node → Option Node
  | object fields => (fields.reverse.find? fun field => field.1 == some name).map Prod.snd
  | _ => none

def isSpace (c : Char) : Bool := c == ' ' || c == '\t' || c == '\n' || c == '\r'

def skipSpace (cs : List Char) : List Char := cs.dropWhile isSpace

def digitsValue (ds : List Char) : Nat := Nat.ofDigitChars 10 ds 0

/-- One or more digits. -/
def readDigits (cs : List Char) : Option (List Char × List Char) :=
  match cs.takeWhile Char.isDigit with
  | [] => none
  | ds => some (ds, cs.dropWhile Char.isDigit)

/-- The digits before the point: a zero stands alone. -/
def readWhole : List Char → Option (List Char × List Char)
  | '0' :: rest => some (['0'], rest)
  | cs => readDigits cs

def readFraction : List Char → Option (List Char × List Char)
  | '.' :: rest => readDigits rest
  | cs => some ([], cs)

def readExponent (cs : List Char) : Option (Option Int × List Char) :=
  match cs with
  | c :: rest =>
    if c = 'e' ∨ c = 'E' then
      match rest with
      | '-' :: rest => (readDigits rest).map fun (ds, rest) => (some (-digitsValue ds), rest)
      | '+' :: rest => (readDigits rest).map fun (ds, rest) => (some (digitsValue ds), rest)
      | rest => (readDigits rest).map fun (ds, rest) => (some (digitsValue ds), rest)
    else some (none, cs)
  | [] => some (none, [])

def readUnsigned (negative : Bool) (cs : List Char) : Option (Numeral × List Char) := do
  let (whole, cs) ← readWhole cs
  let (fraction, cs) ← readFraction cs
  let (exponent, cs) ← readExponent cs
  return ({ negative, whole, fraction, exponent }, cs)

def readNumber : List Char → Option (Numeral × List Char)
  | '-' :: rest => readUnsigned true rest
  | cs => readUnsigned false cs

def hexValue? (c : Char) : Option Nat :=
  if '0' ≤ c && c ≤ '9' then some (c.toNat - 48)
  else if 'a' ≤ c && c ≤ 'f' then some (c.toNat - 87)
  else if 'A' ≤ c && c ≤ 'F' then some (c.toNat - 55)
  else none

/-- Four hexadecimal digits. -/
def readUnit : List Char → Option (Nat × List Char)
  | a :: b :: c :: d :: rest => do
    let a ← hexValue? a
    let b ← hexValue? b
    let c ← hexValue? c
    let d ← hexValue? d
    return (((a * 16 + b) * 16 + c) * 16 + d, rest)
  | _ => none

/-- The character of a code unit, or of the pair that it opens with the escape behind it. -/
def readPair (unit : Nat) (cs : List Char) : Option Char × List Char :=
  if unit < 0xd800 ∨ 0xe000 ≤ unit then (some (Char.ofNat unit), cs)
  else if 0xdc00 ≤ unit then (none, cs)
  else
    match cs with
    | '\\' :: 'u' :: more =>
      match readUnit more with
      | some (low, rest) =>
        if 0xdc00 ≤ low ∧ low < 0xe000 then
          (some (Char.ofNat (0x10000 + (unit - 0xd800) * 0x400 + (low - 0xdc00))), rest)
        else (none, cs)
      | none => (none, cs)
    | _ => (none, cs)

/-- The character that an escape stands for, after its backslash. -/
def readEscape : List Char → Option (Option Char × List Char)
  | '"' :: rest => some (some '"', rest)
  | '\\' :: rest => some (some '\\', rest)
  | '/' :: rest => some (some '/', rest)
  | 'b' :: rest => some (some '\x08', rest)
  | 'f' :: rest => some (some '\x0c', rest)
  | 'n' :: rest => some (some '\n', rest)
  | 'r' :: rest => some (some '\r', rest)
  | 't' :: rest => some (some '\t', rest)
  | 'u' :: rest => (readUnit rest).map fun (unit, rest) => readPair unit rest
  | _ => none

/-- The rest of a text after its opening quote; `done` holds the characters read so far, the
last one first. -/
def readText : Nat → Option (List Char) → List Char → Option (Option String × List Char)
  | 0, _, _ => none
  | _ + 1, _, [] => none
  | fuel + 1, done, c :: rest =>
    if c = '"' then some (done.map fun cs => String.ofList cs.reverse, rest)
    else if c = '\\' then
      match readEscape rest with
      | none => none
      | some (none, rest) => readText fuel none rest
      | some (some e, rest) => readText fuel (done.map (e :: ·)) rest
    else if c.toNat < 0x20 then none
    else readText fuel (done.map (c :: ·)) rest

mutual

/-- A value and what follows it. Each step uses up a character, so the length of the document
is fuel enough. -/
def readNode : Nat → List Char → Option (Node × List Char)
  | 0, _ => none
  | fuel + 1, cs =>
    match skipSpace cs with
    | 'n' :: 'u' :: 'l' :: 'l' :: rest => some (null, rest)
    | 't' :: 'r' :: 'u' :: 'e' :: rest => some (bool true, rest)
    | 'f' :: 'a' :: 'l' :: 's' :: 'e' :: rest => some (bool false, rest)
    | '"' :: rest => (readText fuel (some []) rest).map fun (s, rest) => (text s, rest)
    | '[' :: rest =>
      match skipSpace rest with
      | ']' :: rest => some (list [], rest)
      | rest => (readItems fuel rest).map fun (items, rest) => (list items, rest)
    | '\x7b' :: rest =>
      match skipSpace rest with
      | '\x7d' :: rest => some (object [], rest)
      | rest => (readFields fuel rest).map fun (fields, rest) => (object fields, rest)
    | cs => (readNumber cs).map fun (n, rest) => (number n, rest)

def readItems : Nat → List Char → Option (List Node × List Char)
  | 0, _ => none
  | fuel + 1, cs =>
    match readNode fuel cs with
    | none => none
    | some (item, rest) =>
      match skipSpace rest with
      | ']' :: rest => some ([item], rest)
      | ',' :: rest => (readItems fuel rest).map fun (items, rest) => (item :: items, rest)
      | _ => none

def readFields : Nat → List Char → Option (List (Option String × Node) × List Char)
  | 0, _ => none
  | fuel + 1, cs =>
    match skipSpace cs with
    | '"' :: rest =>
      match readText fuel (some []) rest with
      | none => none
      | some (key, rest) =>
        match skipSpace rest with
        | ':' :: rest =>
          match readNode fuel rest with
          | none => none
          | some (node, rest) =>
            match skipSpace rest with
            | '\x7d' :: rest => some ([(key, node)], rest)
            | ',' :: rest =>
              (readFields fuel rest).map fun (fields, rest) => ((key, node) :: fields, rest)
            | _ => none
        | _ => none
    | _ => none

end

/-- The node of a whole document. -/
def read? (cs : List Char) : Option Node :=
  match readNode (cs.length + 1) cs with
  | some (node, rest) => if (skipSpace rest).isEmpty then some node else none
  | none => none

end Node

/-- How deep the lists and objects of a document may be nested. -/
def maxDepth : Nat := 127

/-- The value that a text is the document of. -/
def Value.read? (cs : List Char) : Option Value := (Node.read? cs).bind (Node.value? maxDepth)

end Json
end Lectern
