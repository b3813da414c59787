import Lectern.Toml.Value

/-!
# TOML keys, texts, numbers and dates

Readers of the parts of a document that hold no other values. Each gives what it has read
and the characters behind it.
-/

namespace Lectern
namespace Toml

abbrev Reader (α : Type) := List Char → Option (α × List Char)

def isSpace (c : Char) : Bool := c == ' ' || c == '\t'

def skipSpace (cs : List Char) : List Char := cs.dropWhile isSpace

/-- A line ends with a line feed, also one behind a carriage return. -/
def newline? : List Char → Option (List Char)
  | '\n' :: rest => some rest
  | '\r' :: '\n' :: rest => some rest
  | _ => none

/-- Characters that may stand in texts and comments as themselves: no controls but the tab. -/
def isPlain (c : Char) : Bool := c == '\t' || (0x20 ≤ c.toNat && c.toNat != 0x7f)

def skipComment : List Char → List Char
  | '#' :: rest => rest.dropWhile isPlain
  | cs => cs

def digit? (base : Nat) (c : Char) : Option Nat :=
  let n := c.toNat
  let value :=
    if 48 ≤ n && n ≤ 57 then some (n - 48)
    else if 97 ≤ n && n ≤ 102 then some (n - 87)
    else if 65 ≤ n && n ≤ 70 then some (n - 55)
    else none
  value.filter (· < base)

/-- Digits, with single underscores between them. -/
def digits (base : Nat) : List Char → List Nat × List Char
  | '_' :: c :: rest =>
    match digit? base c with
    | some d =>
      let (ds, rest) := digits base rest
      (d :: ds, rest)
    | none => ([], '_' :: c :: rest)
  | c :: rest =>
    match digit? base c with
    | some d =>
      let (ds, rest) := digits base rest
      (d :: ds, rest)
    | none => ([], c :: rest)
  | [] => ([], [])

/-- At least one digit, and no underscore in front. -/
def someDigits (base : Nat) : Reader (List Nat) := fun cs =>
  match cs with
  | '_' :: _ => none
  | _ =>
    match digits base cs with
    | ([], _) => none
    | read => some read

def valueOf (base : Nat) (ds : List Nat) : Nat := ds.foldl (fun n d => base * n + d) 0

def int64? (n : Int) : Option Value :=
  if -(1 <<< 63 : Nat) ≤ n ∧ n < (1 <<< 63 : Nat) then some (.int n) else none

/-- The digits before a point or an exponent: no zero in front of others. -/
def wholeDigits : Reader (List Nat) := fun cs =>
  match cs with
  | '0' :: rest => some ([0], rest)
  | _ => someDigits 10 cs

def sign : List Char → Bool × List Char
  | '-' :: rest => (true, rest)
  | '+' :: rest => (false, rest)
  | cs => (false, cs)

def exponent? : Reader (Option Int) := fun cs =>
  match cs with
  | c :: rest =>
    if c == 'e' || c == 'E' then do
      let (negative, rest) := sign rest
      let (ds, rest) ← someDigits 10 rest
      let n : Int := valueOf 10 ds
      return (some (if negative then -n else n), rest)
    else some (none, cs)
  | [] => some (none, [])

def fraction? : Reader (Option (List Nat)) := fun cs =>
  match cs with
  | '.' :: rest => (someDigits 10 rest).map fun (ds, rest) => (some ds, rest)
  | _ => some (none, cs)

/-- A decimal integer or float. A positive float too large for a double is refused; a
negative one is infinite. -/
def decimal : Reader Value := fun cs => do
  let (negative, cs) := sign cs
  let (whole, cs) ← wholeDigits cs
  let (fraction, cs) ← fraction? cs
  let (exponent, cs) ← exponent? cs
  match fraction, exponent with
  | none, none =>
    let n : Int := valueOf 10 whole
    return (← int64? (if negative then -n else n), cs)
  | _, _ =>
    let ds := fraction.getD []
    let x := Binary64.ofDecimal negative (valueOf 10 (whole ++ ds)) (exponent.getD 0 - ds.length)
    if x.isFinite || negative then return (.float x, cs) else none

def radix (base : Nat) : Reader Value := fun cs => do
  let (ds, cs) ← someDigits base cs
  return (← int64? (valueOf base ds), cs)

def special (negative : Bool) : Reader Value := fun cs =>
  match cs with
  | 'i' :: 'n' :: 'f' :: rest => some (.float (.infinite negative), rest)
  | 'n' :: 'a' :: 'n' :: rest => some (.float .nan, rest)
  | _ => none

def number : Reader Value := fun cs =>
  match cs with
  | '0' :: 'x' :: rest => radix 16 rest
  | '0' :: 'o' :: rest => radix 8 rest
  | '0' :: 'b' :: rest => radix 2 rest
  | _ =>
    let (negative, rest) := sign cs
    match rest with
    | 'i' :: _ | 'n' :: _ => special negative rest
    | _ => decimal cs

/-- Exactly `count` decimal digits whose value lies between the bounds. -/
def fixed (count least greatest : Nat) : Reader Nat := fun cs =>
  match (cs.take count).mapM (digit? 10) with
  | some ds =>
    let n := valueOf 10 ds
    if ds.length = count ∧ least ≤ n ∧ n ≤ greatest then some (n, cs.drop count) else none
  | none => none

def char (c : Char) : Reader Unit := fun cs =>
  match cs with
  | d :: rest => if c = d then some ((), rest) else none
  | [] => none

def daysIn (year month : Nat) : Nat :=
  if month = 2 then
    if year % 4 = 0 ∧ (year % 100 ≠ 0 ∨ year % 400 = 0) then 29 else 28
  else if [4, 6, 9, 11].contains month then 30 else 31

def skipDay : List Char → Option (List Char) := fun cs => do
  let (year, cs) ← fixed 4 0 9999 cs
  let (_, cs) ← char '-' cs
  let (month, cs) ← fixed 2 1 12 cs
  let (_, cs) ← char '-' cs
  let (_, cs) ← fixed 2 1 (daysIn year month) cs
  return cs

def skipTime : List Char → Option (List Char) := fun cs => do
  let (_, cs) ← fixed 2 0 23 cs
  let (_, cs) ← char ':' cs
  let (_, cs) ← fixed 2 0 59 cs
  let (_, cs) ← char ':' cs
  let (_, cs) ← fixed 2 0 60 cs
  match cs with
  | '.' :: rest =>
    match rest.takeWhile fun c => (digit? 10 c).isSome with
    | [] => return cs
    | ds => return rest.drop ds.length
  | _ => return cs

/-- The offset behind a time, if one can be read. -/
def skipOffset (cs : List Char) : Option (List Char) :=
  match cs with
  | c :: rest =>
    if c == 'Z' || c == 'z' then some rest
    else if c == '+' || c == '-' then do
      let (_, rest) ← fixed 2 0 23 rest
      let (_, rest) ← char ':' rest
      let (_, rest) ← fixed 2 0 59 rest
      return rest
    else some cs
  | [] => some []

/-- A day, possibly with a time and an offset, or a time alone. -/
def date : Reader Value := fun cs => do
  let after ← match skipDay cs with
    | some rest =>
      match rest with
      | c :: more =>
        if c == 'T' || c == 't' || c == ' ' then
          match skipTime more with
          | some rest => skipOffset rest
          | none => some rest
        else some rest
      | [] => some []
    | none => skipTime cs
  return (.date (String.ofList (cs.take (cs.length - after.length))), after)

/-- A character given by its code point in hexadecimal. -/
def codePoint (count : Nat) : Reader Char := fun cs => do
  let ds ← (cs.take count).mapM (digit? 16)
  let n := valueOf 16 ds
  if ds.length = count ∧ n.isValidChar then return (Char.ofNat n, cs.drop count) else none

def escape : Reader Char := fun cs =>
  match cs with
  | 'b' :: rest => some ('\x08', rest)
  | 't' :: rest => some ('\t', rest)
  | 'n' :: rest => some ('\n', rest)
  | 'f' :: rest => some ('\x0c', rest)
  | 'r' :: rest => some ('\r', rest)
  | '"' :: rest => some ('"', rest)
  | '\\' :: rest => some ('\\', rest)
  | 'u' :: rest => codePoint 4 rest
  | 'U' :: rest => codePoint 8 rest
  | _ => none

/-- The rest of a text in double quotes; the characters so far are last first. -/
def basicText : Nat → List Char → Reader String
  | 0, _, _ => none
  | fuel + 1, done, cs =>
    match cs with
    | [] => none
    | '"' :: rest => some (String.ofList done.reverse, rest)
    | '\\' :: rest =>
      match escape rest with
      | some (c, rest) => basicText fuel (c :: done) rest
      | none => none
    | c :: rest => if isPlain c then basicText fuel (c :: done) rest else none

/-- A text in single quotes holds no escapes. -/
def literalText : Reader String := fun cs =>
  match cs.dropWhile fun c => isPlain c && c != '\'' with
  | '\'' :: rest =>
    some (String.ofList (cs.takeWhile fun c => isPlain c && c != '\''), rest)
  | _ => none

def skipBlankLines : List Char → List Char
  | ' ' :: rest | '\t' :: rest | '\n' :: rest => skipBlankLines rest
  | '\r' :: '\n' :: rest => skipBlankLines rest
  | cs => cs

/-- Behind a backslash at the end of a line, blanks and further line ends do not count. -/
def skipBreak (cs : List Char) : Option (List Char) :=
  (newline? (skipSpace cs)).map skipBlankLines

/-- The rest of a text between triple quotes of one kind. Up to two quotes may stand right
before the closing ones. Only in double quotes are there escapes. -/
def longText (quote : Char) : Nat → List Char → Reader String
  | 0, _, _ => none
  | fuel + 1, done, cs =>
    match newline? cs with
    | some rest => longText quote fuel ('\n' :: done) rest
    | none =>
      match cs with
      | [] => none
      | c :: rest =>
        if c = quote then
          let run := (cs.takeWhile (· == quote)).length
          if run < 3 then longText quote fuel (List.replicate run quote ++ done) (cs.drop run)
          else
            let inner := min run 5 - 3
            some (String.ofList (List.replicate inner quote ++ done).reverse,
              cs.drop (inner + 3))
        else if c = '\\' && quote == '"' then
          match skipBreak rest with
          | some rest => longText quote fuel done rest
          | none =>
            match escape rest with
            | some (c, rest) => longText quote fuel (c :: done) rest
            | none => none
        else if isPlain c then longText quote fuel (c :: done) rest
        else none

def text : Reader String := fun cs =>
  let long := fun (quote : Char) (rest : List Char) =>
    longText quote (rest.length + 1) [] ((newline? rest).getD rest)
  match cs with
  | '"' :: '"' :: '"' :: rest => long '"' rest
  | '\'' :: '\'' :: '\'' :: rest => long '\'' rest
  | '"' :: rest => basicText (rest.length + 1) [] rest
  | '\'' :: rest => literalText rest
  | _ => none

def isKeyChar (c : Char) : Bool := c.isAlphanum || c == '_' || c == '-'

def simpleKey : Reader String := fun cs =>
  match cs with
  | '"' :: rest => basicText (rest.length + 1) [] rest
  | '\'' :: rest => literalText rest
  | _ =>
    match cs.takeWhile isKeyChar with
    | [] => none
    | key => some (String.ofList key, cs.dropWhile isKeyChar)

/-- A key of parts between dots, with blanks around each part. -/
def dottedKey : Nat → Reader (List String)
  | 0, _ => none
  | fuel + 1, cs => do
    let (key, rest) ← simpleKey (skipSpace cs)
    match skipSpace rest with
    | '.' :: rest =>
      let (keys, rest) ← dottedKey fuel rest
      return (key :: keys, rest)
    | rest => return ([key], rest)

/-- How deep values may be nested, and how many parts a key may have. -/
def maxDepth : Nat := 79

def key : Reader (List String) := dottedKey maxDepth

end Toml
end Lectern
