import Lectern.Text.Blank

/-!
# Bible references

A reference names a book, a chapter and possibly a range of verses. Its text is the book, a
space, and `chapter`, `chapter:verse` or `chapter:first-last`.
-/

namespace Lectern
namespace Scripture

structure Verse where
  book : String
  chapter : Nat
  number : Nat
  text : String
deriving DecidableEq

structure Reference where
  book : String
  chapter : Nat
  verses : Option (Nat × Nat)
deriving DecidableEq

/-- The parts before and after the first `c`. -/
def splitFirst (c : Char) (cs : List Char) : Option (List Char × List Char) :=
  match cs.dropWhile (· != c) with
  | [] => none
  | _ :: after => some (cs.takeWhile (· != c), after)

/-- The parts before and after the last `c`. -/
def splitLast (c : Char) (cs : List Char) : Option (List Char × List Char) :=
  (splitFirst c cs.reverse).map fun (after, before) => (before.reverse, after.reverse)

/-- The value of a numeral of thirty-two bits. One plus sign may stand in front. -/
def numeral? (cs : List Char) : Option Nat :=
  let ds := match cs with
    | '+' :: rest => rest
    | _ => cs
  let n := Nat.ofDigitChars 10 ds 0
  if !ds.isEmpty && ds.all Char.isDigit && n < UInt32.size then some n else none

/-- One verse or a range of verses that does not run backwards. -/
def range? (cs : List Char) : Option (Nat × Nat) := do
  match splitFirst '-' cs with
  | some (first, last) =>
    let first ← numeral? (Text.trimChars first)
    let last ← numeral? (Text.trimChars last)
    if last < first then none else return (first, last)
  | none =>
    let verse ← numeral? (Text.trimChars cs)
    return (verse, verse)

/-- A chapter, or a chapter and its verses behind the first colon. -/
def location? (cs : List Char) : Option (Nat × Option (Nat × Nat)) := do
  match splitFirst ':' cs with
  | none => return (← numeral? cs, none)
  | some (chapter, range) => return (← numeral? chapter, some (← range? range))

namespace Reference

/-- The last space of the trimmed text parts the book from the location. -/
def parse? (s : String) : Option Reference := do
  let (book, location) ← splitLast ' ' (Text.trimChars s.toList)
  let book := Text.trimChars book
  let location := Text.trimChars location
  if book.isEmpty || location.isEmpty then none
  else
    let (chapter, verses) ← location? location
    return ⟨String.ofList book, chapter, verses⟩

/-- The shortest text of a reference. -/
def print (r : Reference) : String :=
  let verses := match r.verses with
    | none => []
    | some (first, last) =>
      ':' :: Nat.toDigits 10 first ++
        if first = last then [] else '-' :: Nat.toDigits 10 last
  String.ofList (r.book.toList ++ ' ' :: Nat.toDigits 10 r.chapter ++ verses)

end Reference

/-- Books are the same up to the case of ASCII letters. -/
def sameBook (s t : String) : Bool := s.toList.map Char.toLower == t.toList.map Char.toLower

def Reference.contains (r : Reference) (v : Verse) : Bool :=
  sameBook v.book r.book && v.chapter == r.chapter &&
    match r.verses with
    | none => true
    | some (first, last) => first ≤ v.number && v.number ≤ last

end Scripture
end Lectern
