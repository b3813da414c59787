/-!
# Blank characters

The blank characters are the twenty-five characters of the White_Space property.
Trimming removes them at both ends of a text; a text of nothing else counts as no text.
-/

namespace Lectern
namespace Text

def isBlank (c : Char) : Bool :=
  let n := c.toNat
  (9 ≤ n && n ≤ 13) || n == 0x20 || n == 0x85 || n == 0xa0 || n == 0x1680 ||
    (0x2000 ≤ n && n ≤ 0x200a) || n == 0x2028 || n == 0x2029 || n == 0x202f || n == 0x205f ||
    n == 0x3000

/-- Removes the characters that satisfy `p` at both ends. -/
def strip (p : Char → Bool) (cs : List Char) : List Char :=
  ((cs.dropWhile p).reverse.dropWhile p).reverse

def trimChars (cs : List Char) : List Char := strip isBlank cs

def trim (s : String) : String := String.ofList (trimChars s.toList)

/-- The trimmed text, or none when nothing is left of it. -/
def content? (s : String) : Option String :=
  let t := trim s
  if t.isEmpty then none else some t

end Text
end Lectern
