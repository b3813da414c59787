import Lectern.Number.Binary64

/-!
# The shortest decimal of a double

Every finite double is an exact decimal. Its digits are cut after one, two, three digits
and so on; the first cut or its upper neighbour that reads back as the double is taken, of
two the nearer one, and of two equally near the even one. The whole decimal reads back, so
the search ends.
-/

namespace Lectern
namespace Binary64

/-- The exact value of a finite magnitude as digits and a power of ten. -/
def exactDecimal (magnitude : Nat) : Nat × Int :=
  let m := significand magnitude
  let q := exponent magnitude
  if 0 ≤ q then (m <<< q.toNat, 0) else (m * Nat.pow 5 (-q).toNat, q)

/-- The decimal with the digits `cut` or `cut + 1` at `scale` that reads back, if one does;
`rest` out of `unit` is what the cut leaves off. -/
def nearestCut (magnitude cut : Nat) (scale : Int) (rest unit : Nat) : Option Nat :=
  let down := decimalMagnitude cut scale == magnitude
  let up := decimalMagnitude (cut + 1) scale == magnitude
  if down && up then
    some (if unit < 2 * rest || (unit == 2 * rest && cut % 2 == 1) then cut + 1 else cut)
  else if down then some cut
  else if up then some (cut + 1)
  else none

/-- Trailing zeros move into the power of ten. -/
def stripZeros : Nat → Nat → Int → Nat × Int
  | 0, digits, scale => (digits, scale)
  | fuel + 1, digits, scale =>
    if digits ≠ 0 ∧ digits % 10 = 0 then stripZeros fuel (digits / 10) (scale + 1)
    else (digits, scale)

/-- The fewest digits that read back as the magnitude, with their power of ten. -/
def shortest (magnitude : Nat) : Nat × Int :=
  let (digits, scale) := exactDecimal magnitude
  let count := (Nat.toDigits 10 digits).length
  let found := (List.range count).findSome? fun i =>
    let unit := Nat.pow 10 (count - (i + 1))
    let scale := scale + (count - (i + 1) : Nat)
    (nearestCut magnitude (digits / unit) scale (digits % unit) unit).map (·, scale)
  let (digits, scale) := found.getD (digits, scale)
  stripZeros (Nat.toDigits 10 digits).length digits scale

/-- A number is written positionally while its leading digit stands between the fifth place
after the point and the sixteenth before it, always with a point; otherwise with the point
after the leading digit, when more digits follow, and an exponent with its sign. -/
def layout (digits : Nat) (scale : Int) : List Char :=
  let ds := Nat.toDigits 10 digits
  let point : Int := ds.length + scale
  if 0 ≤ scale ∧ point ≤ 16 then
    ds ++ List.replicate scale.toNat '0' ++ ['.', '0']
  else if 0 < point ∧ point ≤ 16 then
    ds.take point.toNat ++ '.' :: ds.drop point.toNat
  else if -5 < point ∧ point ≤ 0 then
    '0' :: '.' :: (List.replicate (-point).toNat '0' ++ ds)
  else
    let e := point - 1
    let exponent := (if e < 0 then '-' else '+') :: Nat.toDigits 10 e.natAbs
    match ds with
    | [d] => d :: 'e' :: exponent
    | d :: more => d :: '.' :: (more ++ 'e' :: exponent)
    | [] => 'e' :: exponent

/-- The text of a finite double. -/
def chars (x : Binary64) : List Char :=
  let sign := if x.negative then ['-'] else []
  if x.magnitude = 0 then sign ++ ['0', '.', '0']
  else
    let (digits, scale) := shortest x.magnitude
    sign ++ layout digits scale

end Binary64
end Lectern
