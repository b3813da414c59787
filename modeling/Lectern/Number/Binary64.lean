/-!
# Double-precision numbers

A double is kept as its sign and the other sixty-three bits read as a number, its
magnitude. Finite doubles have the magnitudes below `infinity`; those above it are no
numbers. Rounding from a quotient of naturals is exact: to nearest, ties to even.
-/

namespace Lectern

structure Binary64 where
  negative : Bool
  magnitude : Nat
  magnitude_lt : magnitude < 1 <<< 63
deriving DecidableEq

namespace Binary64

/-- The magnitude whose exponent bits are all set and whose fraction bits are all clear. -/
def infinity : Nat := 2047 <<< 52

theorem infinity_lt : infinity < 1 <<< 63 := by decide

def zero : Binary64 := ⟨false, 0, by decide⟩

instance : Inhabited Binary64 := ⟨zero⟩

def isFinite (x : Binary64) : Bool := x.magnitude < infinity

def isNaN (x : Binary64) : Bool := infinity < x.magnitude

/-- The numbers agree: no NaN agrees with anything, and the two zeros agree. -/
def same (x y : Binary64) : Bool :=
  !x.isNaN && !y.isNaN &&
    x.magnitude == y.magnitude && (x.negative == y.negative || x.magnitude == 0)

def isPositive (x : Binary64) : Bool := !x.negative && x.magnitude != 0 && !x.isNaN

def bits (x : Binary64) : Nat := (if x.negative then 1 <<< 63 else 0) + x.magnitude

/-- A finite magnitude is `significand * 2 ^ exponent`. -/
def significand (magnitude : Nat) : Nat :=
  if magnitude >>> 52 = 0 then magnitude else (1 <<< 52) + magnitude % (1 <<< 52)

def exponent (magnitude : Nat) : Int :=
  if magnitude >>> 52 = 0 then -1074 else (magnitude >>> 52 : Nat) - 1075

/-- The quotient to the nearest integer, ties to even. -/
def roundDiv (n d : Nat) : Nat :=
  let q := n / d
  let r := n % d
  if d < 2 * r || (d == 2 * r && q % 2 == 1) then q + 1 else q

/-- The exponent at which the integer part of `num / den` has fifty-three bits, but not
below the least exponent of a double. -/
def scaleOf (num den : Nat) : Int :=
  let e : Int := Nat.log2 num - Nat.log2 den - 53
  let e := if den <<< (e.toNat + 53) ≤ num <<< (-e).toNat then e + 1 else e
  max e (-1074)

/-- The magnitude nearest to `num / den`. A carry out of the significand moves into the
exponent by itself, and past the largest double the magnitude is infinite. -/
def nearestMagnitude (num den : Nat) : Nat :=
  if num = 0 then 0
  else
    let e := scaleOf num den
    let q := roundDiv (num <<< (-e).toNat) (den <<< e.toNat)
    min (((e + 1074).toNat <<< 52) + q) infinity

theorem nearestMagnitude_le (num den : Nat) : nearestMagnitude num den ≤ infinity := by
  unfold nearestMagnitude
  split
  · exact Nat.zero_le _
  · exact Nat.min_le_right _ _

/-- The magnitude nearest to `digits * 10 ^ scale`. Scales far outside the range of a double
are settled without the power. -/
def decimalMagnitude (digits : Nat) (scale : Int) : Nat :=
  if digits = 0 then 0
  else if 400 < scale then infinity
  else if scale + Nat.log2 digits < -400 then 0
  else nearestMagnitude (digits * Nat.pow 10 scale.toNat) (Nat.pow 10 (-scale).toNat)

theorem decimalMagnitude_le (digits : Nat) (scale : Int) :
    decimalMagnitude digits scale ≤ infinity := by
  unfold decimalMagnitude
  repeat' split
  · exact Nat.zero_le _
  · exact Nat.le_refl _
  · exact Nat.zero_le _
  · exact nearestMagnitude_le _ _

def ofDecimal (negative : Bool) (digits : Nat) (scale : Int) : Binary64 :=
  ⟨negative, decimalMagnitude digits scale,
    Nat.lt_of_le_of_lt (decimalMagnitude_le _ _) infinity_lt⟩

def ofInt (n : Int) : Binary64 := ofDecimal (decide (n < 0)) n.natAbs 0

def one : Binary64 := ⟨false, 1023 <<< 52, by decide⟩

def infinite (negative : Bool) : Binary64 := ⟨negative, infinity, infinity_lt⟩

def nan : Binary64 := ⟨false, infinity + (1 <<< 51), by decide⟩

end Binary64
end Lectern
