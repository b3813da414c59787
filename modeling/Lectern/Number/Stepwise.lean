import Lectern.Number.Binary64

/-!
# Decimals rounded step by step

The double nearest to a decimal takes arithmetic on long numbers. Rounding in steps avoids
them: as many leading digits as fit sixty-four bits are rounded to a double, which is then
multiplied or divided by a power of ten that is itself rounded. Each step goes to the
nearest double, the whole only nearly so, and the last bits may be others.
-/

namespace Lectern
namespace Binary64

/-- A finite magnitude as a quotient of naturals. -/
def ratio (magnitude : Nat) : Nat × Nat :=
  (significand magnitude <<< (exponent magnitude).toNat, 1 <<< (-exponent magnitude).toNat)

/-- The product of two finite magnitudes, rounded. -/
def product (x y : Nat) : Nat :=
  nearestMagnitude ((ratio x).1 * (ratio y).1) ((ratio x).2 * (ratio y).2)

/-- The quotient of two finite magnitudes, rounded. -/
def quotient (x y : Nat) : Nat :=
  nearestMagnitude ((ratio x).1 * (ratio y).2) ((ratio x).2 * (ratio y).1)

/-- The last power of ten below infinity. -/
def lastTens : Nat := 308

/-- The magnitude of a power of ten. -/
def tens (n : Nat) : Nat := nearestMagnitude (Nat.pow 10 n) 1

/-- The magnitude of `digits * 10 ^ scale`, where `digits` is below `2 ^ 64`. Division by
more than `lastTens` tens takes two steps, and by more than twice as many leaves nothing. -/
def stepwiseMagnitude (digits : Nat) (scale : Int) : Nat :=
  let m := nearestMagnitude digits 1
  let n := scale.natAbs
  if digits = 0 then 0
  else if 0 ≤ scale then if n ≤ lastTens then product m (tens n) else infinity
  else if n ≤ lastTens then quotient m (tens n)
  else if n ≤ 2 * lastTens then quotient (quotient m (tens lastTens)) (tens (n - lastTens))
  else 0

theorem stepwiseMagnitude_le (digits : Nat) (scale : Int) :
    stepwiseMagnitude digits scale ≤ infinity := by
  simp only [stepwiseMagnitude]
  repeat' split
  all_goals first
    | exact Nat.zero_le _
    | exact Nat.le_refl _
    | exact nearestMagnitude_le _ _

/-- Takes digits behind those of `kept` for as long as the number they make fits sixty-four
bits. The digits from the first that does not fit on are given back. -/
def keepDigits : Nat → List Char → Nat × List Char
  | kept, [] => (kept, [])
  | kept, c :: rest =>
    let more := 10 * kept + (c.toNat - 48)
    if more < UInt64.size then keepDigits more rest else (kept, c :: rest)

/-- The double of a decimal. Of the digits before the point and of those behind it only the
ones that are kept count; whatever is left of those before the point counts as zeros. -/
def ofDigits (negative : Bool) (whole fraction : List Char) (exponent : Int) : Binary64 :=
  let (kept, zeros) := keepDigits 0 whole
  let (kept, ignored) := keepDigits kept fraction
  let scale := exponent + zeros.length - (fraction.length - ignored.length : Nat)
  ⟨negative, stepwiseMagnitude kept scale,
    Nat.lt_of_le_of_lt (stepwiseMagnitude_le _ _) infinity_lt⟩

end Binary64
end Lectern
