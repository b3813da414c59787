import Lectern.Failure
import Lectern.Scripture.Reference

/-!
# Looking verses up

A dataset answers a reference with the verses it contains, in the order of their numbers;
equal numbers keep the order of the dataset.
-/

namespace Lectern

open Scripture

/-- A source of verses. A lookup finds verses, finds nothing, or fails. -/
structure Bible where
  lookup : String → Except Failure (Option (List Verse))

namespace Scripture

def sortVerses (vs : List Verse) : List Verse :=
  vs.mergeSort fun v w => decide (v.number ≤ w.number)

def lookup? (dataset : List Verse) (text : String) : Option (List Verse) := do
  let r ← Reference.parse? text
  match sortVerses (dataset.filter r.contains) with
  | [] => none
  | found => return found

end Scripture

def Bible.ofDataset (dataset : List Verse) : Bible where
  lookup text := .ok (lookup? dataset text)

end Lectern
