import Lectern.Plan
import Mathlib.Data.Int.Order.Basic
import Mathlib.Data.List.Basic
import Mathlib.Order.Lattice
import Mathlib.Tactic.Set

/-!
# Sorting by a key

A list is in stable order when its entries stand in the order of their keys and those of
equal key as they stood before. The items of a plan are gone through in this order. When all
keys are in a range of numbers, the list is put together of the entries of each number.
-/

namespace Lectern

variable {α β : Type} [LinearOrder β]

/-- `sorted` are the entries of `items` by their keys, those of equal key as they stood. -/
structure StableOrder (key : α → β) (items sorted : List α) : Prop where
  perm : sorted.Perm items
  ordered : sorted.Pairwise fun x y => key x ≤ key y
  stable : ∀ k, sorted.filter (fun x => key x = k) = items.filter fun x => key x = k

theorem stableOrder_mergeSort (key : α → β) (items : List α) :
    StableOrder key items (items.mergeSort fun x y => decide (key x ≤ key y)) := by
  set le : α → α → Bool := fun x y => decide (key x ≤ key y) with hle
  have trans : ∀ x y z, le x y → le y z → le x z := by
    intro x y z hxy hyz
    simp only [hle, decide_eq_true_eq] at hxy hyz ⊢
    exact le_trans hxy hyz
  have total : ∀ x y, le x y || le y x := by
    intro x y
    simpa [hle] using le_total (key x) (key y)
  have perm : (items.mergeSort le).Perm items := List.mergeSort_perm items le
  refine ⟨perm, ?_, fun k => ?_⟩
  · simpa [hle] using List.pairwise_mergeSort trans total items
  · -- entries of one key are sorted as they stand, and the sorted list keeps sorted sublists
    have hpairwise : (items.filter fun x => key x = k).Pairwise fun x y => le x y := by
      refine List.pairwise_of_forall_mem_list fun x hx y hy => ?_
      simp only [List.mem_filter, decide_eq_true_eq] at hx hy
      simp [hle, hx.2, hy.2]
    have hsub := List.sublist_mergeSort trans total hpairwise List.filter_sublist
    have hfilter := hsub.filter fun x => key x = k
    rw [List.filter_filter] at hfilter
    have hlength := (perm.filter fun x => key x = k).length_eq
    exact (List.Sublist.eq_of_length (by simpa using hfilter) hlength.symm).symm

section Ranges

variable {key : α → Nat} {items sorted : List α}

/-- In a list in order, the entries of the least key come first. -/
theorem eq_filter_append (ordered : sorted.Pairwise fun x y => key x ≤ key y) {k : Nat}
    (least : ∀ x ∈ sorted, k ≤ key x) :
    sorted = sorted.filter (fun x => key x = k) ++ sorted.filter fun x => k < key x := by
  induction sorted with
  | nil => rfl
  | cons x xs ih =>
    obtain ⟨hx, hxs⟩ := List.pairwise_cons.mp ordered
    have hleast : ∀ y ∈ xs, k ≤ key y := fun y hy => least y (List.mem_cons_of_mem x hy)
    by_cases hk : key x = k
    · simp [hk, ← ih hxs hleast]
    · have hlt : ∀ y ∈ x :: xs, k < key y := by
        have hxk : k < key x := lt_of_le_of_ne (least x List.mem_cons_self) (Ne.symm hk)
        intro y hy
        rcases List.mem_cons.mp hy with rfl | hy
        · exact hxk
        · exact lt_of_lt_of_le hxk (hx y hy)
      have hnone : (x :: xs).filter (fun y => key y = k) = [] := by
        rw [List.filter_eq_nil_iff]
        intro y hy
        simpa using (hlt y hy).ne'
      have hall : (x :: xs).filter (fun y => k < key y) = x :: xs := by
        rw [List.filter_eq_self]
        intro y hy
        simpa using hlt y hy
      rw [hnone, hall, List.nil_append]

/-- A list in order is put together of its entries of each key, one key after another. -/
theorem eq_flatMap_filter (ordered : sorted.Pairwise fun x y => key x ≤ key y) {first count : Nat}
    (within : ∀ x ∈ sorted, first ≤ key x ∧ key x < first + count) :
    sorted = (List.range' first count).flatMap fun k => sorted.filter fun x => key x = k := by
  induction count generalizing first sorted with
  | zero =>
    refine List.eq_nil_iff_forall_not_mem.mpr ?_
    intro x hx
    obtain ⟨least, greatest⟩ := within x hx
    omega
  | succ count ih =>
    have hwithin : ∀ x ∈ sorted.filter (fun x => first < key x),
        first + 1 ≤ key x ∧ key x < first + 1 + count := by
      intro x hx
      obtain ⟨hx, hlt⟩ := List.mem_filter.mp hx
      obtain ⟨-, greatest⟩ := within x hx
      simp only [decide_eq_true_eq] at hlt
      omega
    have hlater : ∀ k ∈ List.range' (first + 1) count,
        (sorted.filter fun x => first < key x).filter (fun x => key x = k) =
          sorted.filter fun x => key x = k := by
      intro k hk
      have hlt : first < k := (List.mem_range'_1.mp hk).1
      rw [List.filter_filter]
      refine List.filter_congr ?_
      intro x _
      by_cases hx : key x = k
      · simp [hx, hlt]
      · simp [hx]
    calc sorted
        = sorted.filter (fun x => key x = first) ++ sorted.filter fun x => first < key x :=
          eq_filter_append ordered fun x hx => (within x hx).1
      _ = sorted.filter (fun x => key x = first) ++
            (List.range' (first + 1) count).flatMap fun k => sorted.filter fun x => key x = k := by
          rw [ih (ordered.sublist List.filter_sublist) hwithin, List.flatMap_congr hlater]
      _ = (List.range' first (count + 1)).flatMap fun k => sorted.filter fun x => key x = k := by
          rw [List.range'_succ, List.flatMap_cons]

/-- Sorting goes through the keys of a range one after another. -/
theorem StableOrder.eq_flatMap (h : StableOrder key items sorted) {first count : Nat}
    (within : ∀ x ∈ items, first ≤ key x ∧ key x < first + count) :
    sorted = (List.range' first count).flatMap fun k => items.filter fun x => key x = k := by
  have hwithin : ∀ x ∈ sorted, first ≤ key x ∧ key x < first + count := fun x hx =>
    within x (h.perm.mem_iff.mp hx)
  simpa only [h.stable] using eq_flatMap_filter h.ordered hwithin

end Ranges

theorem Plan.stableOrder_ordered (plan : Plan) :
    StableOrder Plan.Item.order plan.items plan.ordered :=
  stableOrder_mergeSort Plan.Item.order plan.items

theorem Plan.length_ordered (plan : Plan) : plan.ordered.length = plan.items.length :=
  plan.stableOrder_ordered.perm.length_eq

end Lectern
