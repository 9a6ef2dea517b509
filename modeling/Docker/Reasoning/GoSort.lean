import Mathlib

/-!
# GoSort — `sort.Sort` of Go 1.6 on short inputs

Below eight elements `sort.Sort` is insertion sort: element `i` is swapped to the left for as long
as it is `Less` than its left neighbour.  The sort only asks `Less`, so when `Less` is no strict
weak order what comes out depends on the order that went in.

A list in which no element is `Less` than its left neighbour comes out as it went in
(`insertionSort_eq_self`).  When `Less` compares keys of a linear order, the output is a permutation of the input sorted by
key (`pairwise_insertionSort`), and so its keys depend only on the multiset of keys that went in
(`map_insertionSort_eq_of_perm`).
-/

namespace Reasoning.GoSort

variable {α : Type*} (less : α → α → Bool)

/-- One round of the outer loop: `x` is swapped to the left through the sorted prefix, which is
held reversed (its last element first). -/
def insertLeft (x : α) : List α → List α
  | [] => [x]
  | y :: ys => if less x y then y :: insertLeft x ys else x :: y :: ys

/-- `insertionSort(data, 0, n)`. -/
def insertionSort (xs : List α) : List α :=
  (xs.foldl (fun acc x => insertLeft less x acc) []).reverse

theorem perm_insertLeft (x : α) (ys : List α) : (insertLeft less x ys).Perm (x :: ys) := by
  induction ys with
  | nil => rfl
  | cons y ys ih =>
    unfold insertLeft
    split
    · exact (ih.cons y).trans (List.Perm.swap x y ys)
    · rfl

theorem perm_foldl_insertLeft (xs acc : List α) :
    (xs.foldl (fun acc x => insertLeft less x acc) acc).Perm (xs.reverse ++ acc) := by
  induction xs generalizing acc with
  | nil => rfl
  | cons x xs ih =>
    rw [List.foldl_cons, List.reverse_cons, List.append_assoc, List.singleton_append]
    exact (ih _).trans ((perm_insertLeft less x acc).append_left _)

theorem perm_insertionSort (xs : List α) : (insertionSort less xs).Perm xs := by
  have h := perm_foldl_insertLeft less xs []
  rw [List.append_nil] at h
  exact (List.reverse_perm _).trans (h.trans (List.reverse_perm xs))

/-- The outer loop over a run in which no element is `Less` than its left neighbour swaps
nothing. -/
theorem foldl_insertLeft_of_chain (y : α) (acc xs : List α)
    (h : (y :: xs).IsChain fun a b => less b a = false) :
    xs.foldl (fun acc x => insertLeft less x acc) (y :: acc) = xs.reverse ++ y :: acc := by
  induction xs generalizing y acc with
  | nil => rfl
  | cons x xs ih =>
    obtain ⟨hxy, hchain⟩ := List.isChain_cons_cons.mp h
    have hstep : insertLeft less x (y :: acc) = x :: y :: acc := by
      rw [insertLeft, hxy, if_neg Bool.false_ne_true]
    rw [List.foldl_cons, hstep, ih x (y :: acc) hchain, List.reverse_cons, List.append_assoc,
      List.singleton_append]

/-- Insertion sort leaves a list alone when no element is `Less` than its left neighbour. -/
theorem insertionSort_eq_self {xs : List α} (h : xs.IsChain fun a b => less b a = false) :
    insertionSort less xs = xs := by
  cases xs with
  | nil => rfl
  | cons y xs =>
    unfold insertionSort
    rw [List.foldl_cons]
    change (xs.foldl (fun acc x => insertLeft less x acc) [y]).reverse = y :: xs
    rw [foldl_insertLeft_of_chain less y [] xs h, List.reverse_append, List.reverse_reverse]
    rfl

/-! ## Keys of a linear order -/

section Key

variable {β : Type*} [LinearOrder β] (key : α → β)

/-- The prefix, held reversed, stays sorted from its last element down. -/
theorem pairwise_insertLeft (hless : ∀ a b, less a b = true ↔ key a < key b) (x : α)
    {ys : List α} (hys : ys.Pairwise fun a b => key b ≤ key a) :
    (insertLeft less x ys).Pairwise fun a b => key b ≤ key a := by
  induction ys with
  | nil => exact List.pairwise_singleton _ x
  | cons y ys ih =>
    obtain ⟨hy, hys⟩ := List.pairwise_cons.mp hys
    unfold insertLeft
    split
    · rename_i hlt
      have hxy : key x < key y := (hless x y).mp hlt
      refine List.pairwise_cons.mpr ⟨fun z hz => ?_, ih hys⟩
      rcases List.mem_cons.mp ((perm_insertLeft less x ys).subset hz) with rfl | hz
      · exact hxy.le
      · exact hy z hz
    · rename_i hnlt
      have hyx : key y ≤ key x := not_lt.mp fun h => hnlt ((hless x y).mpr h)
      refine List.pairwise_cons.mpr ⟨fun z hz => ?_, List.pairwise_cons.mpr ⟨hy, hys⟩⟩
      rcases List.mem_cons.mp hz with rfl | hz
      · exact hyx
      · exact (hy z hz).trans hyx

theorem pairwise_insertionSort (hless : ∀ a b, less a b = true ↔ key a < key b) (xs : List α) :
    (insertionSort less xs).Pairwise fun a b => key a ≤ key b := by
  unfold insertionSort
  rw [List.pairwise_reverse]
  -- the prefix is sorted after every round of the outer loop
  suffices ∀ acc : List α, (acc.Pairwise fun a b => key b ≤ key a) →
      (xs.foldl (fun acc x => insertLeft less x acc) acc).Pairwise fun a b => key b ≤ key a from
    this [] List.Pairwise.nil
  induction xs with
  | nil => exact fun acc h => h
  | cons x xs ih => exact fun acc h => ih _ (pairwise_insertLeft less key hless x h)

/-- Sorting by key gives the keys in order, whatever order the input had. -/
theorem map_insertionSort_eq_of_perm (hless : ∀ a b, less a b = true ↔ key a < key b)
    {xs ys : List α} (h : (xs.map key).Perm (ys.map key)) :
    (insertionSort less xs).map key = (insertionSort less ys).map key := by
  have hxs := (perm_insertionSort less xs).map key
  have hys := (perm_insertionSort less ys).map key
  refine List.Perm.eq_of_pairwise' (r := (· ≤ ·)) ?_ ?_ (hxs.trans (h.trans hys.symm))
  · exact List.pairwise_map.mpr (pairwise_insertionSort less key hless xs)
  · exact List.pairwise_map.mpr (pairwise_insertionSort less key hless ys)

end Key

example : insertionSort (fun a b : Nat => decide (a < b)) [3, 1, 2] = [1, 2, 3] := by decide

end Reasoning.GoSort
