import Mathlib

/-!
# Lines — the complete lines of a list and its last `n` of them

Split at every separator, a list has one piece more than it has separators
(`length_splitOn`); all pieces but the last end in a separator, and these are its complete
lines (`completeLines`).  A separator between two lists splits them apart
(`splitOn_append_cons`), so the last `n` complete lines of a list are those of any suffix that
holds more than `n` separators (`lastLines_append`).
-/

namespace Reasoning.Lines

variable {α : Type*} [DecidableEq α] (sep : α)

/-- The segments before each `sep`: the complete lines. -/
def completeLines (d : List α) : List (List α) :=
  (d.splitOn sep).dropLast

/-- The last `n` complete lines, or all of them when there are fewer. -/
def lastLines (n : Nat) (d : List α) : List (List α) :=
  (completeLines sep d).drop ((completeLines sep d).length - n)

theorem splitOn_cons (x : α) (xs : List α) :
    (x :: xs).splitOn sep =
      if x = sep then [] :: xs.splitOn sep else (xs.splitOn sep).modifyHead (List.cons x) := by
  rw [List.splitOn, List.splitOnP_cons_eq_if_modifyHead]
  simp only [beq_iff_eq]
  rfl

theorem splitOn_ne_nil (xs : List α) : xs.splitOn sep ≠ [] :=
  List.splitOnP_ne_nil _ xs

theorem splitOn_append_cons (xs as : List α) :
    (xs ++ sep :: as).splitOn sep = xs.splitOn sep ++ as.splitOn sep := by
  induction xs with
  | nil => rw [List.nil_append, splitOn_cons, if_pos rfl, List.splitOn_nil]; rfl
  | cons x xs ih =>
    rw [List.cons_append, splitOn_cons, splitOn_cons, ih]
    split
    · rfl
    · -- the piece `x` joins is the first, which comes from `xs`
      obtain ⟨p, ps, hps⟩ := List.exists_cons_of_ne_nil (splitOn_ne_nil sep xs)
      rw [hps]
      rfl

theorem length_splitOn (d : List α) : (d.splitOn sep).length = d.count sep + 1 := by
  induction d with
  | nil => rfl
  | cons x xs ih =>
    rw [splitOn_cons, List.count_cons]
    by_cases hx : x = sep
    · rw [if_pos hx, if_pos (beq_iff_eq.mpr hx), List.length_cons, ih]
    · rw [if_neg hx, if_neg (fun h => hx (beq_iff_eq.mp h)), List.length_modifyHead, ih]

theorem length_completeLines (d : List α) : (completeLines sep d).length = d.count sep := by
  rw [completeLines, List.length_dropLast, length_splitOn, Nat.add_sub_cancel]

theorem completeLines_append_cons (xs as : List α) :
    completeLines sep (xs ++ sep :: as) = xs.splitOn sep ++ completeLines sep as := by
  rw [completeLines, completeLines, splitOn_append_cons,
    List.dropLast_append_of_ne_nil (splitOn_ne_nil sep as)]

/-- The slice a reader of lines takes of its pieces, `lines[len-n-1 : len-1]` or, with fewer
pieces, `lines[:len-1]`: the last `n` pieces but the last one. -/
theorem slice_eq_drop_dropLast {β : Type*} (l : List β) (n : Nat) :
    (if n < l.length then (l.drop (l.length - n - 1)).take n else l.take (l.length - 1)) =
      l.dropLast.drop (l.dropLast.length - n) := by
  rw [List.length_dropLast, List.dropLast_eq_take]
  split
  · rw [List.drop_take, show l.length - 1 - (l.length - 1 - n) = n by omega,
      show l.length - 1 - n = l.length - n - 1 by omega]
  · rw [show l.length - 1 - n = 0 by omega, List.drop_zero]

/-- A list with more than `n` separators has one, after which there are still `n`. -/
theorem exists_append_cons_count {n : Nat} :
    ∀ v : List α, n < v.count sep → ∃ v₁ v₂, v = v₁ ++ sep :: v₂ ∧ n ≤ v₂.count sep
  | [], h => absurd h (Nat.not_lt_zero n)
  | x :: v, h => by
    rw [List.count_cons] at h
    by_cases hx : x = sep
    · refine ⟨[], v, by rw [hx]; rfl, ?_⟩
      rw [if_pos (beq_iff_eq.mpr hx)] at h
      omega
    · rw [if_neg (fun h => hx (beq_iff_eq.mp h)), Nat.add_zero] at h
      obtain ⟨v₁, v₂, rfl, hv₂⟩ := exists_append_cons_count v h
      exact ⟨x :: v₁, v₂, rfl, hv₂⟩

/-- The last `n` complete lines of `u ++ v` are those of `v` when `v` has more than `n`
separators. -/
theorem lastLines_append {n : Nat} (u v : List α) (h : n < v.count sep) :
    lastLines sep n (u ++ v) = lastLines sep n v := by
  obtain ⟨v₁, v₂, rfl, hv₂⟩ := exists_append_cons_count sep v h
  have hn : n ≤ (completeLines sep v₂).length := by
    rw [length_completeLines]
    exact hv₂
  -- both end in the complete lines of `v₂`, of which there are at least `n`
  have hlast : ∀ p : List α, lastLines sep n (p ++ sep :: v₂) = lastLines sep n v₂ := by
    intro p
    rw [lastLines, lastLines, completeLines_append_cons, List.length_append, List.drop_append,
      List.drop_eq_nil_of_le (by omega), List.nil_append]
    congr 1
    omega
  rw [← List.append_assoc, hlast, hlast]

end Reasoning.Lines
