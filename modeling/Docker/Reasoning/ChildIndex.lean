import Mathlib

/-!
# ChildIndex — a children index kept beside a parent map

A store that records each entry's parent, and beside it the set of each entry's children, must
keep the two in step.  `IsIndex` says the children of an entry are exactly the entries whose parent
it is, and that a parent that is set has an entry.  Three updates keep it:
- adding an entry with no parent (`IsIndex.add`);
- moving an entry under a new parent, taking it out of the old parent's children first
  (`IsIndex.link`);
- removing an entry after clearing its children's parents and taking it out of its own parent's
  children (`IsIndex.remove`).
-/

namespace Reasoning.ChildIndex

open Function

variable {α : Type*} [DecidableEq α]

/-! ## 1. Updates of the children sets -/

/-- Take `x` out of the children of `p`, if `p` has an entry. -/
def eraseChild (index : α → Option (Finset α)) (p x : α) : α → Option (Finset α) :=
  update index p ((index p).map fun s => s.erase x)

/-- Put `x` into the children of `p`, if `p` has an entry. -/
def insertChild (index : α → Option (Finset α)) (p x : α) : α → Option (Finset α) :=
  update index p ((index p).map fun s => insert x s)

/-- Take `x` out of the children of its parent, if it has one. -/
def detach (index : α → Option (Finset α)) (parent : α → Option α) (x : α) :
    α → Option (Finset α) :=
  match parent x with
  | some p => eraseChild index p x
  | none => index

/-- Clear the parent of every entry of `s`. -/
def clearParents (parent : α → Option α) (s : Finset α) : α → Option α :=
  fun z => if z ∈ s then none else parent z

@[simp] theorem isSome_eraseChild (index : α → Option (Finset α)) (p x z : α) :
    (eraseChild index p x z).isSome = (index z).isSome := by
  unfold eraseChild
  by_cases hz : z = p
  · subst hz
    simp
  · rw [update_of_ne hz]

@[simp] theorem isSome_insertChild (index : α → Option (Finset α)) (p x z : α) :
    (insertChild index p x z).isSome = (index z).isSome := by
  unfold insertChild
  by_cases hz : z = p
  · subst hz
    simp
  · rw [update_of_ne hz]

@[simp] theorem isSome_detach (index : α → Option (Finset α)) (parent : α → Option α) (x z : α) :
    (detach index parent x z).isSome = (index z).isSome := by
  cases hq : parent x <;> simp [detach, hq]

/-- Membership in a children set after `eraseChild`. -/
theorem mem_eraseChild {index : α → Option (Finset α)} {p x y : α} {s : Finset α}
    (h : eraseChild index p x y = some s) :
    ∃ t, index y = some t ∧ ∀ z, z ∈ s ↔ z ∈ t ∧ (y = p → z ≠ x) := by
  unfold eraseChild at h
  by_cases hy : y = p
  · subst hy
    rw [update_self] at h
    obtain ⟨t, ht, rfl⟩ := Option.map_eq_some_iff.mp h
    exact ⟨t, ht, fun z => by simp [and_comm]⟩
  · rw [update_of_ne hy] at h
    exact ⟨s, h, fun z => by simp [hy]⟩

/-- Membership in a children set after `insertChild`. -/
theorem mem_insertChild {index : α → Option (Finset α)} {p x y : α} {s : Finset α}
    (h : insertChild index p x y = some s) :
    ∃ t, index y = some t ∧ ∀ z, z ∈ s ↔ z ∈ t ∨ (y = p ∧ z = x) := by
  unfold insertChild at h
  by_cases hy : y = p
  · subst hy
    rw [update_self] at h
    obtain ⟨t, ht, rfl⟩ := Option.map_eq_some_iff.mp h
    exact ⟨t, ht, fun z => by simp [or_comm]⟩
  · rw [update_of_ne hy] at h
    exact ⟨s, h, fun z => by simp [hy]⟩

/-- Membership in a children set after `detach`. -/
theorem mem_detach {index : α → Option (Finset α)} {parent : α → Option α} {x y : α}
    {s : Finset α} (h : detach index parent x y = some s) :
    ∃ t, index y = some t ∧ ∀ z, z ∈ s ↔ z ∈ t ∧ (parent x = some y → z ≠ x) := by
  cases hq : parent x with
  | none =>
    rw [detach, hq] at h
    exact ⟨s, h, fun z => by simp⟩
  | some q =>
    rw [detach, hq] at h
    obtain ⟨t, ht, hmem⟩ := mem_eraseChild h
    exact ⟨t, ht, fun z => by rw [hmem z, Option.some.injEq, eq_comm]⟩

/-! ## 2. The index invariant -/

/-- The children of an entry are exactly the entries whose parent it is, and every parent that is
set has an entry. -/
structure IsIndex (index : α → Option (Finset α)) (parent : α → Option α) : Prop where
  children : ∀ y s, index y = some s → ∀ x, x ∈ s ↔ (index x).isSome ∧ parent x = some y
  closed : ∀ x p, (index x).isSome → parent x = some p → (index p).isSome

omit [DecidableEq α] in
theorem isIndex_empty (parent : α → Option α) : IsIndex (fun _ => none) parent :=
  ⟨fun _ _ h => by simp at h, fun _ _ h => by simp at h⟩

variable {index : α → Option (Finset α)} {parent : α → Option α}

/-- Adding an entry with no parent and no children. -/
theorem IsIndex.add (h : IsIndex index parent) {x : α} (hx : index x = none)
    (hp : parent x = none) : IsIndex (update index x (some ∅)) parent := by
  -- nothing had `x` as its parent: that parent would have had an entry
  have hnone : ∀ z, (index z).isSome → parent z ≠ some x := fun z hz hzx => by
    simpa [hx] using h.closed z x hz hzx
  constructor
  · intro y s hy z
    by_cases hyx : y = x
    · subst hyx
      rw [update_self, Option.some.injEq] at hy
      subst hy
      by_cases hzy : z = y
      · simp [hzy, hp]
      · simp only [Finset.notMem_empty, false_iff, not_and, update_of_ne hzy]
        exact hnone z
    · rw [update_of_ne hyx] at hy
      rw [h.children y s hy z]
      by_cases hzx : z = x
      · subst hzx
        simp [hx, hp]
      · rw [update_of_ne hzx]
  · intro z q hz hzq
    by_cases hqx : q = x
    · simp [hqx]
    · by_cases hzx : z = x
      · subst hzx
        simp [hp] at hzq
      · rw [update_of_ne hzx] at hz
        rw [update_of_ne hqx]
        exact h.closed z q hz hzq

/-- Moving the entry `x` under the entry `p`. -/
theorem IsIndex.link (h : IsIndex index parent) {x p : α} (hx : (index x).isSome)
    (hp : (index p).isSome) :
    IsIndex (insertChild (detach index parent x) p x) (update parent x (some p)) := by
  constructor
  · intro y s hy z
    obtain ⟨t, ht, hmem⟩ := mem_insertChild hy
    obtain ⟨u, hu, hw⟩ := mem_detach ht
    rw [hmem z, hw z, h.children y u hu z, isSome_insertChild, isSome_detach]
    by_cases hzx : z = x
    · rw [hzx, update_self, Option.some.injEq]
      constructor
      · rintro (⟨⟨-, hxy⟩, hne⟩ | ⟨hyp, -⟩)
        · exact absurd rfl (hne hxy)
        · exact ⟨hx, hyp.symm⟩
      · rintro ⟨-, hpy⟩
        exact .inr ⟨hpy.symm, rfl⟩
    · rw [update_of_ne hzx]
      simp [hzx]
  · intro z q hz hzq
    rw [isSome_insertChild, isSome_detach] at hz ⊢
    by_cases hzx : z = x
    · subst hzx
      rw [update_self, Option.some.injEq] at hzq
      rw [← hzq]
      exact hp
    · rw [update_of_ne hzx] at hzq
      exact h.closed z q hz hzq

/-- Removing the entry `x`: its children lose their parent, it leaves its own parent's children,
and its entry and parent go. -/
theorem IsIndex.remove (h : IsIndex index parent) {x : α} {s : Finset α} (hx : index x = some s) :
    IsIndex (update (detach index (clearParents parent s) x) x none)
      (update (clearParents parent s) x none) := by
  constructor
  · intro y t hy z
    by_cases hyx : y = x
    · subst hyx
      simp at hy
    rw [update_of_ne hyx] at hy
    obtain ⟨u, hu, hw⟩ := mem_detach hy
    rw [hw z, h.children y u hu z]
    by_cases hzx : z = x
    · rw [hzx]
      constructor
      · rintro ⟨⟨-, hxy⟩, hne⟩
        -- the parent of `x` was `y ≠ x`, so `x` was no child of itself and kept its parent
        have hxs : x ∉ s := fun hxs =>
          hyx (Option.some.inj (((h.children x s hx x).mp hxs).2.symm.trans hxy)).symm
        exact absurd rfl (hne (by rw [clearParents, if_neg hxs]; exact hxy))
      · rintro ⟨hsome, -⟩
        simp at hsome
    · have hcz : clearParents parent s z = if z ∈ s then none else parent z := rfl
      rw [update_of_ne hzx, update_of_ne hzx, isSome_detach, hcz]
      by_cases hzs : z ∈ s
      · -- a child of `x` had `x` as its parent, not `y`
        have hzp := ((h.children x s hx z).mp hzs).2
        rw [if_pos hzs]
        constructor
        · rintro ⟨⟨-, hzy⟩, -⟩
          rw [hzp, Option.some.injEq] at hzy
          exact absurd hzy.symm hyx
        · rintro ⟨-, hnone⟩
          simp at hnone
      · rw [if_neg hzs]
        simp [hzx]
  · intro z q hz hzq
    by_cases hzx : z = x
    · subst hzx
      simp at hz
    rw [update_of_ne hzx, isSome_detach] at hz
    rw [update_of_ne hzx, clearParents] at hzq
    by_cases hzs : z ∈ s
    · rw [if_pos hzs] at hzq
      simp at hzq
    · rw [if_neg hzs] at hzq
      by_cases hqx : q = x
      · subst hqx
        exact absurd ((h.children q s hx z).mpr ⟨hz, hzq⟩) hzs
      · rw [update_of_ne hqx, isSome_detach]
        exact h.closed z q hz hzq

end Reasoning.ChildIndex
