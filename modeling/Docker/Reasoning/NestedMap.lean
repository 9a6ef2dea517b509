import Mathlib
import Docker.Reasoning.AListCount

/-!
# NestedMap — maps of maps, as Go writes them

A Go `map[A]map[B]C` is an association list of association lists.  Go code writes such a map in
three ways: `ensure` (read `m[a]`, and make and store an empty inner map when it is missing),
`set` (`m[a][b] = c`, making `m[a]` first) and `remove` (`delete(m[a], b)`, then delete `m[a]` as
soon as it is empty).  `find` reads `m[a][b]`.

Each write changes `find` at one point only (`find_set`, `find_remove`), and both keep the
invariant that no inner map is empty (`NoEmpty`).
-/

namespace Reasoning.NestedMap

abbrev NMap (α β γ : Type) [DecidableEq α] [DecidableEq β] :=
  AList (fun _ : α => AList (fun _ : β => γ))

variable {α β γ : Type} [DecidableEq α] [DecidableEq β]

/-- `m[a][b]`. -/
def find (m : NMap α β γ) (a : α) (b : β) : Option γ :=
  (m.lookup a).bind fun inner => inner.lookup b

/-- `m[a]`, with an empty inner map made and stored when it is missing. -/
def ensure (m : NMap α β γ) (a : α) : AList (fun _ : β => γ) × NMap α β γ :=
  match m.lookup a with
  | some inner => (inner, m)
  | none => (∅, m.insert a ∅)

/-- `m[a][b] = c`, making `m[a]` first when it is missing. -/
def set (m : NMap α β γ) (a : α) (b : β) (c : γ) : NMap α β γ :=
  m.insert a (((m.lookup a).getD ∅).insert b c)

/-- `delete(m[a], b)`, and then `delete(m, a)` when that left `m[a]` empty. -/
def remove (m : NMap α β γ) (a : α) (b : β) : NMap α β γ :=
  match m.lookup a with
  | none => m
  | some inner => if (inner.erase b).entries = [] then m.erase a else m.insert a (inner.erase b)

/-- No inner map is empty. -/
def NoEmpty (m : NMap α β γ) : Prop :=
  ∀ a inner, m.lookup a = some inner → inner.entries ≠ []

variable {m : NMap α β γ} {a a' : α} {b b' : β} {c : γ} {inner : AList (fun _ : β => γ)}

theorem find_eq_none_of_lookup (h : m.lookup a = none) (b : β) : find m a b = none := by
  rw [find, h, Option.bind_none]

theorem find_of_lookup (h : m.lookup a = some inner) (b : β) : find m a b = inner.lookup b := by
  rw [find, h, Option.bind_some]

theorem ensure_snd_of_lookup (h : m.lookup a = some inner) : (ensure m a).2 = m := by
  rw [ensure, h]

theorem lookup_ensure_fst (m : NMap α β γ) (a : α) (b : β) :
    (ensure m a).1.lookup b = find m a b := by
  unfold ensure find
  split <;> rename_i h <;> rw [h]
  · rfl
  · rw [AList.lookup_empty, Option.bind_none]

/-- `ensure` stores nothing when the inner map it gives back already holds a key. -/
theorem ensure_snd_of_lookup_fst (h : (ensure m a).1.lookup b = some c) : (ensure m a).2 = m := by
  rw [lookup_ensure_fst, find] at h
  cases hl : m.lookup a with
  | none => rw [hl, Option.bind_none] at h; cases h
  | some inner => exact ensure_snd_of_lookup hl

/-- Storing into `m[a]` after `ensure` is `set`: the empty map `ensure` stored is overwritten. -/
theorem insert_ensure (m : NMap α β γ) (a : α) (b : β) (c : γ) :
    (ensure m a).2.insert a ((ensure m a).1.insert b c) = set m a b c := by
  unfold ensure set
  split <;> rename_i h
  · rw [h]
    rfl
  · rw [h, AList.insert_insert]
    rfl

theorem find_set (m : NMap α β γ) (a a' : α) (b b' : β) (c : γ) :
    find (set m a b c) a' b' = if a' = a ∧ b' = b then some c else find m a' b' := by
  unfold set find
  rw [AList.lookup_insert_ite]
  by_cases ha : a' = a
  · subst ha
    rw [if_pos rfl, Option.bind_some, AList.lookup_insert_ite]
    by_cases hb : b' = b
    · rw [if_pos hb, if_pos ⟨rfl, hb⟩]
    · rw [if_neg hb, if_neg fun h => hb h.2]
      cases m.lookup a' with
      | none => rw [Option.getD_none, AList.lookup_empty, Option.bind_none]
      | some inner => rfl
  · rw [if_neg ha, if_neg fun h => ha h.1]

theorem find_remove (m : NMap α β γ) (a a' : α) (b b' : β) :
    find (remove m a b) a' b' = if a' = a ∧ b' = b then none else find m a' b' := by
  unfold remove
  cases h : m.lookup a with
  | none =>
    split_ifs with hab
    · rw [hab.1, find_eq_none_of_lookup h]
    · rfl
  | some inner =>
    -- what is left of `m[a]` answers every key of `m[a]` but `b`
    have hleft : (inner.erase b).lookup b' = if b' = b then none else find m a b' := by
      rw [AList.lookup_erase_ite, find_of_lookup h]
    dsimp only
    split_ifs with hempty hab hab
    · rw [hab.1, find, AList.lookup_erase, Option.bind_none]
    · rw [find, AList.lookup_erase_ite]
      split_ifs with ha
      · subst ha
        have hb : b' ≠ b := fun hb => hab ⟨rfl, hb⟩
        rw [Option.bind_none, ← AList.lookup_of_entries_eq_nil hempty b', hleft, if_neg hb]
      · rfl
    · rw [hab.1, find_of_lookup (AList.lookup_insert _), AList.lookup_erase_ite, if_pos hab.2]
    · rw [find, AList.lookup_insert_ite]
      split_ifs with ha
      · subst ha
        have hb : b' ≠ b := fun hb => hab ⟨rfl, hb⟩
        rw [Option.bind_some, hleft, if_neg hb]
      · rfl

theorem NoEmpty.set (hm : NoEmpty m) (a : α) (b : β) (c : γ) : NoEmpty (set m a b c) := by
  intro a' inner' h
  rw [NestedMap.set, AList.lookup_insert_ite] at h
  split_ifs at h
  · rw [← Option.some.inj h]
    exact AList.entries_insert_ne_nil _ _ _
  · exact hm a' inner' h

theorem NoEmpty.remove (hm : NoEmpty m) (a : α) (b : β) : NoEmpty (remove m a b) := by
  intro a' inner' h
  unfold NestedMap.remove at h
  split at h
  · exact hm a' inner' h
  · split_ifs at h with hempty
    · rw [AList.lookup_erase_ite] at h
      split_ifs at h
      exact hm a' inner' h
    · rw [AList.lookup_insert_ite] at h
      split_ifs at h
      · rw [← Option.some.inj h]
        exact hempty
      · exact hm a' inner' h

theorem noEmpty_empty : NoEmpty (∅ : NMap α β γ) := by
  intro a inner h
  rw [AList.lookup_empty] at h
  cases h

end Reasoning.NestedMap
