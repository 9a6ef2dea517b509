import Mathlib.Data.List.AList

/-!
# AListCount — counting over the entries of an association list

Go maps are modelled by `AList`s.  Invariants that count the entries with a property (how many
entries point at a given value) need to know how `countP` over the entries moves when a new key
is inserted, an existing key is replaced or erased, and which entries survive an erase.  For maps
with one value type, lookups after an insert or an erase are written as one `if`, and `values`
lists what `for _, v := range m` visits.
-/

namespace AList

variable {α : Type*} {β : α → Type*} [DecidableEq α] {s : AList β} {a : α} {b b' : β a}

theorem mem_entries_of_lookup (h : s.lookup a = some b) : ⟨a, b⟩ ∈ s.entries :=
  mem_lookup_iff.mp h

theorem lookup_of_mem_entries {x : Sigma β} (h : x ∈ s.entries) : s.lookup x.1 = some x.2 :=
  mem_lookup_iff.mpr h

/-- Inserting a key that is not there adds exactly one entry to every count. -/
theorem countP_entries_insert_of_notMem (p : Sigma β → Bool) (h : a ∉ s) :
    (s.insert a b).entries.countP p = s.entries.countP p + if p ⟨a, b⟩ then 1 else 0 := by
  rw [entries_insert_of_notMem h, List.countP_cons]

/-- Erasing a key takes its entry out of every count. -/
theorem countP_entries_erase (p : Sigma β → Bool) (h : s.lookup a = some b) :
    (s.erase a).entries.countP p + (if p ⟨a, b⟩ then 1 else 0) = s.entries.countP p := by
  have ha : a ∈ s.entries.keys := (mem_keys).mp (lookup_isSome.mp (by rw [h]; rfl))
  obtain ⟨b₀, l₁, l₂, -, hl, hk⟩ := List.exists_of_kerase ha
  have hmem : (⟨a, b₀⟩ : Sigma β) ∈ s.entries := by rw [hl]; simp
  have hb : b₀ = b := by
    have hlook := lookup_of_mem_entries hmem
    rw [h] at hlook
    exact (Option.some.inj hlook).symm
  subst hb
  change (s.entries.kerase a).countP p + _ = _
  rw [hk, hl, List.countP_append, List.countP_append, List.countP_cons]
  omega

/-- Replacing the value of a key by one the predicate cannot tell apart keeps every count. -/
theorem countP_entries_insert_of_lookup (p : Sigma β → Bool) (b' : β a) (h : s.lookup a = some b)
    (hp : p ⟨a, b'⟩ = p ⟨a, b⟩) : (s.insert a b').entries.countP p = s.entries.countP p := by
  rw [← countP_entries_erase p h, entries_insert, List.countP_cons, hp]
  rfl

/-! ## Maps with one value type -/

section Plain

variable {γ : Type*} {m : AList (fun _ : α => γ)}

theorem lookup_insert_ite (s : AList (fun _ : α => γ)) (a a' : α) (b : γ) :
    (s.insert a b).lookup a' = if a' = a then some b else s.lookup a' := by
  split_ifs with h
  · rw [h, lookup_insert]
  · rw [lookup_insert_ne h]

theorem lookup_erase_ite (s : AList (fun _ : α => γ)) (a a' : α) :
    (s.erase a).lookup a' = if a' = a then none else s.lookup a' := by
  split_ifs with h
  · rw [h, lookup_erase]
  · rw [lookup_erase_ne h]

theorem lookup_of_entries_eq_nil (h : m.entries = []) (a : α) : m.lookup a = none := by
  rw [lookup, h, List.dlookup_nil]

theorem entries_insert_ne_nil (s : AList (fun _ : α => γ)) (a : α) (b : γ) :
    (s.insert a b).entries ≠ [] := by
  rw [entries_insert]
  exact List.cons_ne_nil _ _

/-- The values of a map, as `for _, v := range m` visits them. -/
def values (s : AList (fun _ : α => γ)) : List γ :=
  s.entries.map Sigma.snd

theorem mem_values {v : γ} : v ∈ m.values ↔ ∃ a, m.lookup a = some v := by
  simp only [values, List.mem_map]
  constructor
  · rintro ⟨⟨a, w⟩, hw, rfl⟩
    exact ⟨a, mem_lookup_iff.mpr hw⟩
  · rintro ⟨a, ha⟩
    exact ⟨⟨a, v⟩, mem_lookup_iff.mp ha, rfl⟩

end Plain

end AList
