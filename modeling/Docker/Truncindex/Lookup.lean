import Docker.Truncindex.TruncIndex
import Mathlib.Data.List.Dedup

/-!
# Lookup — `Get` finds an id by any prefix that names it alone

Over every sequence of `Add` and `Delete` the two copies of the id set stay equal and hold only
ids `addID` accepts (`TruncIndex.Inv`).  The keys `VisitSubtree(s)` hands to `subTreeVisitFunc` are
then the stored ids with prefix `s`, each once, so `Get(s)` answers with the only such id, with
`ErrAmbiguousPrefix` when there are two or more, and with `ErrNotExist` when there is none.
-/

namespace Docker.Truncindex

variable {τ : Type} {trie : PatriciaTrie τ} {keys : τ → Finset (List Char)}

/-- The two copies of the id set agree, and every stored id is one `addID` accepts. -/
structure TruncIndex.Inv (keys : τ → Finset (List Char)) (idx : TruncIndex τ) : Prop where
  ids_eq : idx.ids = keys idx.trie
  valid : ∀ id ∈ idx.ids, ' ' ∉ id ∧ id ≠ []

/-- The stored ids that have `s` as a prefix. -/
def TruncIndex.withPrefix (idx : TruncIndex τ) (s : List Char) : Finset (List Char) :=
  idx.ids.filter (s <+: ·)

/-! ## 1. Add and Delete -/

theorem addID_of_invalid (idx : TruncIndex τ) {id : List Char}
    (h : ' ' ∈ id ∨ id = [] ∨ id ∈ idx.ids) :
    (idx.addID trie id).1 ≠ .ok () ∧ (idx.addID trie id).2 = idx := by
  unfold TruncIndex.addID
  by_cases hsp : ' ' ∈ id
  · simp [hsp]
  by_cases hne : id = []
  · simp [hne]
  have hin : id ∈ idx.ids := by tauto
  simp [hsp, hne, hin]

-- a new valid id goes into both copies, and the trie takes it since it did not hold it
theorem addID_of_new (hspec : trie.Spec keys) {idx : TruncIndex τ} (hi : idx.Inv keys)
    {id : List Char} (hsp : ' ' ∉ id) (hne : id ≠ []) (hin : id ∉ idx.ids) :
    idx.addID trie id = (.ok (), { trie := (trie.insert idx.trie id).1, ids := insert id idx.ids }) := by
  have hins : (trie.insert idx.trie id).2 = true := by
    rw [hspec.insert_inserted, ← hi.ids_eq]
    simp [hin]
  unfold TruncIndex.addID
  rw [if_neg hsp, if_neg hne, if_neg hin]
  dsimp only
  rcases h : trie.insert idx.trie id with ⟨t, b⟩
  rw [h] at hins
  dsimp only at hins
  rw [hins]

theorem TruncIndex.Inv.addID (hspec : trie.Spec keys) {idx : TruncIndex τ} (hi : idx.Inv keys)
    (id : List Char) : (idx.addID trie id).2.Inv keys := by
  by_cases hvalid : ' ' ∈ id ∨ id = [] ∨ id ∈ idx.ids
  · rw [(addID_of_invalid idx hvalid).2]
    exact hi
  push Not at hvalid
  obtain ⟨hsp, hne, hin⟩ := hvalid
  rw [addID_of_new hspec hi hsp hne hin]
  refine ⟨?_, ?_⟩
  · rw [hspec.keys_insert, ← hi.ids_eq]
  · intro x hx
    rcases Finset.mem_insert.mp hx with rfl | hx
    · exact ⟨hsp, hne⟩
    · exact hi.valid x hx

theorem delete_of_not_mem (idx : TruncIndex τ) {id : List Char} (h : id ∉ idx.ids) :
    idx.delete trie id = (.error (.noSuchId id), idx) := by
  unfold TruncIndex.delete
  rw [if_pos (.inl h)]

theorem delete_of_mem (hspec : trie.Spec keys) {idx : TruncIndex τ} (hi : idx.Inv keys)
    {id : List Char} (hin : id ∈ idx.ids) :
    idx.delete trie id = (.ok (), { trie := (trie.delete idx.trie id).1, ids := idx.ids.erase id }) := by
  have hdel : (trie.delete idx.trie id).2 = true :=
    hspec.delete_deleted _ _ (hi.ids_eq ▸ hin)
  have hcond : ¬(id ∉ idx.ids ∨ id = []) := by
    push Not
    exact ⟨hin, (hi.valid id hin).2⟩
  unfold TruncIndex.delete
  rw [if_neg hcond]
  dsimp only
  rcases h : trie.delete idx.trie id with ⟨t, b⟩
  rw [h] at hdel
  dsimp only at hdel
  rw [hdel]

theorem TruncIndex.Inv.delete (hspec : trie.Spec keys) {idx : TruncIndex τ} (hi : idx.Inv keys)
    (id : List Char) : (idx.delete trie id).2.Inv keys := by
  by_cases hin : id ∈ idx.ids
  · rw [delete_of_mem hspec hi hin]
    refine ⟨?_, ?_⟩
    · rw [hspec.keys_delete _ _ (hi.ids_eq ▸ hin), ← hi.ids_eq]
    · exact fun x hx => hi.valid x (Finset.mem_of_mem_erase hx)
  · rw [delete_of_not_mem idx hin]
    exact hi

theorem TruncIndex.Inv.step (hspec : trie.Spec keys) {idx : TruncIndex τ} (hi : idx.Inv keys) :
    ∀ op, (idx.step trie op).Inv keys
  | .add id => hi.addID hspec id
  | .delete id => hi.delete hspec id

/-- The invariant holds after every sequence of `Add` and `Delete`. -/
theorem TruncIndex.Inv.run (hspec : trie.Spec keys) :
    ∀ (ops : List TruncOp) {idx : TruncIndex τ}, idx.Inv keys →
      (ops.foldl (TruncIndex.step trie) idx).Inv keys
  | [], _, hi => hi
  | op :: ops, _, hi => TruncIndex.Inv.run hspec ops (hi.step hspec op)

theorem TruncIndex.Inv.foldl_addID (hspec : trie.Spec keys) :
    ∀ (ids : List (List Char)) {idx : TruncIndex τ}, idx.Inv keys →
      (ids.foldl (fun idx id => (idx.addID trie id).2) idx).Inv keys
  | [], _, hi => hi
  | id :: ids, _, hi => TruncIndex.Inv.foldl_addID hspec ids (hi.addID hspec id)

-- `NewTruncIndex` is a run of `addID` from the empty index
theorem inv_newTruncIndex (hspec : trie.Spec keys) (ids : List (List Char)) :
    (newTruncIndex trie ids).Inv keys :=
  TruncIndex.Inv.foldl_addID hspec ids ⟨hspec.keys_newTrie.symm, by simp⟩

/-! ## 2. Get -/

/-- The visitor keeps the first key and stops at the second. -/
theorem visitKeys_subTreeVisitFunc :
    ∀ (ks : List (List Char)), (∀ k ∈ ks, k ≠ []) →
      visitKeys subTreeVisitFunc [] ks =
        match ks with
        | [] => ([], none)
        | [k] => (k, none)
        | _ :: k₂ :: _ => ([], some (.ambiguousPrefix k₂))
  | [], _ => rfl
  | [k], _ => by simp [visitKeys, subTreeVisitFunc]
  | k₁ :: k₂ :: ks, hne => by
    have h₁ : k₁ ≠ [] := hne k₁ List.mem_cons_self
    simp [visitKeys, subTreeVisitFunc, h₁]

section Get

variable (hspec : trie.Spec keys) {idx : TruncIndex τ} (hi : idx.Inv keys)
  {s : List Char}

include hspec hi

theorem get_eq (hs : s ≠ []) :
    idx.get trie s =
      match trie.visitSubtree idx.trie s with
      | [] => .error .notExist
      | [k] => .ok k
      | _ :: k₂ :: _ => .error (.ambiguousPrefix k₂) := by
  have hne : ∀ k ∈ trie.visitSubtree idx.trie s, k ≠ [] := by
    intro k hk
    rw [hspec.mem_visitSubtree, ← hi.ids_eq] at hk
    exact (hi.valid k hk.1).2
  unfold TruncIndex.get
  rw [if_neg hs, visitKeys_subTreeVisitFunc _ hne]
  generalize trie.visitSubtree idx.trie s = ks at hne ⊢
  rcases ks with _ | ⟨k₁, _ | ⟨k₂, ks⟩⟩
  · rfl
  · simp [hne k₁ List.mem_cons_self]
  · rfl

/-- The keys `VisitSubtree(s)` visits are the stored ids with prefix `s`. -/
theorem toFinset_visitSubtree (s : List Char) :
    (trie.visitSubtree idx.trie s).toFinset = idx.withPrefix s := by
  ext k
  rw [List.mem_toFinset, hspec.mem_visitSubtree, ← hi.ids_eq, TruncIndex.withPrefix,
    Finset.mem_filter]

end Get

/-! ## 3. Runs from `NewTruncIndex(nil)` -/

theorem get_ids_by_prefix_unique (hspec : trie.Spec keys) (ops : List TruncOp) :
    let idx := ops.foldl (TruncIndex.step trie) (newTruncIndex trie [])
    idx.ids = keys idx.trie ∧
      ∀ s, s ≠ [] →
        (∀ id, idx.get trie s = .ok id ↔ idx.withPrefix s = {id}) ∧
        ((∃ p, idx.get trie s = .error (.ambiguousPrefix p)) ↔ 2 ≤ (idx.withPrefix s).card) ∧
        (idx.get trie s = .error .notExist ↔ idx.withPrefix s = ∅) := by
  intro idx
  have hi : idx.Inv keys := TruncIndex.Inv.run hspec ops (inv_newTruncIndex hspec [])
  refine ⟨hi.ids_eq, fun s hs => ?_⟩
  have hset := toFinset_visitSubtree hspec hi s
  have hnodup := hspec.nodup_visitSubtree idx.trie s
  rw [get_eq hspec hi hs]
  -- how many keys the walk meets decides the answer
  rcases hks : trie.visitSubtree idx.trie s with _ | ⟨k₁, _ | ⟨k₂, ks⟩⟩
  · rw [hks, List.toFinset_nil] at hset
    simp [← hset]
  · rw [hks, List.toFinset_cons, List.toFinset_nil, insert_empty_eq] at hset
    simp [← hset, eq_comm]
  · rw [hks] at hset hnodup
    have hcard : (idx.withPrefix s).card = ks.length + 2 := by
      rw [← hset, List.toFinset_card_of_nodup hnodup, List.length_cons, List.length_cons]
    refine ⟨fun id => ⟨fun h => ?_, fun h => ?_⟩, ⟨fun _ => by omega, fun _ => ⟨k₂, rfl⟩⟩,
      ⟨fun h => ?_, fun h => ?_⟩⟩
    · cases h
    · rw [h, Finset.card_singleton] at hcard
      omega
    · cases h
    · rw [h, Finset.card_empty] at hcard
      omega

/-- A trie as its keys in the order they went in, `VisitSubtree` visiting them in that order. -/
def listTrie : PatriciaTrie (List (List Char)) where
  newTrie := []
  insert t k := if k ∈ t then (t, false) else (t ++ [k], true)
  delete t k := (t.filter (fun x => x != k), decide (k ∈ t))
  visitSubtree t s := (t.filter (fun k => decide (s <+: k))).dedup

theorem listTrie_spec : listTrie.Spec List.toFinset where
  keys_newTrie := rfl
  keys_insert t k := by
    by_cases h : k ∈ t
    · simp [listTrie, h]
    · ext x
      simp [listTrie, h]
  insert_inserted t k := by
    by_cases h : k ∈ t <;> simp [listTrie, h]
  keys_delete t k _ := by
    ext x
    simp [listTrie, and_comm]
  delete_deleted t k hk := by simpa [listTrie] using hk
  mem_visitSubtree t s k := by simp [listTrie, List.mem_dedup]
  nodup_visitSubtree t s := List.nodup_dedup _

theorem get_ids_by_prefix_ab_ac :
    listTrie.Spec List.toFinset ∧ ['a'] ≠ [] ∧
      ∃ p, ([TruncOp.add ['a', 'b'], .add ['a', 'c']].foldl (TruncIndex.step listTrie)
        (newTruncIndex listTrie [])).get listTrie ['a'] = .error (.ambiguousPrefix p) :=
  ⟨listTrie_spec, by decide,
    ((get_ids_by_prefix_unique listTrie_spec [.add ['a', 'b'], .add ['a', 'c']]).2 ['a']
      (by decide)).2.1.mpr (by decide)⟩

end Docker.Truncindex
