import Mathlib.Data.List.AList
import Docker.Reasoning.Reach
import Docker.Reasoning.AListCount

/-!
# Registrar — name reservations of `pkg/registrar/registrar.go`

`Registrar` keeps two Go maps that describe one relation: `names` from a name to the key it is
reserved to, and `idx` from a key to the list of its names.  Each call runs under `r.mu`, so a
call is one step.  A missing `idx` entry reads as the empty list (Go's zero value, `idxOf`).

The index is consistent in every state a run reaches (`Registrar.Consistent`): `names[n] = k`
exactly when `n` occurs in `idx[k]`, and each `idx[k]` is non-empty and has no duplicates.
-/

set_option linter.dupNamespace false

namespace Docker.Registrar

variable {Name Key : Type} [DecidableEq Name] [DecidableEq Key]

inductive RegistrarError where
  | nameReserved
  | nameNotReserved
  | noSuchKey
  deriving DecidableEq, Repr

def RegistrarError.message : RegistrarError → String
  | .nameReserved => "name is reserved"
  | .nameNotReserved => "name is not reserved"
  | .noSuchKey => "provided key does not exist"

structure Registrar (Name Key : Type) [DecidableEq Name] [DecidableEq Key] where
  idx : AList (fun _ : Key => List Name)
  names : AList (fun _ : Name => Key)

def newRegistrar : Registrar Name Key :=
  ⟨∅, ∅⟩

-- `r.idx[key]`
def Registrar.idxOf (r : Registrar Name Key) (key : Key) : List Name :=
  (r.idx.lookup key).getD []

def Registrar.reserve (r : Registrar Name Key) (name : Name) (key : Key) :
    Except RegistrarError (Registrar Name Key) :=
  match r.names.lookup name with
  | some k => if k ≠ key then .error .nameReserved else .ok r
  | none => .ok { idx := r.idx.insert key (r.idxOf key ++ [name]), names := r.names.insert name key }

def Registrar.release (r : Registrar Name Key) (name : Name) : Registrar Name Key :=
  match r.names.lookup name with
  | none => r
  | some key =>
    -- the loop splices the first occurrence out, and leaves `idx[key]` alone if there is none
    let idx := if name ∈ r.idxOf key then r.idx.insert key ((r.idxOf key).erase name) else r.idx
    let idx := if (idx.lookup key).getD [] = [] then idx.erase key else idx
    { idx := idx, names := r.names.erase name }

def Registrar.delete (r : Registrar Name Key) (key : Key) : Registrar Name Key :=
  { idx := r.idx.erase key, names := (r.idxOf key).foldl (fun m n => m.erase n) r.names }

def Registrar.getNames (r : Registrar Name Key) (key : Key) : Except RegistrarError (List Name) :=
  match r.idx.lookup key with
  | some names => .ok names
  | none => .error .noSuchKey

def Registrar.get (r : Registrar Name Key) (name : Name) : Except RegistrarError Key :=
  match r.names.lookup name with
  | some key => .ok key
  | none => .error .nameNotReserved

/-! ## 1. Runs of calls -/

inductive RegistrarOp (Name Key : Type) where
  | reserve (name : Name) (key : Key)
  | release (name : Name)
  | delete (key : Key)

-- a refused `Reserve` returns its error and changes nothing
def Registrar.step (r : Registrar Name Key) : RegistrarOp Name Key → Registrar Name Key
  | .reserve name key =>
    match r.reserve name key with
    | .ok r' => r'
    | .error _ => r
  | .release name => r.release name
  | .delete key => r.delete key

/-! ## 2. What each call does to the two maps -/

@[simp] theorem idxOf_mk (idx : AList (fun _ : Key => List Name)) (names : AList (fun _ : Name => Key))
    (k : Key) : (Registrar.mk idx names).idxOf k = (idx.lookup k).getD [] := rfl

@[simp] theorem idxOf_newRegistrar (key : Key) :
    (newRegistrar : Registrar Name Key).idxOf key = [] := rfl

theorem reserve_eq_ok_iff {r r' : Registrar Name Key} {name : Name} {key : Key} :
    r.reserve name key = .ok r' ↔
      (r.names.lookup name = some key ∧ r' = r) ∨
      (r.names.lookup name = none ∧
        r' = { idx := r.idx.insert key (r.idxOf key ++ [name]),
               names := r.names.insert name key }) := by
  unfold Registrar.reserve
  cases h : r.names.lookup name with
  | none => simp [eq_comm]
  | some k =>
    by_cases hk : k = key
    · subst hk
      simp [eq_comm]
    · simp [hk]

omit [DecidableEq Key] in
theorem lookup_foldl_erase (ns : List Name) (m : AList (fun _ : Name => Key)) (n : Name) :
    (ns.foldl (fun m n => m.erase n) m).lookup n = if n ∈ ns then none else m.lookup n := by
  induction ns generalizing m with
  | nil => simp
  | cons a ns ih =>
    rw [List.foldl_cons, ih]
    by_cases ha : n = a
    · subst ha
      simp
    · simp [ha, AList.lookup_erase_ne ha]

-- `Release` of a name reserved to `key`: the name goes from both maps, and an emptied list
-- goes from `idx`
theorem release_names {r : Registrar Name Key} {name : Name} {key : Key}
    (hname : r.names.lookup name = some key) (n : Name) :
    (r.release name).names.lookup n = if n = name then none else r.names.lookup n := by
  unfold Registrar.release
  rw [hname]
  exact AList.lookup_erase_ite r.names name n

theorem release_idx {r : Registrar Name Key} {name : Name} {key : Key}
    (hname : r.names.lookup name = some key) (hmem : name ∈ r.idxOf key) (k : Key) :
    (r.release name).idx.lookup k =
      if k = key then (if (r.idxOf key).erase name = [] then none else some ((r.idxOf key).erase name))
      else r.idx.lookup k := by
  unfold Registrar.release
  rw [hname]
  dsimp only
  rw [if_pos hmem, AList.lookup_insert, Option.getD_some]
  by_cases he : (r.idxOf key).erase name = []
  · simp only [if_pos he, AList.lookup_erase_ite, AList.lookup_insert_ite]
    split_ifs <;> rfl
  · simp only [if_neg he, AList.lookup_insert_ite]

theorem release_idxOf {r : Registrar Name Key} {name : Name} {key : Key}
    (hname : r.names.lookup name = some key) (hmem : name ∈ r.idxOf key) (k : Key) :
    (r.release name).idxOf k = if k = key then (r.idxOf key).erase name else r.idxOf k := by
  show ((r.release name).idx.lookup k).getD [] = _
  rw [release_idx hname hmem]
  by_cases hk : k = key
  · by_cases he : (r.idxOf key).erase name = []
    · rw [if_pos hk, if_pos hk, if_pos he, he, Option.getD_none]
    · rw [if_pos hk, if_pos hk, if_neg he, Option.getD_some]
  · rw [if_neg hk, if_neg hk]
    rfl

theorem delete_idx (r : Registrar Name Key) (key k : Key) :
    (r.delete key).idx.lookup k = if k = key then none else r.idx.lookup k :=
  AList.lookup_erase_ite r.idx key k

theorem delete_idxOf (r : Registrar Name Key) (key k : Key) :
    (r.delete key).idxOf k = if k = key then [] else r.idxOf k := by
  unfold Registrar.idxOf
  rw [delete_idx]
  split_ifs <;> rfl

theorem delete_names (r : Registrar Name Key) (key : Key) (n : Name) :
    (r.delete key).names.lookup n = if n ∈ r.idxOf key then none else r.names.lookup n :=
  lookup_foldl_erase _ _ n

-- what `names[n]` reads after each call, whatever the state
theorem reserve_names_lookup {r r' : Registrar Name Key} {name : Name} {key : Key}
    (h : r.reserve name key = .ok r') (n : Name) :
    r'.names.lookup n = if n = name then some key else r.names.lookup n := by
  rcases reserve_eq_ok_iff.1 h with ⟨hown, rfl⟩ | ⟨-, rfl⟩
  · split_ifs with hn
    · rw [hn, hown]
    · rfl
  · exact AList.lookup_insert_ite r.names name n key

theorem release_names_lookup (r : Registrar Name Key) (name n : Name) :
    (r.release name).names.lookup n = if n = name then none else r.names.lookup n := by
  cases hname : r.names.lookup name with
  | none =>
    unfold Registrar.release
    rw [hname]
    split_ifs with hn
    · rw [hn, hname]
    · rfl
  | some key => exact release_names hname n

theorem getNames_eq_ok {r : Registrar Name Key} {key : Key} {names : List Name} :
    r.getNames key = .ok names ↔ r.idx.lookup key = some names := by
  unfold Registrar.getNames
  cases r.idx.lookup key <;> simp

/-! ## 3. The index is consistent -/

structure Registrar.Consistent (r : Registrar Name Key) : Prop where
  names_iff : ∀ n k, r.names.lookup n = some k ↔ n ∈ r.idxOf k
  ne_nil : ∀ k names, r.idx.lookup k = some names → names ≠ []
  nodup : ∀ k names, r.idx.lookup k = some names → names.Nodup

theorem consistent_newRegistrar : (newRegistrar : Registrar Name Key).Consistent :=
  ⟨fun _ _ => by simp [newRegistrar], fun _ _ h => by simp [newRegistrar] at h,
    fun _ _ h => by simp [newRegistrar] at h⟩

theorem Registrar.Consistent.nodup_idxOf {r : Registrar Name Key} (hc : r.Consistent) (k : Key) :
    (r.idxOf k).Nodup := by
  unfold Registrar.idxOf
  cases h : r.idx.lookup k with
  | none => exact List.nodup_nil
  | some names => exact hc.nodup k names h

-- a name is in the list of one key at most
theorem Registrar.Consistent.key_unique {r : Registrar Name Key} (hc : r.Consistent) {n : Name}
    {k k' : Key} (h : n ∈ r.idxOf k) (h' : n ∈ r.idxOf k') : k = k' := by
  have h₁ := (hc.names_iff n k).2 h
  have h₂ := (hc.names_iff n k').2 h'
  rw [h₁] at h₂
  exact Option.some.inj h₂

theorem Registrar.Consistent.not_mem_of_none {r : Registrar Name Key} (hc : r.Consistent)
    {n : Name} (h : r.names.lookup n = none) (k : Key) : n ∉ r.idxOf k := fun hk => by
  rw [(hc.names_iff n k).2 hk] at h
  cases h

-- in a consistent state the lists of `idx` are read off `names`
theorem Registrar.Consistent.mem_idxOf_congr {r r' : Registrar Name Key} (hc : r.Consistent)
    (hc' : r'.Consistent) (h : ∀ n, r'.names.lookup n = r.names.lookup n) (n : Name) (k : Key) :
    n ∈ r'.idxOf k ↔ n ∈ r.idxOf k := by
  rw [← hc.names_iff, ← hc'.names_iff, h]

theorem Registrar.Consistent.reserve {r r' : Registrar Name Key} {name : Name} {key : Key}
    (hc : r.Consistent) (h : r.reserve name key = .ok r') : r'.Consistent := by
  rcases reserve_eq_ok_iff.1 h with ⟨-, rfl⟩ | ⟨hnone, rfl⟩
  · exact hc
  -- a fresh name: it is in no list yet
  have hfresh := hc.not_mem_of_none hnone
  refine ⟨fun n k => ?_, fun k names hk => ?_, fun k names hk => ?_⟩
  · simp only [idxOf_mk, AList.lookup_insert_ite]
    by_cases hn : n = name <;> by_cases hk : k = key
    · subst hn hk
      simp
    · subst hn
      simpa [hk, Ne.symm hk, Registrar.idxOf] using hfresh k
    · subst hk
      simpa [hn, Registrar.idxOf] using hc.names_iff n k
    · simpa [hn, hk, Registrar.idxOf] using hc.names_iff n k
  · rw [AList.lookup_insert_ite] at hk
    split_ifs at hk
    · cases hk
      simp
    · exact hc.ne_nil k names hk
  · rw [AList.lookup_insert_ite] at hk
    split_ifs at hk with hkey
    · cases hk
      subst hkey
      exact List.nodup_append.2 ⟨hc.nodup_idxOf k, List.nodup_singleton _,
        fun a ha b hb hab => hfresh k (List.mem_singleton.1 hb ▸ hab ▸ ha)⟩
    · exact hc.nodup k names hk

theorem Registrar.Consistent.release {r : Registrar Name Key} (hc : r.Consistent) (name : Name) :
    (r.release name).Consistent := by
  cases hname : r.names.lookup name with
  | none =>
    unfold Registrar.release
    rw [hname]
    exact hc
  | some key =>
    have hmem : name ∈ r.idxOf key := (hc.names_iff name key).1 hname
    have hnotin : name ∉ (r.idxOf key).erase name := (hc.nodup_idxOf key).not_mem_erase
    refine ⟨fun n k => ?_, fun k names hk => ?_, fun k names hk => ?_⟩
    · rw [release_names hname, release_idxOf hname hmem]
      by_cases hn : n = name
      · -- the released name is in no list any more
        subst hn
        simp only [if_true, reduceCtorEq, false_iff]
        split_ifs with hk
        · exact hnotin
        · exact fun h => hk (hc.key_unique h hmem)
      · rw [if_neg hn, hc.names_iff n k]
        split_ifs with hk
        · subst hk
          exact (List.mem_erase_of_ne hn).symm
        · exact Iff.rfl
    · rw [release_idx hname hmem] at hk
      split_ifs at hk with hkey he
      · cases hk
        exact he
      · exact hc.ne_nil k names hk
    · rw [release_idx hname hmem] at hk
      split_ifs at hk with hkey he
      · cases hk
        exact (hc.nodup_idxOf key).erase name
      · exact hc.nodup k names hk

theorem Registrar.Consistent.delete {r : Registrar Name Key} (hc : r.Consistent) (key : Key) :
    (r.delete key).Consistent := by
  refine ⟨fun n k => ?_, fun k names hk => ?_, fun k names hk => ?_⟩
  · rw [delete_names, delete_idxOf]
    by_cases hk : k = key
    · subst hk
      simp only [if_true, List.not_mem_nil, iff_false]
      split_ifs with hn
      · simp
      · exact fun h => hn ((hc.names_iff n k).1 h)
    · rw [if_neg hk]
      split_ifs with hn
      · simp only [false_iff]
        exact fun h => hk (hc.key_unique h hn)
      · exact hc.names_iff n k
  · rw [delete_idx] at hk
    split_ifs at hk
    exact hc.ne_nil k names hk
  · rw [delete_idx] at hk
    split_ifs at hk
    exact hc.nodup k names hk

theorem Registrar.Consistent.step {r : Registrar Name Key} (hc : r.Consistent) :
    ∀ op, (r.step op).Consistent
  | .reserve name key => by
    cases h : r.reserve name key with
    | ok r' =>
      simp only [Registrar.step, h]
      exact hc.reserve h
    | error _ =>
      simp only [Registrar.step, h]
      exact hc
  | .release name => hc.release name
  | .delete key => hc.delete key

theorem consistent_run (ops : List (RegistrarOp Name Key)) :
    (ops.foldl Registrar.step newRegistrar).Consistent :=
  Reasoning.Reach.foldl_preserved Registrar.step Registrar.Consistent
    (fun _ op hc => hc.step op) ops _ consistent_newRegistrar

/-! ## 4. What the calls answer in a consistent state -/

theorem Registrar.Consistent.get_eq_ok_iff {r : Registrar Name Key} (hc : r.Consistent)
    (name : Name) (key : Key) : r.get name = .ok key ↔ name ∈ r.idxOf key := by
  rw [← hc.names_iff]
  unfold Registrar.get
  cases r.names.lookup name <;> simp

theorem Registrar.Consistent.reserve_ok_iff {r : Registrar Name Key} (hc : r.Consistent)
    (name : Name) (key : Key) :
    (∃ r', r.reserve name key = .ok r') ↔ (∀ k, name ∉ r.idxOf k) ∨ name ∈ r.idxOf key := by
  unfold Registrar.reserve
  cases hname : r.names.lookup name with
  | none => simp [hc.not_mem_of_none hname]
  | some k =>
    have hk : name ∈ r.idxOf k := (hc.names_iff name k).1 hname
    by_cases hkey : k = key
    · subst hkey
      simp [hk]
    · simp only [ne_eq, hkey, not_false_eq_true, if_true, reduceCtorEq, exists_false, false_iff,
        not_or, not_forall, not_not]
      exact ⟨⟨k, hk⟩, fun h => hkey (hc.key_unique hk h)⟩

theorem Registrar.Consistent.delete_forgets {r : Registrar Name Key} (hc : r.Consistent)
    {key : Key} {name : Name} (hname : name ∈ r.idxOf key) :
    (r.delete key).get name = .error .nameNotReserved ∧
      (r.delete key).getNames key = .error .noSuchKey ∧
      ∀ k names, (r.delete key).getNames k = .ok names → name ∉ names := by
  have hgone : (r.delete key).names.lookup name = none := by
    rw [delete_names, if_pos hname]
  refine ⟨?_, ?_, fun k names hk hin => ?_⟩
  · simp [Registrar.get, hgone]
  · simp [Registrar.getNames, delete_idx]
  · -- a name still listed would still be reserved
    have hmem : name ∈ (r.delete key).idxOf k := by
      simp [Registrar.idxOf, getNames_eq_ok.1 hk, hin]
    exact (hc.delete key).not_mem_of_none hgone k hmem

/-- From `NewRegistrar`, after any calls: `names[n] = k` exactly when `n` is in `idx[k]`, every
list of `idx` is non-empty with no duplicates, `Reserve` succeeds exactly on a free name or one
reserved to the same key, and `Delete` forgets every name of its key. -/
theorem registrar_index_consistent (ops : List (RegistrarOp Name Key)) :
    let r := ops.foldl Registrar.step newRegistrar
    (∀ n k, r.get n = .ok k ↔ n ∈ r.idxOf k) ∧
      (∀ k names, r.getNames k = .ok names → names ≠ [] ∧ names.Nodup) ∧
      (∀ n k, (∃ r', r.reserve n k = .ok r') ↔ (∀ k', n ∉ r.idxOf k') ∨ n ∈ r.idxOf k) ∧
      (∀ k n, n ∈ r.idxOf k →
        (r.delete k).get n = .error .nameNotReserved ∧
          (r.delete k).getNames k = .error .noSuchKey ∧
          ∀ k' names, (r.delete k).getNames k' = .ok names → n ∉ names) := by
  intro r
  have hc : r.Consistent := consistent_run ops
  refine ⟨hc.get_eq_ok_iff, fun k names hk => ?_, hc.reserve_ok_iff,
    fun k n hn => hc.delete_forgets hn⟩
  exact ⟨hc.ne_nil k names (getNames_eq_ok.1 hk), hc.nodup k names (getNames_eq_ok.1 hk)⟩

end Docker.Registrar
