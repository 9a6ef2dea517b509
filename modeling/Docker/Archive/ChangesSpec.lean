import Mathlib
import Docker.Archive.Changes

namespace Docker.Archive

open Reasoning.PathOrder

section Membership

variable {info c : FileInfo} {o : Option FileInfo} {a : Bool} {path : List String}


/-- Below a directory, the old node paired with a new child is the old node's child. -/
theorem find_oldChildrenOf {x : String} (hd : info.DirsOnly path) (hc : info.child x = some c) :
    (oldChildrenOf info o path).find? (·.name == c.name) = o.bind (·.child x) := by
  have hdir := hd.isDir hc
  rw [(FileInfo.mem_of_child hc).2]
  cases o <;> simp [oldChildrenOf, hdir, FileInfo.child]

theorem mem_addChanges_of_isAncestor (hi : info.Distinct) {e : Change}
    (he : IsAncestor path e.path) :
    e ∈ addChanges info o a path [] ↔ e ∈ belowChanges info o path := by
  have hne : e.path ≠ path := he.2.symm
  cases o with
  | none =>
    rw [addChanges_none hi.nodup, List.mem_cons]
    exact ⟨fun h => h.resolve_left (fun h' => hne (by rw [h'])), Or.inr⟩
  | some old =>
    rw [addChanges_some hi.nodup, List.mem_append]
    refine ⟨fun h => h.resolve_left fun h' => ?_, Or.inr⟩
    split at h'
    · exact hne (by rw [List.mem_singleton.mp h'])
    · cases h'

/-- The entry at a node's own path: added, or a directory with changes below it. -/
theorem mem_addChanges_self (hi : info.Distinct) (o : Option FileInfo) (a : Bool)
    (path : List String) (k : ChangeType) :
    ⟨path, k⟩ ∈ addChanges info o a path [] ↔
      (o = none ∧ k = .add) ∨
        (o.isSome ∧ belowChanges info o path ≠ [] ∧ info.isDir path = true ∧ a = false ∧
          path ≠ [] ∧ k = .modify) := by
  have hnot : ⟨path, k⟩ ∉ belowChanges info o path := fun h =>
    (belowChanges_isAncestor_of_distinct hi _ h).2 rfl
  cases o with
  | none =>
    rw [addChanges_none hi.nodup, List.mem_cons]
    simp only [Change.mk.injEq, true_and, hnot, or_false, Option.isSome_none, Bool.false_eq_true,
      false_and]
  | some old =>
    rw [addChanges_some hi.nodup, List.mem_append]
    simp only [hnot, or_false, reduceCtorEq, false_and, false_or, Option.isSome_some, true_and]
    split
    · rename_i hc
      simp only [List.mem_singleton, Change.mk.injEq, true_and]
      exact ⟨fun h => ⟨hc.1, hc.2.1, hc.2.2.1, hc.2.2.2, h⟩, fun h => h.2.2.2.2⟩
    · rename_i hc
      simp only [List.not_mem_nil, false_iff]
      exact fun h => hc ⟨h.1, h.2.1, h.2.2.1, h.2.2.2.1⟩

theorem prefix_singleton_cons {path s : List String} {x y : String}
    (h : path ++ [y] <+: path ++ x :: s) : y = x := by
  have h' := (List.prefix_append_right_inj path).mp h
  simpa using h'.head

/-- An entry strictly below a node lies in the block of the child it is under, or deletes an old
child. -/
theorem mem_belowChanges_cons (hi : info.Distinct) {e : Change}
    {x : String} {s : List String} (he : e.path = path ++ x :: s) :
    e ∈ belowChanges info o path ↔
      (∃ c, info.child x = some c ∧ e ∈ childChanges (oldChildrenOf info o path) path c) ∨
        (s = [] ∧ e.kind = .delete ∧ info.child x = none ∧ info.isDir path = true ∧
          (o.bind (·.child x)).isSome) := by
  unfold belowChanges
  rw [List.mem_append, List.mem_flatMap]
  apply or_congr
  · constructor
    · rintro ⟨c, hcm, hec⟩
      have hpre := childChanges_under (addChanges_under c (hi.of_mem hcm)) e hec
      rw [he] at hpre
      have hx : c.name = x := prefix_singleton_cons hpre
      exact ⟨c, hx ▸ FileInfo.child_of_mem hi.nodup hcm, hec⟩
    · rintro ⟨c, hc, hec⟩
      exact ⟨c, (FileInfo.mem_of_child hc).1, hec⟩
  · obtain ⟨ep, ek⟩ := e
    dsimp only at he
    subst he
    simp only [List.mem_map, mem_unmatched, Change.mk.injEq, List.append_cancel_left_eq,
      List.cons.injEq, List.nil_eq]
    cases o with
    | none => simp [oldChildrenOf]
    | some old =>
      by_cases hdir : info.isDir path = true
      · simp only [oldChildrenOf, hdir, if_true, Option.bind_some, FileInfo.child,
          List.find?_eq_none, List.find?_isSome, beq_iff_eq, true_and]
        constructor
        · rintro ⟨oc, ⟨hoc, hnew⟩, ⟨rfl, rfl⟩, rfl⟩
          exact ⟨rfl, rfl, hnew, oc, hoc, rfl⟩
        · rintro ⟨rfl, rfl, hnew, oc, hoc, rfl⟩
          exact ⟨oc, ⟨hoc, hnew⟩, ⟨rfl, rfl⟩, rfl⟩
      · simp [oldChildrenOf, hdir]

/-- An entry strictly below a node lies under one of its children: in what that child records,
after the child's own modification if the parent records one, or it deletes an old child. -/
theorem mem_addChanges_cons (hi : info.Distinct) (hd : info.DirsOnly path) {e : Change}
    {x : String} {s : List String} (he : e.path = path ++ x :: s) :
    e ∈ addChanges info o a path [] ↔
      (∃ c, info.child x = some c ∧
        ((s = [] ∧ e.kind = .modify ∧ (o.bind (·.child x)).any (changed · c) = true) ∨
          e ∈ addChanges c (o.bind (·.child x)) ((o.bind (·.child x)).any (changed · c))
            (path ++ [x]) [])) ∨
        (s = [] ∧ e.kind = .delete ∧ info.child x = none ∧ info.isDir path = true ∧
          (o.bind (·.child x)).isSome) := by
  have hanc : IsAncestor path e.path :=
    he ▸ (isAncestor_append_singleton path x).extend ⟨s, by simp⟩
  rw [mem_addChanges_of_isAncestor hi hanc, mem_belowChanges_cons hi he]
  refine or_congr_left (exists_congr fun c => and_congr_right fun hc => ?_)
  rw [childChanges_eq, find_oldChildrenOf hd hc, (FileInfo.mem_of_child hc).2, List.mem_append]
  refine or_congr_left ?_
  obtain ⟨ep, ek⟩ := e
  dsimp only at he
  subst he
  split <;> simp_all

end Membership

section Kinds

variable {info : FileInfo} {o : Option FileInfo} {a : Bool} {path : List String}

/-- Added entries: the paths the new tree has and the old one does not. -/
theorem mem_addChanges_add (hi : info.Distinct) (hd : info.DirsOnly path) (q : List String) :
    ⟨path ++ q, .add⟩ ∈ addChanges info o a path [] ↔
      (info.walk q).isSome ∧ o.bind (·.walk q) = none := by
  induction q generalizing info o a path with
  | nil =>
    rw [List.append_nil, mem_addChanges_self hi]
    cases o <;> simp
  | cons x r ih =>
    rw [mem_addChanges_cons hi hd rfl, FileInfo.walk_cons, bind_walk_cons]
    cases hc : info.child x with
    | none => simp
    | some c =>
      have hchild := ih (hi.child hc) (hd.child hc) (o := o.bind (·.child x))
        (a := (o.bind (·.child x)).any (changed · c))
      rw [List.append_assoc, List.singleton_append] at hchild
      simp [hchild]

/-- Deleted entries: the old children a new directory does not have, below nodes both trees
have. -/
theorem mem_addChanges_delete (hi : info.Distinct) (hd : info.DirsOnly path) (q : List String)
    (y : String) :
    ⟨path ++ q ++ [y], .delete⟩ ∈ addChanges info o a path [] ↔
      ∃ m, info.walk q = some m ∧ m.isDir (path ++ q) = true ∧ m.child y = none ∧
        (o.bind (·.walk (q ++ [y]))).isSome := by
  induction q generalizing info o a path with
  | nil =>
    rw [List.append_nil, mem_addChanges_cons hi hd rfl]
    cases hc : info.child y with
    | none => cases o <;> simp [FileInfo.walk, hc]
    | some c =>
      have hself := mem_addChanges_self (hi.child hc) (o.bind (·.child y))
        ((o.bind (·.child y)).any (changed · c)) (path ++ [y]) .delete
      simp only [reduceCtorEq, and_false, or_false] at hself
      simp [hself, hc]
  | cons x r ih =>
    have hpath : path ++ x :: r ++ [y] = path ++ x :: (r ++ [y]) := by simp
    rw [mem_addChanges_cons hi hd hpath, FileInfo.walk_cons, List.cons_append, bind_walk_cons]
    cases hc : info.child x with
    | none => simp
    | some c =>
      have hchild := ih (hi.child hc) (hd.child hc) (o := o.bind (·.child x))
        (a := (o.bind (·.child x)).any (changed · c))
      simpa using hchild

theorem mem_addChanges_child {c : FileInfo} {x : String} (hi : info.Distinct)
    (hd : info.DirsOnly path) (hc : info.child x = some c) {e : Change} {s : List String}
    (hs : s ≠ []) (he : e.path = path ++ x :: s) :
    e ∈ addChanges info o a path [] ↔
      e ∈ addChanges c (o.bind (·.child x)) ((o.bind (·.child x)).any (changed · c))
        (path ++ [x]) [] := by
  rw [mem_addChanges_cons hi hd he]
  simp [hc, hs]

/-- The entries strictly below a path under child `x` are the child's. -/
theorem exists_below_child {c : FileInfo} {x : String} (hi : info.Distinct)
    (hd : info.DirsOnly path) (hc : info.child x = some c) (r : List String) :
    (∃ e ∈ addChanges info o a path [], IsAncestor (path ++ x :: r) e.path) ↔
      ∃ e ∈ addChanges c (o.bind (·.child x)) ((o.bind (·.child x)).any (changed · c))
        (path ++ [x]) [], IsAncestor (path ++ x :: r) e.path := by
  have key : ∀ e : Change, IsAncestor (path ++ x :: r) e.path →
      (e ∈ addChanges info o a path [] ↔
        e ∈ addChanges c (o.bind (·.child x)) ((o.bind (·.child x)).any (changed · c))
          (path ++ [x]) []) := by
    intro e he
    obtain ⟨t, ht⟩ := he.1
    have ht' : t ≠ [] := by
      rintro rfl
      exact he.2 (by simpa using ht)
    exact mem_addChanges_child hi hd hc (s := r ++ t) (by simp [ht']) (by rw [← ht]; simp)
  exact exists_congr fun e => ⟨fun h => ⟨(key e h.2).mp h.1, h.2⟩,
    fun h => ⟨(key e h.2).mpr h.1, h.2⟩⟩

theorem exists_below_iff (hi : info.Distinct) :
    (∃ e ∈ addChanges info o a path [], IsAncestor path e.path) ↔
      belowChanges info o path ≠ [] := by
  constructor
  · rintro ⟨e, hm, hanc⟩
    exact List.ne_nil_of_mem ((mem_addChanges_of_isAncestor hi hanc).mp hm)
  · intro hne
    obtain ⟨e, he⟩ := List.exists_mem_of_ne_nil _ hne
    have hanc := belowChanges_isAncestor_of_distinct hi e he
    exact ⟨e, (mem_addChanges_of_isAncestor hi hanc).mpr he, hanc⟩

/-- Modified entries below a node: a child whose stat or capabilities changed, or a directory
with changes below it. -/
theorem mem_addChanges_modify (hi : info.Distinct) (hd : info.DirsOnly path) (x : String)
    (r : List String) :
    ⟨path ++ x :: r, .modify⟩ ∈ addChanges info o a path [] ↔
      ∃ m om, info.walk (x :: r) = some m ∧ o.bind (·.walk (x :: r)) = some om ∧
        (changed om m = true ∨ (m.isDir (path ++ x :: r) = true ∧
          ∃ e ∈ addChanges info o a path [], IsAncestor (path ++ x :: r) e.path)) := by
  induction r generalizing info o a path x with
  | nil =>
    rw [mem_addChanges_cons hi hd rfl, FileInfo.walk_cons, bind_walk_cons]
    cases hc : info.child x with
    | none => simp
    | some c =>
      rw [exists_below_child hi hd hc [], exists_below_iff (hi.child hc)]
      simp only [Option.some.injEq, exists_eq_left', Option.bind_some, FileInfo.walk_nil]
      rw [mem_addChanges_self (hi.child hc)]
      cases o.bind (·.child x) with
      | none => simp
      | some oc =>
        -- a changed child is recorded by its parent, an unchanged one by itself
        cases hch : changed oc c <;> simp [hch, and_comm]
  | cons y r ih =>
    rw [mem_addChanges_cons hi hd rfl, FileInfo.walk_cons, bind_walk_cons]
    cases hc : info.child x with
    | none => simp
    | some c =>
      rw [exists_below_child hi hd hc (y :: r)]
      have hchild := ih (hi.child hc) (hd.child hc) (x := y) (o := o.bind (·.child x))
        (a := (o.bind (·.child x)).any (changed · c))
      simpa [Option.bind_assoc] using hchild

end Kinds

/-! ## What `Changes` computes -/

/-- The list of changes from the tree `old` to the tree `new`: the paths added, the paths deleted
under a directory both trees have, and the paths modified, each path once and after its
ancestors. -/
structure IsDiff (old new : FileInfo) (l : List Change) : Prop where
  add : ∀ q, ⟨q, .add⟩ ∈ l ↔ (new.walk q).isSome ∧ old.walk q = none
  delete : ∀ q, ⟨q, .delete⟩ ∈ l ↔ (old.walk q).isSome ∧ new.walk q = none ∧
    ∃ q' y m, q = q' ++ [y] ∧ new.walk q' = some m ∧ m.isDir q' = true ∧ (old.walk q').isSome
  modify : ∀ q, ⟨q, .modify⟩ ∈ l ↔ q ≠ [] ∧ ∃ m om, new.walk q = some m ∧ old.walk q = some om ∧
    (changed om m = true ∨ (m.isDir q = true ∧ ∃ e ∈ l, IsAncestor q e.path))
  nodup : (l.map (·.path)).Nodup
  ancestorsFirst : AncestorsFirst (l.map (·.path))

section Changes

variable {new old : FileInfo}

theorem changes_add (hn : new.Distinct) (hd : new.DirsOnly []) (q : List String) :
    ⟨q, .add⟩ ∈ new.changes (some old) ↔ (new.walk q).isSome ∧ old.walk q = none := by
  simpa [FileInfo.changes] using mem_addChanges_add hn hd q (o := some old) (a := false)

theorem changes_delete (hn : new.Distinct) (hd : new.DirsOnly []) (q : List String) :
    ⟨q, .delete⟩ ∈ new.changes (some old) ↔ (old.walk q).isSome ∧ new.walk q = none ∧
      ∃ q' y m, q = q' ++ [y] ∧ new.walk q' = some m ∧ m.isDir q' = true ∧
        (old.walk q').isSome := by
  rcases List.eq_nil_or_concat q with rfl | ⟨q', y, rfl⟩
  · -- nothing is deleted at the root
    have hself := mem_addChanges_self hn (some old) false [] .delete
    simp only [reduceCtorEq, and_false, or_false] at hself
    simp [FileInfo.changes, hself]
  · have hdel := mem_addChanges_delete hn hd q' y (o := some old) (a := false)
    simp only [List.nil_append, Option.bind_some] at hdel
    rw [List.concat_eq_append, FileInfo.changes, hdel]
    constructor
    · rintro ⟨m, hm, hdir, hnone, hold⟩
      refine ⟨hold, by simp [FileInfo.walk_append, hm, hnone], q', y, m, rfl, hm, hdir, ?_⟩
      rw [FileInfo.walk_append] at hold
      exact Option.isSome_of_isSome_bind hold
    · rintro ⟨hold, hnew, q'', y', m, heq, hm, hdir, -⟩
      obtain ⟨rfl, hy⟩ := List.append_inj' heq rfl
      obtain rfl : y = y' := by simpa using hy
      refine ⟨m, hm, hdir, ?_, hold⟩
      simpa [FileInfo.walk_append, hm] using hnew

theorem changes_modify (hn : new.Distinct) (hd : new.DirsOnly []) (q : List String) :
    ⟨q, .modify⟩ ∈ new.changes (some old) ↔ q ≠ [] ∧ ∃ m om, new.walk q = some m ∧
      old.walk q = some om ∧ (changed om m = true ∨
        (m.isDir q = true ∧ ∃ e ∈ new.changes (some old), IsAncestor q e.path)) := by
  cases q with
  | nil =>
    -- the root is never recorded
    have hself := mem_addChanges_self hn (some old) false [] .modify
    simp [FileInfo.changes, hself]
  | cons x r =>
    simpa [FileInfo.changes] using
      mem_addChanges_modify hn hd x r (o := some old) (a := false)

theorem changes_isDiff (hn : new.Distinct) (ho : old.Distinct) (hd : new.DirsOnly []) :
    IsDiff old new (new.changes (some old)) where
  add := changes_add hn hd
  delete := changes_delete hn hd
  modify := changes_modify hn hd
  nodup := List.nodup_iff_pairwise_ne.mpr
    (addChanges_pairwise unrelated_ne downward_ne new hn (some old) (by simpa using ho) false [])
  ancestorsFirst := addChanges_pairwise unrelated_notAncestor downward_notAncestor new hn
    (some old) (by simpa using ho) false []

end Changes

/-! ## The diff is determined up to order

`IsDiff` fixes which entries a list holds: the added and deleted paths directly, the modified
ones through the entries below them.  Two lists that meet it are permutations of each other, so
the order in which `range` visits the children maps changes only the order of the result. -/

/-- An entry recorded for what happened at its own path, not for the entries below it. -/
def Direct (old new : FileInfo) (e : Change) : Prop :=
  match e.kind with
  | .add => (new.walk e.path).isSome ∧ old.walk e.path = none
  | .delete => (old.walk e.path).isSome ∧ new.walk e.path = none ∧
    ∃ q' y m, e.path = q' ++ [y] ∧ new.walk q' = some m ∧ m.isDir q' = true ∧ (old.walk q').isSome
  | .modify => e.path ≠ [] ∧ ∃ m om, new.walk e.path = some m ∧ old.walk e.path = some om ∧
    changed om m = true

namespace IsDiff

variable {old new : FileInfo} {l l₁ l₂ : List Change}

theorem mem_of_direct (h : IsDiff old new l) {e : Change} (he : Direct old new e) : e ∈ l := by
  obtain ⟨p, k⟩ := e
  cases k with
  | add => exact (h.add p).mpr he
  | delete => exact (h.delete p).mpr he
  | modify =>
    obtain ⟨hne, m, om, hm, hom, hch⟩ := he
    exact (h.modify p).mpr ⟨hne, m, om, hm, hom, Or.inl hch⟩

theorem direct_or_below (h : IsDiff old new l) {e : Change} (he : e ∈ l) :
    Direct old new e ∨ ∃ e' ∈ l, IsAncestor e.path e'.path := by
  obtain ⟨p, k⟩ := e
  cases k with
  | add => exact Or.inl ((h.add p).mp he)
  | delete => exact Or.inl ((h.delete p).mp he)
  | modify =>
    obtain ⟨hne, m, om, hm, hom, hch | ⟨-, hbelow⟩⟩ := (h.modify p).mp he
    · exact Or.inl ⟨hne, m, om, hm, hom, hch⟩
    · exact Or.inr hbelow

/-- Below a path there is an entry exactly when there is a direct one: follow entries down until
one is recorded for its own sake. -/
theorem exists_below_iff_direct (h : IsDiff old new l) (q : List String) :
    (∃ e ∈ l, IsAncestor q e.path) ↔ ∃ e, Direct old new e ∧ IsAncestor q e.path := by
  refine ⟨fun ⟨e, he, hq⟩ => ?_, fun ⟨e, hd, hq⟩ => ⟨e, h.mem_of_direct hd, hq⟩⟩
  -- every path of `l` is at most `bound` long, so the descent stops
  let bound := (l.map fun e => e.path.length).sum
  have hbound : ∀ e ∈ l, e.path.length ≤ bound := fun e he =>
    List.le_sum_of_mem (List.mem_map_of_mem he)
  suffices key : ∀ n, ∀ e ∈ l, bound - e.path.length ≤ n → IsAncestor q e.path →
      ∃ e, Direct old new e ∧ IsAncestor q e.path from key _ e he le_rfl hq
  intro n
  induction n with
  | zero =>
    intro e he hn hq
    rcases h.direct_or_below he with hd | ⟨e', he', hbelow⟩
    · exact ⟨e, hd, hq⟩
    · have := hbelow.length_lt
      have := hbound e' he'
      omega
  | succ n ih =>
    intro e he hn hq
    rcases h.direct_or_below he with hd | ⟨e', he', hbelow⟩
    · exact ⟨e, hd, hq⟩
    · have := hbelow.length_lt
      exact ih e' he' (by omega) (hq.trans hbelow)

theorem nodup_entries (h : IsDiff old new l) : l.Nodup := h.nodup.of_map _

/-- Two lists of the changes from `old` to `new` hold the same entries. -/
theorem perm (h₁ : IsDiff old new l₁) (h₂ : IsDiff old new l₂) : l₁.Perm l₂ := by
  rw [List.perm_ext_iff_of_nodup h₁.nodup_entries h₂.nodup_entries]
  rintro ⟨q, k⟩
  cases k with
  | add => rw [h₁.add, h₂.add]
  | delete => rw [h₁.delete, h₂.delete]
  | modify => rw [h₁.modify, h₂.modify, h₁.exists_below_iff_direct, h₂.exists_below_iff_direct]

end IsDiff

/-! ## Trees that differ only in the order of children -/

/-- What `addChanges` reads of a node besides its children: its stat and its capabilities. -/
def FileInfo.label (info : FileInfo) : StatT × List UInt8 := (info.stat, info.capability)

/-- Two trees with nodes of the same stat and capabilities at the same paths. -/
def FileInfo.SameNodes (t u : FileInfo) : Prop :=
  ∀ q, (t.walk q).map FileInfo.label = (u.walk q).map FileInfo.label

namespace FileInfo.SameNodes

variable {t u : FileInfo} {q : List String}

theorem symm (h : t.SameNodes u) : u.SameNodes t := fun q => (h q).symm

theorem isSome_iff (h : t.SameNodes u) : (t.walk q).isSome ↔ (u.walk q).isSome := by
  rw [← Option.isSome_map (f := FileInfo.label), h q, Option.isSome_map]

theorem eq_none_iff (h : t.SameNodes u) : t.walk q = none ↔ u.walk q = none := by
  rw [← Option.map_eq_none_iff (f := FileInfo.label), h q, Option.map_eq_none_iff]

theorem walk_some (h : t.SameNodes u) {m : FileInfo} (hm : t.walk q = some m) :
    ∃ m', u.walk q = some m' ∧ m.label = m'.label := by
  have hmap := h q
  rw [hm, Option.map_some] at hmap
  obtain ⟨m', hm', hlabel⟩ := Option.map_eq_some_iff.mp hmap.symm
  exact ⟨m', hm', hlabel.symm⟩

end FileInfo.SameNodes

theorem isDir_congr {m m' : FileInfo} (h : m.label = m'.label) (path : List String) :
    m.isDir path = m'.isDir path := by
  have hstat : m.stat = m'.stat := congrArg Prod.fst h
  simp only [FileInfo.isDir, hstat]

theorem changed_congr {om om' m m' : FileInfo} (ho : om.label = om'.label)
    (hm : m.label = m'.label) : changed om m = changed om' m' := by
  simp only [FileInfo.label, Prod.mk.injEq] at ho hm
  simp only [changed, ho.1, ho.2, hm.1, hm.2]

/-- `IsDiff` reads the two trees only through the labels at each path. -/
theorem IsDiff.congr {old new old' new' : FileInfo} {l : List Change} (h : IsDiff old new l)
    (ho : old.SameNodes old') (hn : new.SameNodes new') : IsDiff old' new' l where
  add q := by rw [h.add, hn.isSome_iff, ho.eq_none_iff]
  delete q := by
    have key : ∀ {n n' o o' : FileInfo}, n.SameNodes n' → o.SameNodes o' →
        (∃ q' y m, q = q' ++ [y] ∧ n.walk q' = some m ∧ m.isDir q' = true ∧ (o.walk q').isSome) →
        ∃ q' y m, q = q' ++ [y] ∧ n'.walk q' = some m ∧ m.isDir q' = true ∧
          (o'.walk q').isSome := by
      rintro n n' o o' hn ho ⟨q', y, m, hq, hm, hdir, hold⟩
      obtain ⟨m', hm', hl⟩ := hn.walk_some hm
      exact ⟨q', y, m', hq, hm', isDir_congr hl q' ▸ hdir, ho.isSome_iff.mp hold⟩
    rw [h.delete, ho.isSome_iff, hn.eq_none_iff]
    exact and_congr_right fun _ => and_congr_right fun _ => ⟨key hn ho, key hn.symm ho.symm⟩
  modify q := by
    have key : ∀ {n n' o o' : FileInfo}, n.SameNodes n' → o.SameNodes o' →
        (∃ m om, n.walk q = some m ∧ o.walk q = some om ∧ (changed om m = true ∨
          (m.isDir q = true ∧ ∃ e ∈ l, IsAncestor q e.path))) →
        ∃ m om, n'.walk q = some m ∧ o'.walk q = some om ∧ (changed om m = true ∨
          (m.isDir q = true ∧ ∃ e ∈ l, IsAncestor q e.path)) := by
      rintro n n' o o' hn ho ⟨m, om, hm, hom, hcond⟩
      obtain ⟨m', hm', hl⟩ := hn.walk_some hm
      obtain ⟨om', hom', hol⟩ := ho.walk_some hom
      exact ⟨m', om', hm', hom', by rwa [← changed_congr hol hl, ← isDir_congr hl]⟩
    rw [h.modify]
    exact and_congr_right fun _ => ⟨key hn ho, key hn.symm ho.symm⟩
  nodup := h.nodup
  ancestorsFirst := h.ancestorsFirst

theorem FileInfo.SameNodes.of_perm {name : String} {stat : StatT} {capability : List UInt8}
    {cs cs' : List FileInfo} (hperm : cs.Perm cs') (hnd : (cs.map FileInfo.name).Nodup) :
    (FileInfo.mk name stat capability cs).SameNodes (.mk name stat capability cs') := by
  intro q
  cases q with
  | nil => rfl
  | cons x r =>
    have hchild : (FileInfo.mk name stat capability cs).child x =
        (FileInfo.mk name stat capability cs').child x := by
      simp only [FileInfo.child, FileInfo.children]
      cases hc : cs.find? (·.name == x) with
      | some c =>
        have hx : c.name = x := by simpa using List.find?_some hc
        subst hx
        exact (find?_key_eq_some ((hperm.map _).nodup_iff.mp hnd)
          (hperm.subset (List.mem_of_find?_eq_some hc))).symm
      | none =>
        rw [List.find?_eq_none] at hc
        exact (List.find?_eq_none.mpr fun d hd => hc d (hperm.symm.subset hd)).symm
    simp only [FileInfo.walk_cons, hchild]

/-- `Changes` does not depend on the order in which `range` visits the children maps: trees
with the same nodes at the same paths give the same changes, up to order. -/
theorem changes_perm {new old new' old' : FileInfo} (hn : new.Distinct) (ho : old.Distinct)
    (hd : new.DirsOnly []) (hn' : new'.Distinct) (ho' : old'.Distinct) (hd' : new'.DirsOnly [])
    (hnew : new.SameNodes new') (hold : old.SameNodes old') :
    (new.changes (some old)).Perm (new'.changes (some old')) :=
  ((changes_isDiff hn ho hd).congr hold hnew).perm (changes_isDiff hn' ho' hd')

/-! ## Checking the hypotheses on a given tree -/

namespace FileInfo

mutual

/-- `Distinct`, checked node by node. -/
def distinctCheck : FileInfo → Bool
  | .mk _ _ _ children => decide (children.map FileInfo.name).Nodup && distinctCheckAll children

def distinctCheckAll : List FileInfo → Bool
  | [] => true
  | c :: cs => c.distinctCheck && distinctCheckAll cs

end

mutual

/-- `DirsOnly`, checked node by node. -/
def dirsOnlyCheck : FileInfo → List String → Bool
  | info@(.mk _ _ _ children), path =>
    (children.isEmpty || info.isDir path) && dirsOnlyCheckAll children path

def dirsOnlyCheckAll : List FileInfo → List String → Bool
  | [], _ => true
  | c :: cs, path => c.dirsOnlyCheck (path ++ [c.name]) && dirsOnlyCheckAll cs path

end

theorem distinctCheckAll_iff {cs : List FileInfo} :
    distinctCheckAll cs = true ↔ ∀ c ∈ cs, c.distinctCheck = true := by
  induction cs with
  | nil => simp [distinctCheckAll]
  | cons c cs ih => simp [distinctCheckAll, ih]

theorem dirsOnlyCheckAll_iff {cs : List FileInfo} {path : List String} :
    dirsOnlyCheckAll cs path = true ↔ ∀ c ∈ cs, c.dirsOnlyCheck (path ++ [c.name]) = true := by
  induction cs with
  | nil => simp [dirsOnlyCheckAll]
  | cons c cs ih => simp [dirsOnlyCheckAll, ih]

theorem distinct_of_check {t : FileInfo} (h : t.distinctCheck = true) : t.Distinct := by
  intro q
  induction q generalizing t with
  | nil =>
    intro m hm
    rw [walk_nil, Option.some.injEq] at hm
    subst hm
    obtain ⟨name, stat, capability, children⟩ := t
    simp only [distinctCheck, Bool.and_eq_true, decide_eq_true_eq] at h
    exact h.1
  | cons x r ih =>
    intro m hm
    obtain ⟨c, hc, hwalk⟩ := Option.bind_eq_some_iff.mp hm
    have hcm := (mem_of_child hc).1
    obtain ⟨name, stat, capability, children⟩ := t
    simp only [distinctCheck, Bool.and_eq_true, distinctCheckAll_iff] at h
    exact ih (h.2 c hcm) m hwalk

theorem dirsOnly_of_check {t : FileInfo} {path : List String} (h : t.dirsOnlyCheck path = true) :
    t.DirsOnly path := by
  intro q
  induction q generalizing t path with
  | nil =>
    intro m hm hne
    rw [walk_nil, Option.some.injEq] at hm
    subst hm
    obtain ⟨name, stat, capability, children⟩ := t
    simp only [dirsOnlyCheck, Bool.and_eq_true, Bool.or_eq_true, List.isEmpty_iff] at h
    simpa using h.1.resolve_left hne
  | cons x r ih =>
    intro m hm hne
    obtain ⟨c, hc, hwalk⟩ := Option.bind_eq_some_iff.mp hm
    obtain ⟨hcm, rfl⟩ := mem_of_child hc
    obtain ⟨name, stat, capability, children⟩ := t
    simp only [dirsOnlyCheck, Bool.and_eq_true, dirsOnlyCheckAll_iff] at h
    simpa using ih (h.2 c hcm) m hwalk hne

end FileInfo

/-! ## A layer diff -/

def dirStat : StatT := ⟨0o40755, 0, 0, 0, 4096, ⟨0, 0⟩⟩

def fileStat (size : Int) : StatT := ⟨0o100644, 0, 0, 0, size, ⟨0, 0⟩⟩

/-- A root with `/etc/hosts` and `/tmp`. -/
def etcOld : FileInfo := .mk "/" dirStat [] [
  .mk "etc" dirStat [] [.mk "hosts" (fileStat 10) [] []],
  .mk "tmp" (fileStat 0) [] []]

/-- `/etc/hosts` rewritten, `/etc/passwd` and `/var` added, `/tmp` removed. -/
def etcNew : FileInfo := .mk "/" dirStat [] [
  .mk "etc" dirStat [] [.mk "hosts" (fileStat 20) [] [], .mk "passwd" (fileStat 5) [] []],
  .mk "var" dirStat [] []]

example : etcNew.changes (some etcOld) =
    [⟨["etc"], .modify⟩, ⟨["etc", "hosts"], .modify⟩, ⟨["etc", "passwd"], .add⟩,
      ⟨["var"], .add⟩, ⟨["tmp"], .delete⟩] := by
  decide +kernel

example : IsDiff etcOld etcNew (etcNew.changes (some etcOld)) :=
  changes_isDiff (FileInfo.distinct_of_check (by decide +kernel))
    (FileInfo.distinct_of_check (by decide +kernel)) (FileInfo.dirsOnly_of_check (by decide +kernel))

theorem changes_perm_etc :
    (etcNew.changes (some etcOld)).Perm
      ((FileInfo.mk "/" dirStat [] etcNew.children.reverse).changes
        (some (.mk "/" dirStat [] etcOld.children.reverse))) :=
  changes_perm (FileInfo.distinct_of_check (by decide +kernel))
    (FileInfo.distinct_of_check (by decide +kernel)) (FileInfo.dirsOnly_of_check (by decide +kernel))
    (FileInfo.distinct_of_check (by decide +kernel)) (FileInfo.distinct_of_check (by decide +kernel))
    (FileInfo.dirsOnly_of_check (by decide +kernel))
    (FileInfo.SameNodes.of_perm (List.reverse_perm _).symm (by decide +kernel))
    (FileInfo.SameNodes.of_perm (List.reverse_perm _).symm (by decide +kernel))

end Docker.Archive
