import Mathlib
import Docker.Reasoning.PathOrder

/-!
# Changes — the tree diff of `pkg/archive/changes.go`

`ChangesDirs` scans two directories into `FileInfo` trees and lists what changed from the old tree
to the new one with `FileInfo.Changes`.  `addChanges` walks the new tree and the old one together:
a new node with no old node is added; a child whose stat or capabilities differ is modified; an old
child the new directory no longer holds is deleted; and a directory with changes below it that was
not itself recorded is put in front of them as modified.

A node's `children` map is a list here, in the order a `range` over the map visits it; every
theorem holds for every order.  A node's path is the list of names from the root, so the root's
path is `[]`.  The `added` field a parent sets on a child is the `added` argument of `addChanges`,
and `parent` is not kept: the path stands for it.
-/

namespace Docker.Archive

open Reasoning.PathOrder

/-! ## 1. The model -/

/-- `syscall.S_IFDIR` -/
def sIFDIR : Nat := 0o40000

/-- A `syscall.Timespec`. -/
structure Timespec where
  sec : Int
  nsec : Int
  deriving DecidableEq

/-- A `system.StatT`. -/
structure StatT where
  mode : Nat
  uid : Nat
  gid : Nat
  rdev : Nat
  size : Int
  mtim : Timespec
  deriving DecidableEq

inductive ChangeType
  | modify
  | add
  | delete
  deriving DecidableEq, Repr

structure Change where
  path : List String
  kind : ChangeType
  deriving DecidableEq

/-- A `FileInfo`: a name, a stat, the `security.capability` attribute and the children. -/
inductive FileInfo
  | mk (name : String) (stat : StatT) (capability : List UInt8) (children : List FileInfo)

namespace FileInfo

def name : FileInfo → String
  | mk name _ _ _ => name

def stat : FileInfo → StatT
  | mk _ stat _ _ => stat

def capability : FileInfo → List UInt8
  | mk _ _ capability _ => capability

def children : FileInfo → List FileInfo
  | mk _ _ _ children => children

/-- `info.children[elem]` -/
def child (info : FileInfo) (elem : String) : Option FileInfo :=
  info.children.find? (·.name == elem)

/-- The loop of `LookUp` over the elements of a path. -/
def walk (info : FileInfo) : List String → Option FileInfo
  | [] => some info
  | elem :: rest => (info.child elem).bind (·.walk rest)

/-- `info.LookUp(path)`: the empty elements of the split path are skipped. -/
def lookUp (info : FileInfo) (path : String) : Option FileInfo :=
  if path = "/" then some info else info.walk ((path.splitOn "/").filter (· ≠ ""))

/-- `info.isDir()`; the root is the node whose path is empty. -/
def isDir (info : FileInfo) (path : List String) : Bool :=
  path.isEmpty || info.stat.mode &&& sIFDIR != 0

end FileInfo

def sameFsTimeSpec (a b : Timespec) : Bool :=
  a.sec == b.sec && (a.nsec == b.nsec || a.nsec == 0 || b.nsec == 0)

def statDifferent (oldStat newStat : StatT) : Bool :=
  oldStat.mode != newStat.mode || oldStat.uid != newStat.uid || oldStat.gid != newStat.gid ||
    oldStat.rdev != newStat.rdev ||
    -- Don't look at size for dirs, its not a good measure of change
    (oldStat.mode &&& sIFDIR != sIFDIR &&
      (!sameFsTimeSpec oldStat.mtim newStat.mtim || oldStat.size != newStat.size))

/-- The test `addChanges` makes on a child found in both trees. -/
def changed (oldChild newChild : FileInfo) : Bool :=
  statDifferent oldChild.stat newChild.stat || oldChild.capability != newChild.capability

/-- The copy of the old children `addChanges` consumes: only a new directory looks at them. -/
def oldChildrenOf (info : FileInfo) (oldInfo : Option FileInfo) (path : List String) :
    List FileInfo :=
  match oldInfo with
  | some oldInfo => if info.isDir path then oldInfo.children else []
  | none => []

mutual

/-- `info.addChanges(oldInfo, changes)`, with `added` the `info.added` flag on entry. -/
def addChanges : FileInfo → Option FileInfo → Bool → List String → List Change → List Change
  | info@(.mk _ _ _ children), oldInfo, added, path, changes =>
    let sizeAtEntry := changes.length
    let changes := if oldInfo.isNone then changes ++ [⟨path, .add⟩] else changes
    let added := added || oldInfo.isNone
    let (changes, oldChildren) :=
      addChildrenChanges children (oldChildrenOf info oldInfo path) path changes
    let changes := changes ++ oldChildren.map fun oldChild => ⟨path ++ [oldChild.name], .delete⟩
    -- the directory entry goes in front of the entries recorded inside it
    if changes.length > sizeAtEntry ∧ info.isDir path ∧ !added ∧ path ≠ [] then
      changes.take sizeAtEntry ++ ⟨path, .modify⟩ :: changes.drop sizeAtEntry
    else changes

/-- The loop `for name, newChild := range info.children` of `addChanges`, which takes each matched
old child out of `oldChildren`. -/
def addChildrenChanges : List FileInfo → List FileInfo → List String → List Change →
    List Change × List FileInfo
  | [], oldChildren, _, changes => (changes, oldChildren)
  | newChild :: rest, oldChildren, path, changes =>
    match oldChildren.find? (·.name == newChild.name) with
    | some oldChild =>
      let changes :=
        if changed oldChild newChild then changes ++ [⟨path ++ [newChild.name], .modify⟩]
        else changes
      let changes :=
        addChanges newChild (some oldChild) (changed oldChild newChild) (path ++ [newChild.name])
          changes
      addChildrenChanges rest (oldChildren.filter (·.name != newChild.name)) path changes
    | none =>
      addChildrenChanges rest oldChildren path
        (addChanges newChild none false (path ++ [newChild.name]) changes)

end

/-- `info.Changes(oldInfo)` -/
def FileInfo.changes (info : FileInfo) (oldInfo : Option FileInfo) : List Change :=
  addChanges info oldInfo false [] []

/-! ## 2. The accumulator

`addChanges` appends to the slice it is given and inserts a directory's entry at the length the
slice had on entry, so what the slice held before the call stays in front, untouched. -/

theorem ite_append_singleton (b : Bool) (l : List Change) (c : Change) :
    (if b then l ++ [c] else l) = l ++ if b then [c] else [] := by
  cases b <;> simp

/-- Inserting at the length the accumulator had on entry leaves what it held before that. -/
theorem insert_append_left {α : Type} (cs ds xs : List α) (c : α) (Q : Prop) [Decidable Q] :
    (if (cs ++ xs).length > (cs ++ ds).length ∧ Q then
      (cs ++ xs).take (cs ++ ds).length ++ c :: (cs ++ xs).drop (cs ++ ds).length
    else cs ++ xs) =
    cs ++ if xs.length > ds.length ∧ Q then xs.take ds.length ++ c :: xs.drop ds.length else xs := by
  simp only [List.length_append, gt_iff_lt, Nat.add_lt_add_iff_left,
    List.take_length_add_append, List.drop_length_add_append, List.append_assoc]
  split_ifs <;> rfl

mutual

theorem addChanges_append : ∀ (info : FileInfo) (oldInfo : Option FileInfo) (added : Bool)
    (path : List String) (cs ds : List Change),
    addChanges info oldInfo added path (cs ++ ds) = cs ++ addChanges info oldInfo added path ds
  | .mk name stat cap children, oldInfo, added, path, cs, ds => by
    simp only [addChanges, ite_append_singleton]
    simp only [List.append_assoc]
    rw [addChildrenChanges_append children _ path cs]
    simp only [List.append_assoc]
    exact insert_append_left _ _ _ _ _

theorem addChildrenChanges_append : ∀ (newChildren oldChildren : List FileInfo)
    (path : List String) (cs ds : List Change),
    addChildrenChanges newChildren oldChildren path (cs ++ ds) =
      (cs ++ (addChildrenChanges newChildren oldChildren path ds).1,
        (addChildrenChanges newChildren oldChildren path ds).2)
  | [], oldChildren, path, cs, ds => by simp [addChildrenChanges]
  | newChild :: rest, oldChildren, path, cs, ds => by
    simp only [addChildrenChanges]
    split
    · simp only [ite_append_singleton]
      simp only [List.append_assoc, addChanges_append newChild _ _ _ cs,
        addChildrenChanges_append rest _ path cs]
    · simp only [addChanges_append newChild _ _ _ cs, addChildrenChanges_append rest _ path cs]

end

theorem addChanges_eq_append (info : FileInfo) (oldInfo : Option FileInfo) (added : Bool)
    (path : List String) (changes : List Change) :
    addChanges info oldInfo added path changes = changes ++ addChanges info oldInfo added path [] := by
  simpa using addChanges_append info oldInfo added path changes []

theorem addChildrenChanges_eq_append (newChildren oldChildren : List FileInfo)
    (path : List String) (changes : List Change) :
    addChildrenChanges newChildren oldChildren path changes =
      (changes ++ (addChildrenChanges newChildren oldChildren path []).1,
        (addChildrenChanges newChildren oldChildren path []).2) := by
  simpa using addChildrenChanges_append newChildren oldChildren path changes []

/-! ## 3. Trees -/

section Induction

mutual

/-- Induction over a tree, with a hypothesis for every child. -/
theorem FileInfo.recAll {motive : FileInfo → Prop}
    (mk : ∀ name stat capability children, (∀ c ∈ children, motive c) →
      motive (.mk name stat capability children)) :
    ∀ info, motive info
  | .mk name stat capability children =>
    mk name stat capability children (FileInfo.recAllChildren mk children)

theorem FileInfo.recAllChildren {motive : FileInfo → Prop}
    (mk : ∀ name stat capability children, (∀ c ∈ children, motive c) →
      motive (.mk name stat capability children)) :
    ∀ children : List FileInfo, ∀ c ∈ children, motive c
  | [] => fun _ h => absurd h List.not_mem_nil
  | c :: cs => fun d hd =>
    (List.mem_cons.mp hd).elim (fun h => h ▸ FileInfo.recAll mk c)
      (FileInfo.recAllChildren mk cs d)

end

end Induction

namespace FileInfo

variable {info c m : FileInfo} {x : String} {q path : List String}

@[simp] theorem walk_nil : info.walk [] = some info := rfl

@[simp] theorem walk_cons : info.walk (x :: q) = (info.child x).bind (·.walk q) := rfl

/-- One child per name at every node: a `children` map has one entry per key. -/
def Distinct (info : FileInfo) : Prop :=
  ∀ q m, info.walk q = some m → (m.children.map name).Nodup

/-- Only directories have children: `collectFileInfoForChanges` reads the entries of
directories only.  `path` is the path of `info`, so the root counts as a directory. -/
def DirsOnly (info : FileInfo) (path : List String) : Prop :=
  ∀ q m, info.walk q = some m → m.children ≠ [] → m.isDir (path ++ q) = true

theorem Distinct.nodup (h : info.Distinct) : (info.children.map name).Nodup := h [] info rfl

theorem mem_of_child (hc : info.child x = some c) : c ∈ info.children ∧ c.name = x :=
  ⟨List.mem_of_find?_eq_some hc, by simpa using List.find?_some hc⟩

theorem child_of_mem (h : (info.children.map name).Nodup) (hc : c ∈ info.children) :
    info.child c.name = some c :=
  find?_key_eq_some h hc

theorem Distinct.child (h : info.Distinct) (hc : info.child x = some c) : c.Distinct :=
  fun q m hm => h (x :: q) m (by simp [hc, hm])

theorem DirsOnly.child (h : info.DirsOnly path) (hc : info.child x = some c) :
    c.DirsOnly (path ++ [x]) :=
  fun q m hm hne => by simpa using h (x :: q) m (by simp [hc, hm]) hne

theorem DirsOnly.isDir (h : info.DirsOnly path) (hc : info.child x = some c) :
    info.isDir path = true := by
  simpa using h [] info rfl (List.ne_nil_of_mem (mem_of_child hc).1)

theorem Distinct.of_mem (h : info.Distinct) (hc : c ∈ info.children) :
    c.Distinct :=
  h.child (child_of_mem h.nodup hc)

theorem walk_append (info : FileInfo) (q r : List String) :
    info.walk (q ++ r) = (info.walk q).bind (·.walk r) := by
  induction q generalizing info with
  | nil => simp
  | cons x q ih => simp [ih, Option.bind_assoc]


end FileInfo

theorem bind_walk_cons (o : Option FileInfo) (x : String) (r : List String) :
    o.bind (·.walk (x :: r)) = (o.bind (·.child x)).bind (·.walk r) := by
  cases o <;> simp

/-! ## 4. One level of `addChanges` -/

/-- What the loop of `addChanges` records for one new child, looked up among `oldChildren`. -/
def childChanges (oldChildren : List FileInfo) (path : List String) (newChild : FileInfo) :
    List Change :=
  match oldChildren.find? (·.name == newChild.name) with
  | some oldChild =>
    (if changed oldChild newChild then [⟨path ++ [newChild.name], .modify⟩] else []) ++
      addChanges newChild (some oldChild) (changed oldChild newChild) (path ++ [newChild.name]) []
  | none => addChanges newChild none false (path ++ [newChild.name]) []

/-- The old children no new child matches by name. -/
def unmatched (newChildren oldChildren : List FileInfo) : List FileInfo :=
  oldChildren.filter fun oldChild => !newChildren.any (·.name == oldChild.name)

theorem childChanges_filter {oldChildren : List FileInfo} {x : String} {path : List String}
    {c : FileInfo} (hx : c.name ≠ x) :
    childChanges (oldChildren.filter (·.name != x)) path c = childChanges oldChildren path c := by
  have hfind : (oldChildren.filter (·.name != x)).find? (·.name == c.name) =
      oldChildren.find? (·.name == c.name) := by
    rw [List.find?_filter]
    apply List.find?_congr
    intro o _
    by_cases ho : o.name = c.name <;> simp [ho, hx]
  simp only [childChanges, hfind]

/-- The loop over the new children, when their names are distinct. -/
theorem addChildrenChanges_eq {newChildren : List FileInfo} (h : (newChildren.map FileInfo.name).Nodup)
    (oldChildren : List FileInfo) (path : List String) :
    addChildrenChanges newChildren oldChildren path [] =
      (newChildren.flatMap (childChanges oldChildren path), unmatched newChildren oldChildren) := by
  induction newChildren generalizing oldChildren with
  | nil => simp [addChildrenChanges, unmatched]
  | cons c rest ih =>
    rw [List.map_cons, List.nodup_cons] at h
    have hrest : ∀ d ∈ rest, d.name ≠ c.name := fun d hd hdc => h.1 (hdc ▸ List.mem_map_of_mem hd)
    simp only [addChildrenChanges]
    split
    · rename_i oc hoc
      have hblocks : rest.flatMap (childChanges (oldChildren.filter (·.name != c.name)) path) =
          rest.flatMap (childChanges oldChildren path) :=
        List.flatMap_congr fun d hd => childChanges_filter (hrest d hd)
      have hleft : unmatched rest (oldChildren.filter (·.name != c.name)) =
          unmatched (c :: rest) oldChildren := by
        simp only [unmatched, List.filter_filter, List.any_cons]
        apply List.filter_congr
        intro o _
        rcases eq_or_ne o.name c.name with ho | ho
        · simp [ho]
        · have h1 : (o.name != c.name) = true := bne_iff_ne.mpr ho
          have h2 : (c.name == o.name) = false := beq_false_of_ne ho.symm
          simp [h1, h2, Bool.and_comm]
      rw [addChildrenChanges_eq_append, ih h.2, hblocks, hleft, addChanges_eq_append]
      simp [childChanges, hoc]
    · rename_i hoc
      have hnone : ∀ o ∈ oldChildren, ¬ o.name = c.name := by simpa using List.find?_eq_none.mp hoc
      have hleft : unmatched rest oldChildren = unmatched (c :: rest) oldChildren := by
        simp only [unmatched, List.any_cons]
        apply List.filter_congr
        intro o ho
        have h2 : (c.name == o.name) = false := beq_false_of_ne (Ne.symm (hnone o ho))
        simp [h2]
      rw [addChildrenChanges_eq_append, ih h.2, hleft]
      simp [childChanges, hoc]

/-- What `addChanges` records strictly below a node: the block of each new child, then the
deleted old children. -/
def belowChanges (info : FileInfo) (oldInfo : Option FileInfo) (path : List String) :
    List Change :=
  info.children.flatMap (childChanges (oldChildrenOf info oldInfo path) path) ++
    (unmatched info.children (oldChildrenOf info oldInfo path)).map
      fun oldChild => ⟨path ++ [oldChild.name], .delete⟩

theorem belowChanges_mk (name : String) (stat : StatT) (capability : List UInt8)
    (children : List FileInfo) (oldInfo : Option FileInfo) (path : List String) :
    belowChanges (.mk name stat capability children) oldInfo path =
      children.flatMap
          (childChanges (oldChildrenOf (.mk name stat capability children) oldInfo path) path) ++
        (unmatched children (oldChildrenOf (.mk name stat capability children) oldInfo path)).map
          fun oldChild => ⟨path ++ [oldChild.name], .delete⟩ := rfl

section OneLevel

variable {info : FileInfo} {added : Bool} {path : List String}

/-- An added node: its entry, then what lies below it. -/
theorem addChanges_none (h : (info.children.map FileInfo.name).Nodup) :
    addChanges info none added path [] = ⟨path, .add⟩ :: belowChanges info none path := by
  obtain ⟨name, stat, capability, children⟩ := info
  simp only [FileInfo.children] at h
  simp only [addChanges, Option.isNone_none, if_true, List.nil_append, Bool.or_true, Bool.not_true]
  rw [addChildrenChanges_eq_append, addChildrenChanges_eq h]
  simp [belowChanges, FileInfo.children]

/-- A node found in the old tree: what lies below it, after its own entry if it is a directory
with changes below that nothing recorded for itself. -/
theorem addChanges_some (h : (info.children.map FileInfo.name).Nodup) (oldInfo : FileInfo) :
    addChanges info (some oldInfo) added path [] =
      (if belowChanges info (some oldInfo) path ≠ [] ∧ info.isDir path = true ∧ added = false ∧
          path ≠ [] then [⟨path, .modify⟩] else []) ++
        belowChanges info (some oldInfo) path := by
  obtain ⟨name, stat, capability, children⟩ := info
  simp only [FileInfo.children] at h
  simp only [addChanges, Option.isNone_some, Bool.false_eq_true, ↓reduceIte, Bool.or_false]
  rw [addChildrenChanges_eq h, ← belowChanges_mk]
  simp only [List.length_nil, gt_iff_lt, List.length_pos_iff, Bool.not_eq_true', List.take_zero,
    List.drop_zero, List.nil_append]
  split_ifs <;> rfl


/-- A node compared with an old node it changed from: nothing more is recorded at its path. -/
theorem addChanges_some_true (h : (info.children.map FileInfo.name).Nodup) (oldInfo : FileInfo) :
    addChanges info (some oldInfo) true path [] = belowChanges info (some oldInfo) path := by
  rw [addChanges_some h]
  simp

end OneLevel

theorem mem_unmatched {newChildren oldChildren : List FileInfo} {o : FileInfo} :
    o ∈ unmatched newChildren oldChildren ↔ o ∈ oldChildren ∧ ∀ c ∈ newChildren, c.name ≠ o.name := by
  simp [unmatched]

theorem childChanges_eq (oldChildren : List FileInfo) (path : List String) (c : FileInfo) :
    childChanges oldChildren path c =
      (if (oldChildren.find? (·.name == c.name)).any (changed · c) then
        [⟨path ++ [c.name], .modify⟩] else []) ++
        addChanges c (oldChildren.find? (·.name == c.name))
          ((oldChildren.find? (·.name == c.name)).any (changed · c)) (path ++ [c.name]) [] := by
  unfold childChanges
  split <;> rename_i h <;> simp [h]

/-! ## 5. Where the entries lie -/

section Placement

variable {info c : FileInfo} {oldChildren : List FileInfo} {oldInfo : Option FileInfo}
  {path : List String}

theorem childChanges_under (hc : ∀ o a p, ∀ e ∈ addChanges c o a p [], p <+: e.path) :
    ∀ e ∈ childChanges oldChildren path c, path ++ [c.name] <+: e.path := by
  intro e he
  unfold childChanges at he
  split at he
  · rcases List.mem_append.mp he with hm | hm
    · split at hm
      · obtain rfl := List.mem_singleton.mp hm
        exact List.prefix_refl _
      · cases hm
    · exact hc _ _ _ e hm
  · exact hc _ _ _ e he

theorem belowChanges_isAncestor
    (hc : ∀ c ∈ info.children, ∀ o a p, ∀ e ∈ addChanges c o a p [], p <+: e.path) :
    ∀ e ∈ belowChanges info oldInfo path, IsAncestor path e.path := by
  intro e he
  rcases List.mem_append.mp he with hm | hm
  · obtain ⟨c, hcm, he'⟩ := List.mem_flatMap.mp hm
    exact (isAncestor_append_singleton path c.name).extend (childChanges_under (hc c hcm) e he')
  · obtain ⟨o, -, rfl⟩ := List.mem_map.mp hm
    exact isAncestor_append_singleton path o.name

/-- Every entry lies at or below the node's path. -/
theorem addChanges_under (info : FileInfo) (hi : info.Distinct) :
    ∀ o a path, ∀ e ∈ addChanges info o a path [], path <+: e.path := by
  induction info using FileInfo.recAll with
  | mk name stat capability children ih =>
    intro o a path e he
    have hn := hi.nodup
    have hc : ∀ c ∈ (FileInfo.mk name stat capability children).children, ∀ o a p,
        ∀ e ∈ addChanges c o a p [], p <+: e.path :=
      fun c hcm => ih c hcm (hi.child (FileInfo.child_of_mem hn hcm))
    have hbelow : ∀ e ∈ belowChanges (.mk name stat capability children) o path,
        IsAncestor path e.path :=
      belowChanges_isAncestor hc
    cases o with
    | none =>
      rw [addChanges_none hn] at he
      rcases List.mem_cons.mp he with rfl | hm
      · exact List.prefix_refl _
      · exact (hbelow e hm).1
    | some oldInfo =>
      rw [addChanges_some hn] at he
      rcases List.mem_append.mp he with hm | hm
      · split at hm
        · obtain rfl := List.mem_singleton.mp hm
          exact List.prefix_refl _
        · cases hm
      · exact (hbelow e hm).1

end Placement

theorem belowChanges_isAncestor_of_distinct {info : FileInfo} {oldInfo : Option FileInfo}
    {path : List String} (hi : info.Distinct) :
    ∀ e ∈ belowChanges info oldInfo path, IsAncestor path e.path :=
  belowChanges_isAncestor fun c hcm => addChanges_under c (hi.of_mem hcm)

/-! ## 6. No path twice, ancestors first -/

/-- What the old children `addChanges` looks at inherit from a well-formed old node. -/
theorem oldChildrenOf_distinct {info : FileInfo} {oldInfo : Option FileInfo} {path : List String}
    (ho : ∀ old ∈ oldInfo, old.Distinct) :
    ((oldChildrenOf info oldInfo path).map FileInfo.name).Nodup ∧
      ∀ o ∈ oldChildrenOf info oldInfo path, o.Distinct := by
  cases oldInfo with
  | none => simp [oldChildrenOf]
  | some old =>
    have hold := ho old rfl
    simp only [oldChildrenOf]
    split
    · exact ⟨hold.nodup, fun o hmem => hold.of_mem hmem⟩
    · simp

section Pairwise

variable {R : List String → List String → Prop} {info c : FileInfo}
  {oldChildren : List FileInfo} {oldInfo : Option FileInfo} {path : List String}

theorem childChanges_pairwise (hD : Downward R) (hc : c.Distinct)
    (hpw : ∀ o, (∀ old ∈ o, FileInfo.Distinct old) → ∀ a p,
      ((addChanges c o a p []).map (·.path)).Pairwise R)
    (hold : ∀ o ∈ oldChildren, o.Distinct) :
    ((childChanges oldChildren path c).map (·.path)).Pairwise R := by
  unfold childChanges
  split
  · rename_i oc hoc
    have hoc' : ∀ old ∈ some oc, FileInfo.Distinct old := by
      simpa using hold oc (List.mem_of_find?_eq_some hoc)
    split
    · -- the parent records the modification, so the child records nothing at its own path
      rename_i hch
      have hpw' := hpw _ hoc' true (path ++ [c.name])
      rw [hch, addChanges_some_true hc.nodup] at *
      rw [List.singleton_append, List.map_cons]
      refine pairwise_cons_of_below hD ?_ hpw'
      intro y hy
      obtain ⟨e, he, rfl⟩ := List.mem_map.mp hy
      exact belowChanges_isAncestor_of_distinct hc e he
    · exact hpw _ hoc' _ _
  · exact hpw none (by simp) _ _

theorem belowChanges_pairwise (hR : Unrelated R) (hi : info.Distinct)
    (ho : ∀ old ∈ oldInfo, old.Distinct)
    (hblocks : ∀ c ∈ info.children,
      ((childChanges (oldChildrenOf info oldInfo path) path c).map (·.path)).Pairwise R) :
    ((belowChanges info oldInfo path).map (·.path)).Pairwise R := by
  have hnodup : ((oldChildrenOf info oldInfo path).map FileInfo.name).Nodup :=
    (oldChildrenOf_distinct ho).1
  unfold belowChanges
  rw [List.map_append, List.map_flatMap, List.map_map]
  apply pairwise_append_of_keys hR (p := path)
  · apply pairwise_flatMap_of_keys hR path FileInfo.name _ hi.nodup
    · intro c hcm x hx
      obtain ⟨e, he, rfl⟩ := List.mem_map.mp hx
      exact childChanges_under (addChanges_under c (hi.of_mem hcm)) e he
    · exact hblocks
  · -- the deleted children have distinct names
    have hdel : ((unmatched info.children (oldChildrenOf info oldInfo path)).map
        FileInfo.name).Nodup :=
      hnodup.sublist ((List.filter_sublist).map _)
    rw [List.pairwise_map]
    refine (List.pairwise_map.mp (List.nodup_iff_pairwise_ne.mp hdel)).imp ?_
    intro a b hab
    exact hR.of_diverge (List.prefix_refl _) (List.prefix_refl _) hab
  · intro x hx y hy
    obtain ⟨c, hcm, hx⟩ := List.mem_flatMap.mp hx
    obtain ⟨e, he, rfl⟩ := List.mem_map.mp hx
    obtain ⟨o, hom, rfl⟩ := List.mem_map.mp hy
    exact ⟨c.name, o.name,
      childChanges_under (addChanges_under c (hi.of_mem hcm)) e he, List.prefix_refl _,
      (mem_unmatched.mp hom).2 c hcm⟩

/-- The paths of what `addChanges` records are related pairwise by any relation that holds
between unrelated paths and from an ancestor down. -/
theorem addChanges_pairwise (hR : Unrelated R) (hD : Downward R) (info : FileInfo)
    (hi : info.Distinct) :
    ∀ o, (∀ old ∈ o, FileInfo.Distinct old) → ∀ a path,
      ((addChanges info o a path []).map (·.path)).Pairwise R := by
  induction info using FileInfo.recAll with
  | mk name stat capability children ih =>
    intro o ho a path
    have hblocks : ∀ c ∈ (FileInfo.mk name stat capability children).children,
        ((childChanges (oldChildrenOf (.mk name stat capability children) o path) path c).map
          (·.path)).Pairwise R :=
      fun c hcm => childChanges_pairwise hD (hi.of_mem hcm) (ih c hcm (hi.of_mem hcm))
        (oldChildrenOf_distinct ho).2
    have hbelow := belowChanges_pairwise hR hi ho hblocks
    have hhead : ∀ y ∈ (belowChanges (.mk name stat capability children) o path).map (·.path),
        IsAncestor path y := by
      intro y hy
      obtain ⟨e, he, rfl⟩ := List.mem_map.mp hy
      exact belowChanges_isAncestor_of_distinct hi e he
    cases o with
    | none =>
      rw [addChanges_none hi.nodup, List.map_cons]
      exact pairwise_cons_of_below hD hhead hbelow
    | some old =>
      rw [addChanges_some hi.nodup]
      split
      · rw [List.singleton_append, List.map_cons]
        exact pairwise_cons_of_below hD hhead hbelow
      · exact hbelow

end Pairwise

end Docker.Archive
