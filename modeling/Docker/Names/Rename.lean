import Docker.Registrar.Registrar
import Docker.Volume.Store

/-!
# Rename — `daemon/rename.go` over the name registrar

`ContainerRename` holds the container's lock, but the lock does not cover the daemon's
`nameIndex`: each registrar call is atomic on its own, and other requests may reserve and release
names between them.  The model runs the calls of other requests at the three points of the rename
where the registrar is touched again (`RenamePoint`).

On failure the deferred function restores `container.Name`, re-reserves the old name with its
result ignored, and releases the new one.  Run alone, that restores everything
(`containerRename_alone`); when another request takes the released old name first, the container
is left with a name reserved to someone else and no name of its own
(`rename_rollback_loses_name`).
-/

namespace Docker.Names

open Registrar

abbrev NameIndex := Registrar (List Char) (List Char)

/-- `utils.RestrictedNamePattern`: `^/?[a-zA-Z0-9][a-zA-Z0-9_.-]+$`. -/
def validContainerNamePattern (name : List Char) : Bool :=
  match name with
  | '/' :: rest => Volume.restrictedVolumeName rest
  | _ => Volume.restrictedVolumeName name

def validContainerNameChars : List Char := "[a-zA-Z0-9][a-zA-Z0-9_.-]".toList

structure Container where
  name : List Char
  running : Bool
  isAnonymousEndpoint : Bool
  deriving DecidableEq

structure Daemon where
  containers : AList (fun _ : List Char => Container)
  nameIndex : NameIndex
  netController : Bool

inductive ReserveNameError where
  | invalidName (name : List Char)
  | conflict (name id : List Char)
  | lookup (err : RegistrarError)
  | reserving (name : List Char) (err : RegistrarError)
  deriving DecidableEq

def ReserveNameError.message : ReserveNameError → List Char
  | .invalidName name =>
    "Invalid container name (".toList ++ name ++ "), only ".toList ++ validContainerNameChars ++
      " are allowed".toList
  | .conflict name id =>
    "Conflict. The name \"".toList ++ name ++ "\" is already in use by container ".toList ++ id ++
      ". You have to remove (or rename) that container to be able to reuse that name.".toList
  | .lookup err => err.message.toList
  | .reserving name err =>
    "error reserving name: ".toList ++ name ++ ", error: ".toList ++ err.message.toList

inductive RenameError where
  | emptyName
  | noSuchContainer
  | sameName
  | allocating (err : ReserveNameError)
  | toDisk
  | sandbox
  deriving DecidableEq

-- `daemon.reserveName(id, name)`: the registrar's `Reserve`, then `Get` on a conflict
def Daemon.reserveName (d : Daemon) (id name : List Char) :
    Except ReserveNameError (List Char × Daemon) :=
  if !validContainerNamePattern name then .error (.invalidName name)
  else
    let name := if name.head? = some '/' then name else '/' :: name
    match d.nameIndex.reserve name id with
    | .ok r => .ok (name, { d with nameIndex := r })
    | .error .nameReserved =>
      match d.nameIndex.get name with
      | .ok id' => .error (.conflict name id')
      | .error err => .error (.lookup err)
    | .error err => .error (.reserving name err)

def Daemon.releaseName (d : Daemon) (name : List Char) : Daemon :=
  { d with nameIndex := d.nameIndex.release name }

def Daemon.setContainer (d : Daemon) (id : List Char) (c : Container) : Daemon :=
  { d with containers := d.containers.insert id c }

/-! ## 1. `ContainerRename` among other requests -/

-- where other requests' registrar calls may fall while a rename runs
inductive RenamePoint where
  | beforeReleaseOld
  | beforeReserveOld
  | beforeReleaseNew

def Daemon.other (d : Daemon) (ops : List (RegistrarOp (List Char) (List Char))) : Daemon :=
  { d with nameIndex := ops.foldl Registrar.step d.nameIndex }

-- the first deferred function, run when the rename fails after its new name was reserved
def Daemon.renameRollback (d : Daemon) (others : RenamePoint → List (RegistrarOp (List Char) (List Char)))
    (id : List Char) (container : Container) (oldName newName : List Char)
    (oldIsAnonymousEndpoint : Bool) : Daemon :=
  let d := d.setContainer id
    { container with name := oldName, isAnonymousEndpoint := oldIsAnonymousEndpoint }
  let d := d.other (others .beforeReserveOld)
  let d := match d.reserveName id oldName with
    | .ok (_, d') => d'
    | .error _ => d
  let d := d.other (others .beforeReleaseNew)
  d.releaseName newName

/-- `daemon.ContainerRename(oldName, newName)` on the container `id` that `GetContainer(oldName)`
finds.  `toDisk` and `sandboxRename` are the outcomes of `container.ToDisk()` and of looking up and
renaming the network sandbox. -/
def Daemon.containerRename (d : Daemon)
    (others : RenamePoint → List (RegistrarOp (List Char) (List Char)))
    (id oldName newName : List Char) (toDisk sandboxRename : Bool) : Daemon × Option RenameError :=
  if oldName = [] ∨ newName = [] then (d, some .emptyName)
  else
    let newName := if newName.head? = some '/' then newName else '/' :: newName
    match d.containers.lookup id with
    | none => (d, some .noSuchContainer)
    | some container =>
      let oldName := container.name
      let oldIsAnonymousEndpoint := container.isAnonymousEndpoint
      if oldName = newName then (d, some .sameName)
      else
        match d.reserveName id newName with
        | .error err => (d, some (.allocating err))
        | .ok (newName, d) =>
          let renamed := { container with name := newName, isAnonymousEndpoint := false }
          let d := d.setContainer id renamed
          let d := d.other (others .beforeReleaseOld)
          let d := d.releaseName oldName
          let rollback := d.renameRollback others id renamed oldName newName oldIsAnonymousEndpoint
          if !toDisk then (rollback, some .toDisk)
          else if !container.running then (d, none)
          -- the second deferred function restores the name and writes it to disk again; its
          -- error is only logged, and the first one then rolls the names back
          else if d.netController ∧ !sandboxRename then (rollback, some .sandbox)
          else (d, none)

/-! ## 2. The daemon's names -/

/-- Every container's name is reserved to it, starts with `/` and matches the pattern, and the
other names reserved to it (link names `/parent/alias`) do not match the pattern. -/
structure Daemon.NamesOk (d : Daemon) : Prop where
  consistent : d.nameIndex.Consistent
  reserved : ∀ id c, d.containers.lookup id = some c → d.nameIndex.names.lookup c.name = some id
  slash : ∀ id c, d.containers.lookup id = some c → c.name.head? = some '/'
  valid : ∀ id c, d.containers.lookup id = some c → validContainerNamePattern c.name = true
  others_invalid : ∀ id c n, d.containers.lookup id = some c →
    d.nameIndex.names.lookup n = some id → n ≠ c.name → validContainerNamePattern n = false

theorem reserveName_eq_ok {d d' : Daemon} {id name name' : List Char}
    (h : d.reserveName id name = .ok (name', d')) :
    validContainerNamePattern name = true ∧
      name' = (if name.head? = some '/' then name else '/' :: name) ∧
      d'.containers = d.containers ∧ d'.netController = d.netController ∧
      d.nameIndex.reserve name' id = .ok d'.nameIndex := by
  unfold Daemon.reserveName at h
  by_cases hv : validContainerNamePattern name = true
  · rw [if_neg (by simp [hv])] at h
    dsimp only at h
    split at h
    · next r hr =>
      cases h
      exact ⟨hv, rfl, rfl, rfl, hr⟩
    · split at h <;> cases h
    · cases h
  · rw [if_pos (by simpa using hv)] at h
    cases h

-- a name that matches the pattern and is reserved to `id` is `id`'s container's own name
theorem Daemon.NamesOk.fresh_of_reserve {d : Daemon} (hd : d.NamesOk) {id name : List Char}
    {c : Container} {r : NameIndex} (hc : d.containers.lookup id = some c) (hne : name ≠ c.name)
    (hv : validContainerNamePattern name = true) (h : d.nameIndex.reserve name id = .ok r) :
    d.nameIndex.names.lookup name = none ∧
      r = { idx := d.nameIndex.idx.insert id (d.nameIndex.idxOf id ++ [name]),
            names := d.nameIndex.names.insert name id } := by
  rcases reserve_eq_ok_iff.1 h with ⟨hown, -⟩ | hfresh
  · have := hd.others_invalid id c name hc hown hne
    rw [hv] at this
    cases this
  · exact hfresh

/-! ## 3. A rename alone -/

def noOthers : RenamePoint → List (RegistrarOp (List Char) (List Char)) :=
  fun _ => []

@[simp] theorem other_nil (d : Daemon) : d.other [] = d := rfl

@[simp] theorem releaseName_names (d : Daemon) (name n : List Char) :
    (d.releaseName name).nameIndex.names.lookup n =
      if n = name then none else d.nameIndex.names.lookup n :=
  release_names_lookup _ _ _

@[simp] theorem releaseName_containers (d : Daemon) (name : List Char) :
    (d.releaseName name).containers = d.containers := rfl

@[simp] theorem setContainer_nameIndex (d : Daemon) (id : List Char) (c : Container) :
    (d.setContainer id c).nameIndex = d.nameIndex := rfl

theorem setContainer_lookup (d : Daemon) (id id' : List Char) (c : Container) :
    (d.setContainer id c).containers.lookup id' =
      if id' = id then some c else d.containers.lookup id' :=
  AList.lookup_insert_ite _ _ _ _

theorem head_slash (name : List Char) :
    (if name.head? = some '/' then name else '/' :: name).head? = some '/' := by
  split_ifs with h
  · exact h
  · rfl

theorem slash_of_head {name : List Char} (h : name.head? = some '/') :
    (if name.head? = some '/' then name else '/' :: name) = name :=
  if_pos h

theorem reserveName_fresh {d : Daemon} {id name : List Char}
    (hv : validContainerNamePattern name = true) (hs : name.head? = some '/')
    (hfree : d.nameIndex.names.lookup name = none) :
    ∃ r, d.nameIndex.reserve name id = .ok r ∧
      d.reserveName id name = .ok (name, { d with nameIndex := r }) := by
  have hres : d.nameIndex.reserve name id =
      .ok ⟨d.nameIndex.idx.insert id (d.nameIndex.idxOf id ++ [name]),
        d.nameIndex.names.insert name id⟩ := by
    unfold Registrar.reserve
    rw [hfree]
  refine ⟨_, hres, ?_⟩
  unfold Daemon.reserveName
  rw [if_neg (by simp [hv]), slash_of_head hs]
  dsimp only
  rw [hres]

theorem Daemon.NamesOk.congr {d d' : Daemon} (hd : d.NamesOk) (hc : d'.nameIndex.Consistent)
    (hnames : ∀ n, d'.nameIndex.names.lookup n = d.nameIndex.names.lookup n)
    (hcont : ∀ id, d'.containers.lookup id = d.containers.lookup id) : d'.NamesOk where
  consistent := hc
  reserved id c h := by
    rw [hcont] at h
    rw [hnames]
    exact hd.reserved id c h
  slash id c h := hd.slash id c (by rwa [hcont] at h)
  valid id c h := hd.valid id c (by rwa [hcont] at h)
  others_invalid id c n h hn := hd.others_invalid id c n (by rwa [hcont] at h) (by rwa [hnames] at hn)

/-- The state after the new name is reserved, the container renamed and the old name released:
the new name is the container's, and the old one is free. -/
theorem Daemon.NamesOk.renamed {d d₀ : Daemon} (hd : d.NamesOk) {id newName : List Char}
    {container : Container} (hcont : d.containers.lookup id = some container)
    (hne : newName ≠ container.name) (hv : validContainerNamePattern newName = true)
    (hs : newName.head? = some '/') (hres : d.nameIndex.reserve newName id = .ok d₀.nameIndex)
    (hcont₀ : d₀.containers = d.containers) :
    let d₁ := (d₀.setContainer id { container with name := newName, isAnonymousEndpoint := false }).releaseName
      container.name
    d₁.NamesOk ∧ d₁.nameIndex.names.lookup newName = some id ∧
      d₁.nameIndex.names.lookup container.name = none ∧
      ∀ n, n ≠ newName → n ≠ container.name →
        d₁.nameIndex.names.lookup n = d.nameIndex.names.lookup n := by
  intro d₁
  have hfresh := (hd.fresh_of_reserve hcont hne hv hres).1
  have hold := hd.reserved id container hcont
  -- `names[n]` after the reservation and the release
  have hnames : ∀ n, d₁.nameIndex.names.lookup n = if n = container.name then none
      else if n = newName then some id else d.nameIndex.names.lookup n := by
    intro n
    simp only [d₁, releaseName_names, setContainer_nameIndex, reserve_names_lookup hres]
  have hc₁ : d₁.nameIndex.Consistent :=
    (hd.consistent.reserve hres).release container.name
  refine ⟨⟨hc₁, fun id' c h => ?_, fun id' c h => ?_, fun id' c h => ?_, fun id' c n h hn hnc => ?_⟩,
    by simp [hnames, hne], by simp [hnames], fun n h₁ h₂ => by simp [hnames, h₁, h₂]⟩
  · simp only [d₁, releaseName_containers, setContainer_lookup, hcont₀] at h
    split_ifs at h with hid
    · cases h
      simp [hnames, hne, hid]
    · -- another container keeps its name: neither the old nor the new one is it
      have hown := hd.reserved id' c h
      have h₁ : c.name ≠ container.name := fun he => hid (by
        rw [he, hold] at hown
        exact (Option.some.inj hown).symm)
      have h₂ : c.name ≠ newName := fun he => by
        rw [he, hfresh] at hown
        cases hown
      simp [hnames, h₁, h₂, hown]
  · simp only [d₁, releaseName_containers, setContainer_lookup, hcont₀] at h
    split_ifs at h with hid
    · cases h
      exact hs
    · exact hd.slash id' c h
  · simp only [d₁, releaseName_containers, setContainer_lookup, hcont₀] at h
    split_ifs at h with hid
    · cases h
      exact hv
    · exact hd.valid id' c h
  · simp only [d₁, releaseName_containers, setContainer_lookup, hcont₀] at h
    rw [hnames] at hn
    -- `n` is neither the old name, now free, nor the new one, the renamed container's
    by_cases hn₁ : n = container.name
    · simp [hn₁] at hn
    by_cases hn₂ : n = newName
    · rw [if_neg hn₁, if_pos hn₂] at hn
      cases hn
      rw [if_pos rfl] at h
      cases h
      exact absurd hn₂ hnc
    rw [if_neg hn₁, if_neg hn₂] at hn
    split_ifs at h with hid
    · cases h
      subst hid
      exact hd.others_invalid id' container n hcont hn hn₁
    · exact hd.others_invalid id' c n h hn hnc

theorem restore_renamed (container : Container) (name : List Char) (anon : Bool) :
    { { container with name := name, isAnonymousEndpoint := anon } with
      name := container.name
      isAnonymousEndpoint := container.isAnonymousEndpoint } = container := by
  cases container
  rfl

/-- The rollback alone gives the container its old name and old name back, and frees the new
one: the daemon's names are as they were before the rename. -/
theorem Daemon.NamesOk.rollback {d d₁ : Daemon} (hd : d.NamesOk) {id newName : List Char}
    {container renamed : Container} (hcont : d.containers.lookup id = some container)
    (hren : { renamed with
      name := container.name
      isAnonymousEndpoint := container.isAnonymousEndpoint } = container)
    (hc₁ : d₁.nameIndex.Consistent) (hfresh : d.nameIndex.names.lookup newName = none)
    (hold : d₁.nameIndex.names.lookup container.name = none)
    (hrest : ∀ n, n ≠ newName → n ≠ container.name →
      d₁.nameIndex.names.lookup n = d.nameIndex.names.lookup n)
    (hcont₁ : ∀ id', id' ≠ id → d₁.containers.lookup id' = d.containers.lookup id') :
    let d₂ := d₁.renameRollback noOthers id renamed container.name newName
      container.isAnonymousEndpoint
    d₂.NamesOk ∧ (∀ id', d₂.containers.lookup id' = d.containers.lookup id') ∧
      ∀ n, d₂.nameIndex.names.lookup n = d.nameIndex.names.lookup n := by
  intro d₂
  -- the old name is free again, so the re-reservation goes through
  obtain ⟨r, hr, hreserve⟩ := @reserveName_fresh (d₁.setContainer id container) id _
    (hd.valid id container hcont) (hd.slash id container hcont) hold
  have hd₂ : d₂ = ({ d₁.setContainer id container with nameIndex := r }).releaseName newName := by
    simp only [d₂, Daemon.renameRollback, hren, noOthers, other_nil, hreserve]
  have hnames : ∀ n, d₂.nameIndex.names.lookup n = d.nameIndex.names.lookup n := by
    intro n
    rw [hd₂, releaseName_names]
    dsimp only
    rw [reserve_names_lookup hr]
    by_cases h₁ : n = newName
    · rw [if_pos h₁, h₁, hfresh]
    by_cases h₂ : n = container.name
    · rw [if_neg h₁, if_pos h₂, h₂, hd.reserved id container hcont]
    · rw [if_neg h₁, if_neg h₂, setContainer_nameIndex, hrest n h₁ h₂]
  have hcont₂ : ∀ id', d₂.containers.lookup id' = d.containers.lookup id' := by
    intro id'
    rw [hd₂, releaseName_containers]
    show (d₁.setContainer id container).containers.lookup id' = _
    rw [setContainer_lookup]
    split_ifs with hid
    · rw [hid, hcont]
    · exact hcont₁ id' hid
  have hc₂ : d₂.nameIndex.Consistent := by
    rw [hd₂]
    exact (hc₁.reserve hr).release newName
  exact ⟨hd.congr hc₂ hnames hcont₂, hcont₂, hnames⟩

/-- A rename that runs alone keeps every container's name reserved to it; one that fails leaves
the containers and the whole registrar relation as they were. -/
theorem containerRename_alone {d : Daemon} (hd : d.NamesOk) (id oldName newName : List Char)
    (toDisk sandboxRename : Bool) :
    (d.containerRename noOthers id oldName newName toDisk sandboxRename).1.NamesOk ∧
      ((d.containerRename noOthers id oldName newName toDisk sandboxRename).2 ≠ none →
        (∀ id', (d.containerRename noOthers id oldName newName toDisk sandboxRename).1.containers.lookup
          id' = d.containers.lookup id') ∧
        ∀ n k, n ∈ (d.containerRename noOthers id oldName newName toDisk sandboxRename).1.nameIndex.idxOf
          k ↔ n ∈ d.nameIndex.idxOf k) := by
  -- an early error returns the daemon untouched
  have hkept : (∀ id', d.containers.lookup id' = d.containers.lookup id') ∧
      ∀ n k, n ∈ d.nameIndex.idxOf k ↔ n ∈ d.nameIndex.idxOf k :=
    ⟨fun _ => rfl, fun _ _ => Iff.rfl⟩
  unfold Daemon.containerRename
  by_cases hempty : oldName = [] ∨ newName = []
  · rw [if_pos hempty]
    exact ⟨hd, fun _ => hkept⟩
  rw [if_neg hempty]
  dsimp only
  -- the new name, with its `/`
  have hslash := head_slash newName
  generalize (if newName.head? = some '/' then newName else '/' :: newName) = nn at hslash ⊢
  cases hcont : d.containers.lookup id with
  | none => exact ⟨hd, fun _ => hkept⟩
  | some container =>
    dsimp only
    by_cases hsame : container.name = nn
    · rw [if_pos hsame]
      exact ⟨hd, fun _ => hkept⟩
    rw [if_neg hsame]
    cases hres : d.reserveName id nn with
    | error err => exact ⟨hd, fun _ => hkept⟩
    | ok p =>
      obtain ⟨new', d₀⟩ := p
      obtain ⟨hv, hnew', hcont₀, -, hres'⟩ := reserveName_eq_ok hres
      rw [slash_of_head hslash] at hnew'
      subst hnew'
      dsimp only
      obtain ⟨hd₁, -, hold, hrest⟩ := hd.renamed hcont (Ne.symm hsame) hv hslash hres' hcont₀
      have hfresh := (hd.fresh_of_reserve hcont (Ne.symm hsame) hv hres').1
      -- the renamed container, whose old values the rollback restores
      generalize hren : { container with name := new', isAnonymousEndpoint := false } = renamed
        at hd₁ hold hrest ⊢
      have hcont₁ : ∀ id', id' ≠ id →
          ((d₀.setContainer id renamed).releaseName container.name).containers.lookup id' =
            d.containers.lookup id' := by
        intro id' hid
        rw [releaseName_containers, setContainer_lookup, if_neg hid, hcont₀]
      obtain ⟨hd₂, hcont₂, hnames₂⟩ := @Daemon.NamesOk.rollback _ _ hd _ new' _ renamed hcont
        (hren ▸ restore_renamed container new' false) hd₁.consistent hfresh hold hrest hcont₁
      have hfail := hd.consistent.mem_idxOf_congr hd₂.consistent hnames₂
      simp only [other_nil, noOthers]
      -- a failed rename ends in the rollback, a successful one in the renamed state
      cases toDisk
      · exact ⟨hd₂, fun _ => ⟨hcont₂, hfail⟩⟩
      cases hrun : container.running
      · exact ⟨hd₁, fun h => absurd rfl h⟩
      simp only [Bool.not_true, Bool.false_eq_true, if_false]
      by_cases hsb : ((d₀.setContainer id renamed).releaseName container.name).netController = true ∧
        (!sandboxRename) = true
      · simp only [hsb.1, hsb.2, and_self, ↓reduceIte]
        exact ⟨hd₂, fun _ => ⟨hcont₂, hfail⟩⟩
      · simp only [hsb, ↓reduceIte]
        exact ⟨hd₁, fun h => absurd rfl h⟩

/-! ## 4. A request that takes the released name -/

-- one stopped container `/web`, with id `c1`
def oneContainer : Daemon where
  containers := (∅ : AList (fun _ : List Char => Container)).insert "c1".toList
    ⟨"/web".toList, false, false⟩
  nameIndex := ⟨(∅ : AList (fun _ : List Char => List (List Char))).insert "c1".toList ["/web".toList],
    (∅ : AList (fun _ : List Char => List Char)).insert "/web".toList "c1".toList⟩
  netController := true

-- `docker create --name web` reserves `/web` for `c2` after the rename released it
def takeOldName : RenamePoint → List (RegistrarOp (List Char) (List Char))
  | .beforeReserveOld => [.reserve "/web".toList "c2".toList]
  | _ => []

theorem rename_rollback_loses_name :
    (oneContainer.containerRename takeOldName "c1".toList "web".toList "db".toList false true).2 =
        some .toDisk ∧
      ((oneContainer.containerRename takeOldName "c1".toList "web".toList "db".toList false
        true).1.containers.lookup "c1".toList).map (·.name) = some "/web".toList ∧
      (oneContainer.containerRename takeOldName "c1".toList "web".toList "db".toList false
        true).1.nameIndex.names.lookup "/web".toList = some "c2".toList ∧
      (oneContainer.containerRename takeOldName "c1".toList "web".toList "db".toList false
        true).1.nameIndex.idxOf "c1".toList = [] ∧
      oneContainer.nameIndex.idxOf "c1".toList = ["/web".toList] := by
  decide

end Docker.Names
