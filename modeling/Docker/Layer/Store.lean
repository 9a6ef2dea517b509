import Mathlib.Data.List.AList
import Mathlib.Data.Finset.Card

/-!
# Store — the layer store of `layer/layer_store.go`

A model of `layerStore` with the six calls that move reference counts: `Register`, `Get`,
`Release`, `CreateRWLayer`, `GetRWLayer` and `ReleaseRWLayer`.

* `roLayer` objects live in a heap (`heap : Nat → RoLayer`, allocated at `next`), because a
  layer's `parent` is a pointer and `releaseLayer` follows it.  `layerMap` and `mounts` are the
  Go maps, as association lists.
* `references` maps of the Go code are sets of handle ids; `getReference` draws a fresh id from
  `nextRef`, so that two handles are equal exactly when they are the same Go pointer.
* Every call into the graph driver, the metadata store, the tar-split packer and the caller's
  `initFunc` answers with the next entry of `answers` (`true`: it succeeded; an exhausted list
  answers `true`).  The driver's layers are tracked in `held`.
* A Go `panic` is the `Except.error` of the outer result.

`depth`, `Size` and the parent walk of `releaseLayer` recurse along parent pointers; they take
the heap size as fuel.  A parent is allocated before its child, so the fuel never runs out
(`Docker.Layer.Invariant`).
-/

namespace Docker.Layer

/-- `maxLayerDepth`. -/
def maxLayerDepth : Nat := 125

/-- The errors the six calls return. `failed call` is whatever error an external call returned. -/
inductive LayerError where
  | layerDoesNotExist
  | layerNotRetained
  | mountDoesNotExist
  | mountNameConflict
  | maxDepthExceeded
  | failed (call : String)
  deriving DecidableEq, Repr

/-- The texts of the error values of `layer/layer.go`. -/
def LayerError.message : LayerError → String
  | .layerDoesNotExist => "layer does not exist"
  | .layerNotRetained => "layer not retained"
  | .mountDoesNotExist => "mount does not exist"
  | .mountNameConflict => "mount already exists with name"
  | .maxDepthExceeded => "max depth exceeded"
  | .failed call => call

/-- `createChainIDFromParent`, with `digest.FromBytes` as the parameter `fromBytes`. -/
def createChainIDFromParent (fromBytes : String → String) : String → List String → String
  | parent, [] => parent
  | parent, d :: ds =>
    if parent = "" then createChainIDFromParent fromBytes d ds
    else createChainIDFromParent fromBytes (fromBytes (parent ++ " " ++ d)) ds

/-- `CreateChainID`. -/
def createChainID (fromBytes : String → String) (dgsts : List String) : String :=
  createChainIDFromParent fromBytes "" dgsts

/-- `roLayer`.  `descriptor` is the digest of its `distribution.Descriptor` (`""` when empty). -/
structure RoLayer where
  chainID : String
  diffID : String
  parent : Option Nat
  cacheID : String
  size : Int
  descriptor : String
  referenceCount : Nat
  references : Finset Nat
  deriving Inhabited

/-- `mountedLayer` (its `path` and `layerStore` fields are not read by these calls). -/
structure MountedLayer where
  name : String
  mountID : String
  initID : String
  parent : Option Nat
  references : Finset Nat
  deriving DecidableEq

/-- A `Layer` handle as `Release` reads it: the handle's identity and its `ChainID()`. -/
structure LayerHandle where
  ref : Nat
  chainID : String
  deriving DecidableEq, Repr

/-- An `RWLayer` handle as `ReleaseRWLayer` reads it: the handle's identity and its `Name()`. -/
structure RWLayerHandle where
  ref : Nat
  name : String
  deriving DecidableEq, Repr

/-- `Metadata`, one entry per layer that `releaseLayer` deleted. -/
structure Metadata where
  chainID : String
  diffID : String
  size : Int
  diffSize : Int
  deriving DecidableEq, Repr

structure LayerStore where
  heap : Nat → RoLayer
  next : Nat
  layerMap : AList (fun _ : String => Nat)
  mounts : AList (fun _ : String => MountedLayer)
  nextRef : Nat
  held : List String
  answers : List Bool

/-- What a call of the store ends in: Go's `(value, error)` with the store after it. -/
abbrev Outcome (α : Type) := Except LayerError α × LayerStore

/-- The same for a call that may reach a `panic`. -/
abbrev Panicky (α : Type) := Except String (Outcome α)

/-- The store a daemon starts from when nothing is on disk, with the answers its driver and
metadata store will give. -/
def LayerStore.empty (answers : List Bool) : LayerStore where
  heap := fun _ => default
  next := 0
  layerMap := ∅
  mounts := ∅
  nextRef := 0
  held := []
  answers := answers

namespace LayerStore

/-! ## External calls -/

/-- The next call into the driver, the metadata store or `initFunc`: its answer, and the store
with that answer consumed. -/
def call (ls : LayerStore) : Bool × LayerStore :=
  match ls.answers with
  | [] => (true, ls)
  | b :: bs => (b, { ls with answers := bs })

/-- `driver.Create` and `driver.CreateReadWrite`: on success the driver holds `id`. -/
def driverCreate (ls : LayerStore) (id : String) : Bool × LayerStore :=
  match ls.call with
  | (true, ls) => (true, { ls with held := id :: ls.held })
  | (false, ls) => (false, ls)

/-- `driver.Remove`: on success the driver no longer holds `id`. -/
def driverRemove (ls : LayerStore) (id : String) : Bool × LayerStore :=
  match ls.call with
  | (true, ls) => (true, { ls with held := ls.held.erase id })
  | (false, ls) => (false, ls)

/-- A sequence of external calls that stops at the first failure, which it names. -/
def callAll (ls : LayerStore) : List String → Option String × LayerStore
  | [] => (none, ls)
  | c :: cs =>
    match ls.call with
    | (true, ls) => ls.callAll cs
    | (false, ls) => (some c, ls)

/-! ## Layer objects -/

/-- Update the `roLayer` object at address `a`. -/
def modifyLayer (ls : LayerStore) (a : Nat) (f : RoLayer → RoLayer) : LayerStore :=
  { ls with heap := Function.update ls.heap a (f (ls.heap a)) }

/-- `getWithoutLock`: look the chain id up and take one more count on the layer found. -/
def getWithoutLock (ls : LayerStore) (c : String) : Option Nat × LayerStore :=
  match ls.layerMap.lookup c with
  | none => (none, ls)
  | some a =>
    (some a, ls.modifyLayer a fun l => { l with referenceCount := l.referenceCount + 1 })

/-- `roLayer.getReference`: a fresh handle, recorded in the layer's `references`. -/
def getReference (ls : LayerStore) (a : Nat) : LayerHandle × LayerStore :=
  ({ ref := ls.nextRef, chainID := (ls.heap a).chainID },
    { ls.modifyLayer a (fun l => { l with references := insert ls.nextRef l.references }) with
      nextRef := ls.nextRef + 1 })

/-- `roLayer.depth`, following at most `fuel` parent pointers. -/
def depth (ls : LayerStore) : Nat → Nat → Nat
  | 0, _ => 1
  | fuel + 1, a =>
    match (ls.heap a).parent with
    | none => 1
    | some p => ls.depth fuel p + 1

/-- `roLayer.Size`: the sizes of the layer and of its parent chain. -/
def layerSize (ls : LayerStore) : Nat → Nat → Int
  | 0, a => (ls.heap a).size
  | fuel + 1, a =>
    match (ls.heap a).parent with
    | none => (ls.heap a).size
    | some p => ls.layerSize fuel p + (ls.heap a).size

/-! ## Release -/

/-- `deleteLayer`: remove the layer from the driver and from the metadata store. -/
def deleteLayer (ls : LayerStore) (a : Nat) : Outcome Metadata :=
  match ls.driverRemove (ls.heap a).cacheID with
  | (false, ls) => (.error (.failed "Remove"), ls)
  | (true, ls) =>
    match ls.call with
    | (false, ls) => (.error (.failed "store.Remove"), ls)
    | (true, ls) =>
      (.ok { chainID := (ls.heap a).chainID, diffID := (ls.heap a).diffID,
             size := ls.layerSize ls.next a, diffSize := (ls.heap a).size }, ls)

/-- The loop of `releaseLayer` at layer `a`, with its `depth` and `removed` variables. -/
def releaseLoop : Nat → LayerStore → Nat → Nat → List Metadata → Panicky (List Metadata)
  | 0, ls, _, _, removed => .ok (.ok removed, ls)
  | fuel + 1, ls, a, depth, removed =>
    if (ls.heap a).referenceCount = 0 then .error "layer not retained" else
    let ls := ls.modifyLayer a fun l => { l with referenceCount := l.referenceCount - 1 }
    if (ls.heap a).referenceCount ≠ 0 then .ok (.ok removed, ls) else
    if removed.length = 0 ∧ 0 < depth then .error "cannot remove layer with child" else
    if 0 < (ls.heap a).references.card then .error "cannot delete referenced layer" else
    match ls.deleteLayer a with
    | (.error e, ls) => .ok (.error e, ls)
    | (.ok metadata, ls) =>
      let ls := { ls with layerMap := ls.layerMap.erase (ls.heap a).chainID }
      match (ls.heap a).parent with
      | none => .ok (.ok (removed ++ [metadata]), ls)
      | some p => releaseLoop fuel ls p (depth + 1) (removed ++ [metadata])

/-- `releaseLayer`. -/
def releaseLayer (ls : LayerStore) (a : Nat) : Panicky (List Metadata) :=
  releaseLoop ls.next ls a 0 []

/-- `Release`. -/
def release (ls : LayerStore) (l : LayerHandle) : Panicky (List Metadata) :=
  match ls.layerMap.lookup l.chainID with
  | none => .ok (.ok [], ls)
  | some a =>
    if l.ref ∉ (ls.heap a).references then .ok (.error .layerNotRetained, ls) else
    (ls.modifyLayer a fun l' => { l' with references := l'.references.erase l.ref }).releaseLayer a

/-- A deferred `releaseLayer(p)` whose result Go discards: keep the call's own result. -/
def releaseAfter {α : Type} (r : Except LayerError α) (p : Nat) (ls : LayerStore) : Panicky α :=
  match ls.releaseLayer p with
  | .error msg => .error msg
  | .ok (_, ls) => .ok (r, ls)

/-! ## Register -/

/-- What `Register` reads from outside the store: the digest of the tar stream, the size the
driver's `ApplyDiff` reports, and the id `stringid.GenerateRandomID` draws for the cache. -/
structure TarInput where
  diffID : String
  size : Int
  cacheID : String
  deriving DecidableEq, Repr

/-- `applyTar`: the tar-split writer, the tar stream reader and `driver.ApplyDiff`. -/
def applyTar (ls : LayerStore) : Option String × LayerStore :=
  ls.callAll ["TarSplitWriter", "NewInputTarStream", "ApplyDiff"]

/-- `storeLayer`: the metadata of the transaction, in the order the code writes it. -/
def storeLayer (ls : LayerStore) (layer : RoLayer) : Option String × LayerStore :=
  ls.callAll (["SetDiffID", "SetSize", "SetCacheID"] ++
    (if layer.descriptor ≠ "" then ["SetDescriptor"] else []) ++
    (if layer.parent.isSome then ["SetParent"] else []))

/-- Publish a new layer: allocate the object and enter it in `layerMap`. -/
def insertLayer (ls : LayerStore) (layer : RoLayer) : LayerStore :=
  { ls with heap := Function.update ls.heap ls.next layer, next := ls.next + 1,
            layerMap := ls.layerMap.insert layer.chainID ls.next }

variable (fromBytes : String → String)

/-- `registerWithDescriptor` from `applyTar` to its return, inside the transaction: the value
returned, whether `err` is set (the deferred cleanups test it), and the store. -/
def registerInTransaction (ls : LayerStore) (layer : RoLayer) (tar : TarInput) :
    Except LayerError LayerHandle × Bool × LayerStore :=
  match ls.applyTar with
  | (some c, ls) => (.error (.failed c), true, ls)
  | (none, ls) =>
    let layer := { layer with size := tar.size, diffID := tar.diffID }
    let layer := { layer with chainID :=
      match layer.parent with
      | none => layer.diffID
      | some p => createChainIDFromParent fromBytes (ls.heap p).chainID [layer.diffID] }
    match ls.storeLayer layer with
    | (some c, ls) => (.error (.failed c), true, ls)
    | (none, ls) =>
      match ls.getWithoutLock layer.chainID with
      | (some e, ls) =>
        -- "layer already exists": `err` is set for the cleanups, the existing layer is returned
        let (h, ls) := ls.getReference e
        (.ok h, true, ls)
      | (none, ls) =>
        match ls.call with
        | (false, ls) => (.error (.failed "Commit"), true, ls)
        | (true, ls) =>
          let a := ls.next
          let (h, ls) := (ls.insertLayer layer).getReference a
          (.ok h, false, ls)

/-- `registerWithDescriptor` from the creation of the new `roLayer`, with the deferred driver
`Remove` and transaction `Cancel`.  (The parent's cache id, which the code hands to the driver,
is not recorded by the model's driver.) -/
def registerNew (ls : LayerStore) (p : Option Nat) (descriptor : String) (tar : TarInput) :
    Except LayerError LayerHandle × Bool × LayerStore :=
  let layer : RoLayer :=
    { chainID := "", diffID := "", parent := p, cacheID := tar.cacheID, size := 0,
      descriptor := descriptor, referenceCount := 1, references := ∅ }
  match ls.driverCreate tar.cacheID with
  | (false, ls) => (.error (.failed "Create"), true, ls)
  | (true, ls) =>
    match ls.call with
    | (false, ls) => (.error (.failed "StartTransaction"), true, ls)
    | (true, ls) =>
      match ls.registerInTransaction fromBytes layer tar with
      | (r, true, ls) =>
        let (_, ls) := ls.driverRemove tar.cacheID
        let (_, ls) := ls.call
        (r, true, ls)
      | (r, false, ls) => (r, false, ls)

/-- `registerWithDescriptor` (and `Register`, whose descriptor is empty). -/
def registerWithDescriptor (ls : LayerStore) (parent descriptor : String) (tar : TarInput) :
    Panicky LayerHandle :=
  if parent = "" then
    match ls.registerNew fromBytes none descriptor tar with
    | (r, _, ls) => .ok (r, ls)
  else
    match ls.getWithoutLock parent with
    | (none, ls) => .ok (.error .layerDoesNotExist, ls)
    | (some p, ls) =>
      if maxLayerDepth ≤ ls.depth ls.next p then releaseAfter (.error .maxDepthExceeded) p ls
      else
        match ls.registerNew fromBytes (some p) descriptor tar with
        | (r, true, ls) => releaseAfter r p ls
        | (r, false, ls) => .ok (r, ls)

/-- `Get`. -/
def get (ls : LayerStore) (c : String) : Outcome LayerHandle :=
  match ls.getWithoutLock c with
  | (none, ls) => (.error .layerDoesNotExist, ls)
  | (some a, ls) =>
    let (h, ls) := ls.getReference a
    (.ok h, ls)

/-! ## Read-write layers -/

/-- `mountedLayer.getReference`, on the mount registered under `name`. -/
def mountReference (ls : LayerStore) (name : String) (m : MountedLayer) :
    RWLayerHandle × LayerStore :=
  ({ ref := ls.nextRef, name := name },
    { ls with
      mounts := ls.mounts.insert name { m with references := insert ls.nextRef m.references }
      nextRef := ls.nextRef + 1 })

/-- `initMount`: the `-init` layer, prepared by the caller's `initFunc`. -/
def initMount (ls : LayerStore) (graphID : String) : Except LayerError String × LayerStore :=
  let initID := graphID ++ "-init"
  match ls.driverCreate initID with
  | (false, ls) => (.error (.failed "Create"), ls)
  | (true, ls) =>
    match ls.call with
    | (false, ls) => (.error (.failed "Get"), ls)
    | (true, ls) =>
      match ls.call with
      | (false, ls) =>
        -- `initFunc` failed: `Put` is called and its error dropped
        let (_, ls) := ls.call
        (.error (.failed "initFunc"), ls)
      | (true, ls) =>
        match ls.call with
        | (false, ls) => (.error (.failed "Put"), ls)
        | (true, ls) => (.ok initID, ls)

/-- `saveMount`: the mount's metadata, then its entry in `mounts`. -/
def saveMount (ls : LayerStore) (m : MountedLayer) : Option String × LayerStore :=
  match ls.callAll (["SetMountID"] ++ (if m.initID ≠ "" then ["SetInitID"] else []) ++
      (if m.parent.isSome then ["SetMountParent"] else [])) with
  | (some c, ls) => (some c, ls)
  | (none, ls) => (none, { ls with mounts := ls.mounts.insert m.name m })

/-- The `initFunc` block of `CreateRWLayer`: when the caller passed one, the `-init` layer is
made and its id recorded in the mount. -/
def prepareInit (ls : LayerStore) (m : MountedLayer) (initFunc : Bool) :
    Except LayerError MountedLayer × LayerStore :=
  if initFunc then
    match ls.initMount m.mountID with
    | (.error e, ls) => (.error e, ls)
    | (.ok initID, ls) => (.ok { m with initID := initID }, ls)
  else (.ok m, ls)

/-- `CreateRWLayer` after the parent lookup: the mount, its init layer and its read-write layer.
`initFunc` says whether the caller passed one.  (The parent ids handed to the driver are not
recorded by the model's driver.) -/
def createMount (ls : LayerStore) (name : String) (p : Option Nat) (mountID : String)
    (initFunc : Bool) : Outcome RWLayerHandle :=
  let m : MountedLayer :=
    { name := name, mountID := mountID, initID := "", parent := p, references := ∅ }
  match ls.prepareInit m initFunc with
  | (.error e, ls) => (.error e, ls)
  | (.ok m, ls) =>
    match ls.driverCreate m.mountID with
    | (false, ls) => (.error (.failed "CreateReadWrite"), ls)
    | (true, ls) =>
      match ls.saveMount m with
      | (some c, ls) => (.error (.failed c), ls)
      | (none, ls) =>
        let (h, ls) := ls.mountReference name m
        (.ok h, ls)

/-- `CreateRWLayer`; `mountID` is the id `ls.mountID(name)` draws at random. -/
def createRWLayer (ls : LayerStore) (name parent mountID : String) (initFunc : Bool) :
    Panicky RWLayerHandle :=
  match ls.mounts.lookup name with
  | some _ => .ok (.error .mountNameConflict, ls)
  | none =>
    if parent = "" then .ok (ls.createMount name none mountID initFunc)
    else
      match ls.getWithoutLock parent with
      | (none, ls) => .ok (.error .layerDoesNotExist, ls)
      | (some p, ls) =>
        match ls.createMount name (some p) mountID initFunc with
        | (.error e, ls) => releaseAfter (.error e) p ls
        | (.ok h, ls) => .ok (.ok h, ls)

/-- `GetRWLayer`. -/
def getRWLayer (ls : LayerStore) (name : String) : Outcome RWLayerHandle :=
  match ls.mounts.lookup name with
  | none => (.error .mountDoesNotExist, ls)
  | some m =>
    let (h, ls) := ls.mountReference name m
    (.ok h, ls)

/-- The driver and metadata removals of `ReleaseRWLayer`; a failure names its call, and the
caller then retakes the reference. -/
def removeMount (ls : LayerStore) (m : MountedLayer) : Option String × LayerStore :=
  match ls.driverRemove m.mountID with
  | (false, ls) => (some "Remove", ls)
  | (true, ls) =>
    let init : Option String × LayerStore :=
      if m.initID ≠ "" then
        match ls.driverRemove m.initID with
        | (false, ls) => (some "Remove", ls)
        | (true, ls) => (none, ls)
      else (none, ls)
    match init with
    | (some c, ls) => (some c, ls)
    | (none, ls) =>
      match ls.call with
      | (false, ls) => (some "RemoveMount", ls)
      | (true, ls) => (none, ls)

/-- `ReleaseRWLayer`. -/
def releaseRWLayer (ls : LayerStore) (l : RWLayerHandle) : Panicky (List Metadata) :=
  match ls.mounts.lookup l.name with
  | none => .ok (.ok [], ls)
  | some m =>
    if l.ref ∉ m.references then .ok (.error .layerNotRetained, ls) else
    let m' := { m with references := m.references.erase l.ref }
    let ls := { ls with mounts := ls.mounts.insert l.name m' }
    if 0 < m'.references.card then .ok (.ok [], ls) else
    match ls.removeMount m' with
    | (some c, ls) =>
      -- `retakeReference`
      let m := { m' with references := insert l.ref m'.references }
      .ok (.error (.failed c), { ls with mounts := ls.mounts.insert l.name m })
    | (none, ls) =>
      let ls := { ls with mounts := ls.mounts.erase m'.name }
      match m'.parent with
      | none => .ok (.ok [], ls)
      | some p => ls.releaseLayer p

/-! ## The calls as requests -/

/-- One call of the store, with what it reads from outside. -/
inductive LayerOp where
  | register (parent descriptor : String) (tar : TarInput)
  | get (chainID : String)
  | release (l : LayerHandle)
  | createRWLayer (name parent mountID : String) (initFunc : Bool)
  | getRWLayer (name : String)
  | releaseRWLayer (l : RWLayerHandle)

/-- The store after one call, or the panic the call ends in. -/
def step (ls : LayerStore) : LayerOp → Except String LayerStore
  | .register parent descriptor tar =>
    (ls.registerWithDescriptor fromBytes parent descriptor tar).map Prod.snd
  | .get c => .ok (ls.get c).2
  | .release l => (ls.release l).map Prod.snd
  | .createRWLayer name parent mountID initFunc =>
    (ls.createRWLayer name parent mountID initFunc).map Prod.snd
  | .getRWLayer name => .ok (ls.getRWLayer name).2
  | .releaseRWLayer l => (ls.releaseRWLayer l).map Prod.snd

end LayerStore

end Docker.Layer
