import Mathlib.Data.List.AList
import Docker.Reasoning.Base64
import Docker.Reasoning.LexPath

/-!
# Store — the volume store and the drivers `configureVolumes` registers

`volume/store/store.go` over the three drivers of `daemon.configureVolumes`: `local`
(`volume/local`), `ceph` (`volume/ceph`) and `nfs` (`volume/nfs`), as far as they name, create and
find volumes.  A volume is seen through `Name()`, `DriverName()` and `Path()`; the store hands out
either a driver's volume or a `volumeWrapper` of one carrying labels.

The host is a `Disk` that outlives the daemon: the daemon root, the directories under
`<root>/volumes`, and the `volumes` bucket of the store's bolt database.  Every call that can fail
on the host (`MkdirAll`, `os.Stat`, `ioutil.TempDir`, a bolt transaction) succeeds or fails as the
next of its `answers` says.  A restart runs `configureVolumes` again over the same `Disk`.

The Go maps are `AList`s.  The order in which `GetAllDrivers` lists the drivers is Go's map order,
so the calls that probe every driver take it as an argument.
-/

namespace Docker.Volume

open LexPath

abbrev Labels := List (List Char × List Char)

/-- `volume.DefaultDriverName`. -/
def defaultDriverName : List Char := "local".toList

inductive Driver where
  | «local»
  | ceph
  | nfs
  deriving DecidableEq, Repr

def Driver.name : Driver → List Char
  | .«local» => defaultDriverName
  | .ceph => "ceph".toList
  | .nfs => "nfs".toList

-- what a driver's volume answers to `Name()`, `DriverName()` and `Path()`
structure Vol where
  name : List Char
  driverName : List Char
  path : List Char
  deriving DecidableEq, Repr

/-- A `volume.Volume` of the store: a driver's volume, or a `volumeWrapper` of it with labels. -/
structure StoreVolume where
  vol : Vol
  wrapper : Option Labels
  deriving DecidableEq, Repr

inductive VolError where
  | invalidName
  | nameConflict
  | noSuchVolume
  | pluginNotFound (name : List Char)
  | invalidLocalName (name : List Char)
  | notFound
  | nfsNotFound (name : List Char)
  /-- What a host call returned. -/
  | host (call : List Char)
  /-- `OpErr{Err, Op, Name}`. -/
  | op (err : VolError) (op name : List Char)
  deriving DecidableEq, Repr

/-- `%q` of a name without quotes, backslashes or unprintable characters. -/
def quote (s : List Char) : String :=
  "\"" ++ String.ofList s ++ "\""

def VolError.error : VolError → String
  | .invalidName => "volume name is not valid on this platform"
  | .nameConflict => "conflict: volume name must be unique"
  | .noSuchVolume => "no such volume"
  | .pluginNotFound name =>
    "Error looking up volume plugin " ++ String.ofList name ++ ": plugin " ++ quote name ++
      " not found"
  | .invalidLocalName name =>
    quote name ++ " includes invalid characters for a local volume name, only " ++
      quote "[a-zA-Z0-9][a-zA-Z0-9_.-]".toList ++ " are allowed"
  | .notFound => "volume not found"
  | .nfsNotFound name => "Element not found for " ++ String.ofList name
  | .host call => String.ofList call
  | .op err opName name =>
    String.ofList opName ++ (if name = [] then "" else " " ++ String.ofList name) ++ ": " ++ err.error

/-! ## 1. The host -/

structure Disk where
  /-- `daemon.configStore.Root`. -/
  root : List Char
  /-- The directories under `<root>/volumes`. -/
  volumeDirs : List (List Char)
  /-- The bucket `volumes` of `<root>/volumes/metadata.db`: each name with its labels. -/
  db : AList (fun _ : List Char => Labels)
  /-- Whether each host call that can fail succeeds; an exhausted list answers `true`. -/
  answers : List Bool
  /-- How many directories `ioutil.TempDir` has made; the next one is named after the count. -/
  tempCount : Nat

def Disk.answer (dk : Disk) : Bool × Disk :=
  match dk.answers with
  | [] => (true, dk)
  | a :: as => (a, { dk with answers := as })

/-- `ioutil.TempDir(dir, "")`: a fresh directory `dir/<suffix>`. -/
def Disk.tempDir (dk : Disk) (dir : List Char) : Option (List Char) × Disk :=
  match dk.answer with
  | (false, dk) => (none, dk)
  | (true, dk) =>
    (some (join dir (toString dk.tempCount).toList), { dk with tempCount := dk.tempCount + 1 })

/-- `[]byte(s)`. -/
def utf8 (s : List Char) : List UInt8 :=
  s.flatMap String.utf8EncodeChar

/-! ## 2. The drivers -/

/-- A driver's `Root`: its map from names to volumes. -/
structure Root where
  volumes : AList (fun _ : List Char => Vol)

/-- `Get(name)` of a driver, with the error it returns for a name it does not have. -/
def Root.get (notFound : List Char → VolError) (r : Root) (name : List Char) :
    Except VolError Vol :=
  match r.volumes.lookup name with
  | some v => .ok v
  | none => .error (notFound name)

-- `local.(*Root).Get`: `ErrNotFound`
def localGet : Root → List Char → Except VolError Vol :=
  Root.get fun _ => .notFound

-- `cephvolumedriver.(*Root).Get`: `fmt.Errorf("volume not found")`
def cephGet : Root → List Char → Except VolError Vol :=
  Root.get fun _ => .notFound

-- `nfsvolumedriver.(*Root).Get`: `"Element not found for " + name`
def nfsGet : Root → List Char → Except VolError Vol :=
  Root.get .nfsNotFound

/-- `(*Root).DataPath(volumeName)` of the local driver. -/
def dataPath (root volumeName : List Char) : List Char :=
  joinAll [root, "volumes".toList, volumeName, "_data".toList]

/-- `utils.RestrictedVolumeNamePattern`: `^[a-zA-Z0-9][a-zA-Z0-9_.-]+$`. -/
def restrictedVolumeName (name : List Char) : Bool :=
  match name with
  | c :: rest =>
    c.isAlphanum && !rest.isEmpty && rest.all fun c => c.isAlphanum || c = '_' || c = '.' || c = '-'
  | [] => false

/-- `(*Root).validateName(name)` of the local driver. -/
def validateName (name : List Char) : Except VolError Unit :=
  if restrictedVolumeName name then .ok () else .error (.invalidLocalName name)

/-- `local.(*Root).Create(name, nil)`. -/
def localCreate (r : Root) (dk : Disk) (name : List Char) : Except VolError Vol × Root × Disk :=
  match validateName name with
  | .error e => (.error e, r, dk)
  | .ok () =>
    match r.volumes.lookup name with
    | some v => (.ok v, r, dk)
    | none =>
      let path := dataPath dk.root name
      -- `idtools.MkdirAllAs(path, ...)` makes `<root>/volumes/<name>/_data`
      match dk.answer with
      | (false, dk) => (.error (.host "mkdir".toList), r, dk)
      | (true, dk) =>
        let v : Vol := ⟨name, defaultDriverName, path⟩
        (.ok v, ⟨r.volumes.insert name v⟩, { dk with volumeDirs := dk.volumeDirs.insert name })

/-- `cephvolumedriver.(*Root).Create(name, nil)`: the device paths are set by `Mount`. -/
def cephCreate (r : Root) (name : List Char) : Vol × Root :=
  match r.volumes.lookup name with
  | some v => (v, r)
  | none =>
    let v : Vol := ⟨name, Driver.ceph.name, []⟩
    (v, ⟨r.volumes.insert name v⟩)

/-- `NFS_MOUNTS_DIRECTORY`. -/
def nfsMountsDirectory : List Char := "/var/lib/docker/nfs_mounts".toList

/-- `nfsvolumedriver.(*Root).Create(name, nil)`: the volume is named after a fresh directory, and
`name` is kept only as the NFS source. -/
def nfsCreate (r : Root) (dk : Disk) (_name : List Char) : Except VolError Vol × Root × Disk :=
  -- `ensureDirectoryExists(NFS_MOUNTS_DIRECTORY)`
  match dk.answer with
  | (false, dk) => (.error (.host "stat".toList), r, dk)
  | (true, dk) =>
    match dk.tempDir nfsMountsDirectory with
    | (none, dk) => (.error (.host "tempdir".toList), r, dk)
    | (some dirName, dk) =>
      let v : Vol := ⟨Base64.encode (utf8 dirName), Driver.nfs.name, dirName⟩
      (.ok v, ⟨r.volumes.insert v.name v⟩, dk)

/-- `volumedrivers.GetDriver(name)` over the drivers `configureVolumes` registers; any other name
goes to the plugin lookup, which finds nothing. -/
def getDriver (name : List Char) : Except VolError Driver :=
  let name := if name = [] then defaultDriverName else name
  match [Driver.«local», .ceph, .nfs].find? (·.name = name) with
  | some vd => .ok vd
  | none => .error (.pluginNotFound name)

/-! ## 3. The store -/

structure Daemon where
  disk : Disk
  localRoot : Root
  cephRoot : Root
  nfsRoot : Root
  /-- `VolumeStore.names`, `refs` and `labels`. -/
  names : AList (fun _ : List Char => StoreVolume)
  refs : AList (fun _ : List Char => List (List Char))
  labels : AList (fun _ : List Char => Labels)

namespace Daemon

def driverGet (d : Daemon) : Driver → List Char → Except VolError Vol
  | .«local», name => localGet d.localRoot name
  | .ceph, name => cephGet d.cephRoot name
  | .nfs, name => nfsGet d.nfsRoot name

def driverCreate (d : Daemon) : Driver → List Char → Except VolError Vol × Daemon
  | .«local», name =>
    match localCreate d.localRoot d.disk name with
    | (r, root, dk) => (r, { d with localRoot := root, disk := dk })
  | .ceph, name =>
    match cephCreate d.cephRoot name with
    | (v, root) => (.ok v, { d with cephRoot := root })
  | .nfs, name =>
    match nfsCreate d.nfsRoot d.disk name with
    | (r, root, dk) => (r, { d with nfsRoot := root, disk := dk })

/-- `normaliseVolumeName`: nothing to do on Unix. -/
def normaliseVolumeName (name : List Char) : List Char := name

/-- `volume.IsVolumeNameValid`: every name is valid on Unix. -/
def isVolumeNameValid (_name : List Char) : Bool := true

def setNamed (d : Daemon) (v : StoreVolume) (ref : List Char) : Daemon :=
  { d with
    names := d.names.insert v.vol.name v
    refs :=
      if ref = [] then d.refs
      else d.refs.insert v.vol.name ((d.refs.lookup v.vol.name).getD [] ++ [ref]) }

/-- `getVolume(name)`: the driver recorded for the name, or else the first driver, in `order`,
that has it. -/
def getVolume (d : Daemon) (order : List Driver) (name : List Char) :
    Except VolError StoreVolume × Daemon :=
  -- the labels come from the metadata store, in a `db.Update`
  match d.disk.answer with
  | (false, dk) => (.error (.host "db".toList), { d with disk := dk })
  | (true, dk) =>
    let d := { d with disk := dk }
    let labels := (dk.db.lookup name).getD []
    match d.names.lookup name with
    | some v =>
      match getDriver v.vol.driverName with
      | .error e => (.error e, d)
      | .ok vd =>
        match d.driverGet vd name with
        | .error e => (.error e, d)
        | .ok vol => (.ok ⟨vol, some labels⟩, d)
    | none =>
      match order.findSome? (fun vd => (d.driverGet vd name).toOption) with
      | some vol => (.ok ⟨vol, some labels⟩, d)
      | none => (.error .noSuchVolume, d)

/-- The end of `create`: the named driver's volume of that name, or else a new one, whose labels
are then stored under the name. -/
def createInDriver (d : Daemon) (name driverName : List Char) (labels : Labels) :
    Except VolError StoreVolume × Daemon :=
  match getDriver driverName with
  | .error e => (.error (.op e "create".toList name), d)
  | .ok vd =>
    match d.driverGet vd name with
    | .ok v => (.ok ⟨v, none⟩, d)
    | .error _ =>
      match d.driverCreate vd name with
      | (.error e, d) => (.error e, d)
      | (.ok v, d) =>
        let d := { d with labels := d.labels.insert name labels }
        -- the metadata is stored under the requested name
        match d.disk.answer with
        | (false, dk) => (.error (.host "db".toList), { d with disk := dk })
        | (true, dk) =>
          (.ok ⟨v, some labels⟩, { d with disk := { dk with db := dk.db.insert name labels } })

/-- `create(name, driverName, nil, labels)`. -/
def create (d : Daemon) (order : List Driver) (name driverName : List Char) (labels : Labels) :
    Except VolError StoreVolume × Daemon :=
  if isVolumeNameValid name = false then
    (.error (.op .invalidName "create".toList name), d)
  else
    match d.names.lookup name with
    | some v =>
      if v.vol.driverName ≠ driverName ∧ driverName ≠ [] ∧ driverName ≠ defaultDriverName then
        (.error .nameConflict, d)
      else (.ok v, d)
    | none =>
      -- with no driver named, a driver that already has the name is taken
      let probed : Except VolError StoreVolume × Daemon :=
        if driverName = [] then d.getVolume order name else (.error .noSuchVolume, d)
      match probed with
      | (.ok v, d) => (.ok v, d)
      | (.error _, d) => d.createInDriver name driverName labels

/-- `CreateWithRef(name, driverName, ref, nil, labels)`; `Create` is the same with the empty ref. -/
def createWithRef (d : Daemon) (order : List Driver) (name driverName ref : List Char)
    (labels : Labels) : Except VolError StoreVolume × Daemon :=
  let name := normaliseVolumeName name
  match d.create order name driverName labels with
  | (.error e, d) => (.error (.op e "create".toList name), d)
  | (.ok v, d) => (.ok v, d.setNamed v ref)

/-- `GetWithRef(name, driverName, ref)`. -/
def getWithRef (d : Daemon) (name driverName ref : List Char) :
    Except VolError StoreVolume × Daemon :=
  let name := normaliseVolumeName name
  match getDriver driverName with
  | .error e => (.error (.op e "get".toList name), d)
  | .ok vd =>
    match d.driverGet vd name with
    | .error e => (.error (.op e "get".toList name), d)
    | .ok v =>
      let d := d.setNamed ⟨v, none⟩ ref
      (.ok ⟨v, some ((d.labels.lookup name).getD [])⟩, d)

/-- `Get(name)`. -/
def get (d : Daemon) (order : List Driver) (name : List Char) :
    Except VolError StoreVolume × Daemon :=
  let name := normaliseVolumeName name
  match d.getVolume order name with
  | (.error e, d) => (.error (.op e "get".toList name), d)
  | (.ok v, d) => (.ok v, d.setNamed v [])

end Daemon

/-! ## 4. Starting the daemon -/

/-- `local.New(root, ...)`: a volume for each directory under `<root>/volumes`. -/
def localNew (dk : Disk) : Root :=
  ⟨dk.volumeDirs.foldl (fun m name => m.insert name ⟨name, defaultDriverName, dataPath dk.root name⟩) ∅⟩

/-- `configureVolumes`: the three drivers, `ceph` and `nfs` with empty maps, and a store whose
maps are empty. -/
def configureVolumes (dk : Disk) : Daemon where
  disk := dk
  localRoot := localNew dk
  cephRoot := ⟨∅⟩
  nfsRoot := ⟨∅⟩
  names := ∅
  refs := ∅
  labels := ∅

/-- The calls `registerMountPoints`, `lazyInitializeVolume` and the volume API make, and a
restart of the daemon. -/
inductive StoreOp where
  | createWithRef (order : List Driver) (name driverName ref : List Char) (labels : Labels)
  | getWithRef (name driverName ref : List Char)
  | get (order : List Driver) (name : List Char)
  | restart
  deriving DecidableEq, Repr

def Daemon.step (d : Daemon) : StoreOp → Daemon
  | .createWithRef order name driverName ref labels =>
    (d.createWithRef order name driverName ref labels).2
  | .getWithRef name driverName ref => (d.getWithRef name driverName ref).2
  | .get order name => (d.get order name).2
  | .restart => configureVolumes d.disk

end Docker.Volume
