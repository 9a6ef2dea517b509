import Mathlib.Data.Finset.Basic

/-!
# Ceph — the rbd volume driver's `Mount` and `Unmount`

`volume/ceph/ceph.go`.  A volume is an rbd image; `Mount` creates it if needed, maps it to a
fresh `/dev/rbd<n>`, opens a LUKS container on it when the device holds one, makes an ext4
filesystem when there is none, checks it, and returns the device to mount.  `Unmount` closes the
LUKS mapping if the device holds a container and, in a deferred call whose error it drops,
unmaps the device.  The `Volume` records one device path, whatever the mount id.

The host is the image, the rbd mappings and the open LUKS mappings.  Each command (`rbd create`,
`rbd map`, `rbd unmap`, `blkid` under `DeviceHasFilesystem`, `cryptsetup luksOpen` and
`luksClose`, `mkfs.ext4`, `fsck`) succeeds or fails as the next of the host's `answers` says, and
when it succeeds it does what it does to the host.
-/

namespace Docker.Cephvolumedriver

/-- What `DeviceHasFilesystem` reports: no filesystem (`""`), ext4, or `crypto_LUKS`. -/
inductive FsType where
  | none
  | ext4
  | cryptoLuks
  deriving DecidableEq, Repr

/-- A block device: `/dev/rbd<n>`, or `/dev/mapper/<name>` of an open LUKS mapping. -/
inductive Device where
  | rbd (n : Nat)
  | mapper (name : List Char)
  deriving DecidableEq, Repr

/-- The host as the driver sees it. -/
structure Host where
  imageExists : Bool
  /-- What the image holds. -/
  rawFs : FsType
  /-- What its LUKS container holds, when it is one. -/
  innerFs : FsType
  /-- The rbd devices the image is mapped to. -/
  mapped : Finset Nat
  /-- The open LUKS mappings: the name and the rbd device under it. -/
  luksOpen : List (List Char × Nat)
  nextDev : Nat
  /-- Whether each command, in order, succeeds. -/
  answers : List Bool

namespace Host

/-- The outcome of the next command. -/
def answer (h : Host) : Bool × Host :=
  match h.answers with
  | [] => (false, h)
  | a :: as => (a, { h with answers := as })

/-- `rbd create <name> --size ...`; an image that is already there (exit status 17) counts as
created. -/
def rbdCreate (h : Host) : Bool × Host :=
  match h.answer with
  | (false, h) => (false, h)
  | (true, h) =>
    if h.imageExists then (true, h)
    else (true, { h with imageExists := true, rawFs := .none })

/-- `rbd map <name>`: a fresh device. -/
def rbdMap (h : Host) : Option Nat × Host :=
  match h.answer with
  | (true, h) =>
    if h.imageExists then
      (some h.nextDev, { h with mapped := insert h.nextDev h.mapped, nextDev := h.nextDev + 1 })
    else (none, h)
  | (false, h) => (none, h)

/-- `rbd unmap <path>`; `none` is the path `""`. -/
def rbdUnmap (h : Host) (path : Option Nat) : Bool × Host :=
  match h.answer, path with
  | (true, h), some n =>
    if n ∈ h.mapped then (true, { h with mapped := h.mapped.erase n }) else (false, h)
  | (_, h), _ => (false, h)

def present (h : Host) : Device → Bool
  | .rbd n => n ∈ h.mapped
  | .mapper name => h.luksOpen.any fun m => m.1 = name

/-- `DeviceHasFilesystem(device)`: `blkid` finds nothing on a device that is not there. -/
def deviceHasFilesystem (h : Host) (dev : Option Device) : Option FsType × Host :=
  match h.answer with
  | (false, h) => (none, h)
  | (true, h) =>
    match dev with
    | some (.rbd n) => (some (if n ∈ h.mapped then h.rawFs else .none), h)
    | some (.mapper name) => (some (if h.present (.mapper name) then h.innerFs else .none), h)
    | none => (some .none, h)

/-- `cryptsetup luksOpen <device> <name>` with its key on stdin. -/
def luksOpenCmd (h : Host) (n : Nat) (name : List Char) : Bool × Host :=
  match h.answer with
  | (true, h) =>
    if n ∈ h.mapped ∧ h.rawFs = .cryptoLuks ∧ ¬h.present (.mapper name) then
      (true, { h with luksOpen := (name, n) :: h.luksOpen })
    else (false, h)
  | (false, h) => (false, h)

/-- `cryptsetup luksClose <name>`. -/
def luksCloseCmd (h : Host) (name : List Char) : Bool × Host :=
  match h.answer with
  | (true, h) =>
    if h.present (.mapper name) then
      (true, { h with luksOpen := h.luksOpen.filter fun m => m.1 ≠ name })
    else (false, h)
  | (false, h) => (false, h)

/-- `mkfs.ext4 ... <device>`. -/
def mkfs (h : Host) (dev : Device) : Bool × Host :=
  match h.answer with
  | (true, h) =>
    if h.present dev then
      match dev with
      | .rbd _ => (true, { h with rawFs := .ext4 })
      | .mapper _ => (true, { h with innerFs := .ext4 })
    else (false, h)
  | (false, h) => (false, h)

/-- `fsck -a <device>`. -/
def fsck (h : Host) (dev : Device) : Bool × Host :=
  match h.answer with
  | (true, h) => (h.present dev, h)
  | (false, h) => (false, h)

end Host

/-- `getLuksDeviceMapperName(name)`: `strings.Replace(name, "/", "--", -1)`. -/
def getLuksDeviceMapperName (name : List Char) : List Char :=
  name.flatMap fun c => if c = '/' then ['-', '-'] else [c]

/-- The `Volume`: its name, and the device paths `Mount` recorded, `none` for `""`. -/
structure Volume where
  name : List Char
  mappedDevicePath : Option Nat
  mappedLuksDevicePath : Option (List Char)

/-- Where `Mount` or `Unmount` returned an error. -/
inductive CephError where
  | createFailed
  | mapFailed
  | noFilesystemInfo
  | luksOpenFailed
  | mkfsFailed
  | fsckFailed
  | luksCloseFailed
  deriving DecidableEq, Repr

/-- A call's result, the volume and the host after it. -/
abbrev Outcome (α : Type) := Except CephError α × Volume × Host

/-- `v.mapCephVolume()`. -/
def Volume.mapCephVolume (v : Volume) (h : Host) : Outcome Unit :=
  match h.rbdMap with
  | (some n, h) => (.ok (), { v with mappedDevicePath := some n }, h)
  | (none, h) => (.error .mapFailed, v, h)

/-- `v.unmapCephVolume()`: the path is cleared only when `rbd unmap` succeeds. -/
def Volume.unmapCephVolume (v : Volume) (h : Host) : Volume × Host :=
  match h.rbdUnmap v.mappedDevicePath with
  | (true, h) => ({ v with mappedDevicePath := none }, h)
  | (false, h) => (v, h)

/-- The LUKS part of `Mount`: open the container on `/dev/rbd<n>` and look inside it. -/
def Volume.openLuks (v : Volume) (n : Nat) (h : Host) : Outcome (Device × FsType) :=
  let luksDevMapperName := getLuksDeviceMapperName v.name
  match h.luksOpenCmd n luksDevMapperName with
  | (false, h) => (.error .luksOpenFailed, v, h)
  | (true, h) =>
    let v := { v with mappedLuksDevicePath := some luksDevMapperName }
    match h.deviceHasFilesystem (some (.mapper luksDevMapperName)) with
    | (none, h) => (.error .noFilesystemInfo, v, h)
    | (some fsType, h) => (.ok (.mapper luksDevMapperName, fsType), v, h)

/-- The end of `Mount`: an ext4 filesystem if there is none, then `fsck`. -/
def Volume.prepareFs (v : Volume) (deviceToMount : Device) (fsType : FsType) (h : Host) :
    Outcome Device :=
  let made := if fsType = .none then h.mkfs deviceToMount else (true, h)
  match made with
  | (false, h) => (.error .mkfsFailed, v, h)
  | (true, h) =>
    match h.fsck deviceToMount with
    | (false, h) => (.error .fsckFailed, v, h)
    | (true, h) => (.ok deviceToMount, v, h)

/-- `v.Mount(id)`; the id is only logged. -/
def Volume.mount (v : Volume) (h : Host) : Outcome Device :=
  match h.rbdCreate with
  | (false, h) => (.error .createFailed, v, h)
  | (true, h) =>
    match v.mapCephVolume h with
    | (.error e, v, h) => (.error e, v, h)
    | (.ok (), v, h) =>
      -- check that the volume already has a filesystem
      match h.deviceHasFilesystem (v.mappedDevicePath.map .rbd) with
      | (none, h) => (.error .noFilesystemInfo, v, h)
      | (some fsType, h) =>
        match v.mappedDevicePath with
        -- `mapCephVolume` has just recorded the device
        | none => (.error .mapFailed, v, h)
        | some n =>
          if fsType = .cryptoLuks then
            match v.openLuks n h with
            | (.error e, v, h) => (.error e, v, h)
            | (.ok (dev, fsType), v, h) => v.prepareFs dev fsType h
          else v.prepareFs (.rbd n) fsType h

/-- The body of `v.Unmount(id)`, before its deferred `unmapCephVolume`. -/
def Volume.unmountBody (v : Volume) (h : Host) : Except CephError Unit × Host :=
  match h.deviceHasFilesystem (v.mappedDevicePath.map .rbd) with
  | (none, h) => (.error .noFilesystemInfo, h)
  | (some fsType, h) =>
    if fsType = .cryptoLuks then
      match h.luksCloseCmd (getLuksDeviceMapperName v.name) with
      | (false, h) => (.error .luksCloseFailed, h)
      | (true, h) => (.ok (), h)
    else (.ok (), h)

/-- `v.Unmount(id)`: the body, then `defer v.unmapCephVolume()` with its error dropped. -/
def Volume.unmount (v : Volume) (h : Host) : Outcome Unit :=
  match v.unmountBody h with
  | (r, h) =>
    match v.unmapCephVolume h with
    | (v, h) => (r, v, h)

/-- The calls the daemon makes on one volume: `MountPoint.Setup` and `UnmountVolumes`. -/
inductive VolumeOp where
  | mount
  | unmount
  deriving DecidableEq, Repr

end Docker.Cephvolumedriver
