import Mathlib
import Docker.Volume.Named

/-!
# MountSpec — `volume.ParseMountSpec` of `volume/volume_unix.go`

A mount spec has one, two or three `:`-separated fields: destination; source and destination;
source, destination and mode.  The mode is a comma-separated list of items of five kinds (read-write,
label, propagation, copy, and this repository's volume kind `ceph`/`nfs`), at most one of each.
Whether the source names a host path (a bind) or a volume is decided by `ParseVolumeSource`, after
the three-field case has already set `Driver` from the mode's kind.

Every accepted spec has a clean absolute destination other than `/`, is read-only exactly when
its mode says `ro`, and is a bind or a named volume as its source says (`parseMountSpec_ok`).
A bind whose mode names a kind keeps that kind as its driver with no volume name, and
`lazyInitializeVolume` then asks the volume store for the volume `""` of that driver when the
container starts (`bind_mount_with_kind_fails_to_start`).
-/

namespace Docker.Volume

structure MountPoint where
  source : List Char
  destination : List Char
  rw : Bool
  name : List Char
  driver : List Char
  mode : List Char
  propagation : List Char
  copyData : Bool
  deriving DecidableEq, Repr

inductive SpecError where
  | invalidSpec (spec : List Char)
  | invalidMode (mode : List Char)
  | relativeDestination (dest : List Char)
  | rootDestination (spec : List Char)
  deriving DecidableEq, Repr

def SpecError.message : SpecError → String
  | .invalidSpec spec => "Invalid volume specification: '" ++ String.ofList spec ++ "'"
  | .invalidMode mode => "invalid mode: " ++ String.ofList mode
  | .relativeDestination dest =>
    "Invalid volume destination path: '" ++ String.ofList dest ++ "' mount path must be absolute."
  | .rootDestination spec =>
    "Invalid specification: destination can't be '/' in '" ++ String.ofList spec ++ "'"

def rwModes : List (List Char) := ["rw".toList, "ro".toList]

def labelModes : List (List Char) := ["Z".toList, "z".toList]

def kindModes : List (List Char) := ["nfs".toList, "ceph".toList]

def propagationModes : List (List Char) :=
  ["private".toList, "rprivate".toList, "slave".toList, "rslave".toList, "shared".toList,
    "rshared".toList]

def defaultPropagationMode : List Char := "rprivate".toList

def copyModes : List (List Char × Bool) := [("nocopy".toList, false)]

def defaultCopyMode : Bool := true

def copyModeExists (mode : List Char) : Bool :=
  (List.lookup mode copyModes).isSome

-- `getCopyMode(mode)`: the copy mode and whether one was given
def getCopyMode (mode : List Char) : Bool × Bool :=
  match (mode.splitOn ',').findSome? (fun o => List.lookup o copyModes) with
  | some isEnabled => (isEnabled, true)
  | none => (defaultCopyMode, false)

-- the five counters of `ValidMountMode`
structure ModeCounts where
  rw : Nat
  label : Nat
  propagation : Nat
  copy : Nat
  kind : Nat

-- one item of the mode; `none` is the `return false` of an unknown item
def countMode (c : ModeCounts) (o : List Char) : Option ModeCounts :=
  if rwModes.contains o then some { c with rw := c.rw + 1 }
  else if labelModes.contains o then some { c with label := c.label + 1 }
  else if propagationModes.contains o then some { c with propagation := c.propagation + 1 }
  else if copyModeExists o then some { c with copy := c.copy + 1 }
  else if kindModes.contains o then some { c with kind := c.kind + 1 }
  else none

def validMountMode (mode : List Char) : Bool :=
  match (mode.splitOn ',').foldlM countMode ⟨0, 0, 0, 0, 0⟩ with
  | none => false
  | some c => !(c.rw > 1 || c.label > 1 || c.propagation > 1 || c.copy > 1 || c.kind > 1)

def readWrite (mode : List Char) : Bool :=
  validMountMode mode && !(mode.splitOn ',').contains "ro".toList

def getPropagation (mode : List Char) : List Char :=
  ((mode.splitOn ',').find? propagationModes.contains).getD defaultPropagationMode

def hasPropagation (mode : List Char) : Bool :=
  (mode.splitOn ',').any propagationModes.contains

def getFsKind (mode : List Char) : List Char :=
  ((mode.splitOn ',').find? kindModes.contains).getD []

-- `ParseVolumeSource(spec)`: a name, or an absolute host path
def parseVolumeSource (spec : List Char) : List Char × List Char :=
  if !LexPath.isRooted spec then (spec, []) else ([], spec)

/-- The second half of `ParseMountSpec`, once the fields are read into `mp`: the destination is
cleaned and checked, and the source decides between a named volume and a bind. -/
def validateMountPoint (spec volumeDriver : List Char) (mp : MountPoint) :
    Except SpecError MountPoint :=
  let mp := { mp with destination := LexPath.clean mp.destination }
  if !LexPath.isRooted mp.destination then .error (.relativeDestination mp.destination)
  else if mp.destination = ['/'] then .error (.rootDestination spec)
  else
    let (name, source) := parseVolumeSource mp.source
    let sourced : Except SpecError MountPoint :=
      if source.length = 0 then
        let mp := { mp with
          source := []
          driver := if mp.driver.length = 0 then volumeDriver else mp.driver }
        -- named volumes can't have propagation properties specified
        if hasPropagation mp.mode then .error (.invalidSpec spec) else .ok mp
      else .ok { mp with source := LexPath.clean source }
    match sourced with
    | .error e => .error e
    | .ok mp =>
      let (copyData, isSet) := getCopyMode mp.mode
      -- do not allow copy modes on binds
      if name.length = 0 ∧ isSet then .error (.invalidMode mp.mode)
      else .ok { mp with copyData := copyData, name := name }

theorem validateMountPoint_ok {spec volumeDriver : List Char} {m mp : MountPoint}
    (h : validateMountPoint spec volumeDriver m = .ok mp) :
    LexPath.clean mp.destination = mp.destination ∧ LexPath.isRooted mp.destination = true ∧
      mp.destination ≠ ['/'] ∧ mp.rw = m.rw ∧ mp.mode = m.mode ∧
      (LexPath.isRooted m.source = true →
        mp.source = LexPath.clean m.source ∧ mp.name = [] ∧ mp.driver = m.driver) ∧
      (LexPath.isRooted m.source = false →
        mp.source = [] ∧ mp.name = m.source ∧
          mp.driver = if m.driver = [] then volumeDriver else m.driver) := by
  unfold validateMountPoint at h
  dsimp only at h
  -- the destination checks passed
  by_cases hrel : LexPath.isRooted (LexPath.clean m.destination) = true
  swap
  · rw [if_pos (by simpa using hrel)] at h
    cases h
  rw [if_neg (by simpa using hrel)] at h
  by_cases hroot : LexPath.clean m.destination = ['/']
  · rw [if_pos hroot] at h
    cases h
  rw [if_neg hroot] at h
  have hclean := LexPath.clean_clean_of_isRooted hrel
  cases hs : LexPath.isRooted m.source
  · -- a name: a named volume, whose driver defaults to `volumeDriver`
    simp only [parseVolumeSource, hs, Bool.not_false, ↓reduceIte, List.length_nil] at h
    by_cases hprop : hasPropagation m.mode = true
    · rw [if_pos hprop] at h
      cases h
    rw [if_neg hprop] at h
    dsimp only at h
    by_cases hcopy : m.source.length = 0 ∧ (getCopyMode m.mode).snd = true
    · rw [if_pos hcopy] at h
      cases h
    · rw [if_neg hcopy] at h
      cases h
      refine ⟨hclean, hrel, hroot, rfl, rfl, fun h => (by cases h), fun _ => ⟨rfl, rfl, ?_⟩⟩
      simp only [List.length_eq_zero_iff]
  · -- a host path: a bind
    have hne : m.source.length ≠ 0 := by
      intro h0
      rw [List.length_eq_zero_iff.1 h0] at hs
      cases hs
    simp only [parseVolumeSource, hs, Bool.not_true, Bool.false_eq_true, ↓reduceIte, hne] at h
    by_cases hcopy : ([] : List Char).length = 0 ∧ (getCopyMode m.mode).snd = true
    · rw [if_pos hcopy] at h
      cases h
    · rw [if_neg hcopy] at h
      cases h
      exact ⟨hclean, hrel, hroot, rfl, rfl, fun _ => ⟨rfl, rfl, rfl⟩, fun h => by cases h⟩

/-- `ParseMountSpec(spec, volumeDriver)`.  With at most two colons, `SplitN(spec, ":", 3)` splits
at every colon. -/
def parseMountSpec (spec volumeDriver : List Char) : Except SpecError MountPoint :=
  let mp : MountPoint :=
    { source := [], destination := [], rw := true, name := [], driver := [], mode := [],
      propagation := defaultPropagationMode, copyData := false }
  if (spec.filter (· = ':')).length > 2 then .error (.invalidSpec spec)
  else
    let arr := spec.splitOn ':'
    if arr.headD [] = [] then .error (.invalidSpec spec)
    else
      match arr with
      | [dest] => validateMountPoint spec volumeDriver { mp with destination := LexPath.clean dest }
      | [src, dest] =>
        -- a destination with a mode is not a volume: `/foo:rw`
        if validMountMode dest then .error (.invalidSpec spec)
        else validateMountPoint spec volumeDriver { mp with source := src, destination := dest }
      | [src, dest, mode] =>
        if !validMountMode mode then .error (.invalidMode mode)
        else
          validateMountPoint spec volumeDriver { mp with
            source := src
            destination := dest
            mode := mode
            rw := readWrite mode
            propagation := getPropagation mode
            driver := getFsKind mode }
      | _ => .error (.invalidSpec spec)

example : parseMountSpec "/src:/dst:ro".toList [] =
    .ok ⟨"/src".toList, "/dst".toList, false, [], [], "ro".toList, "rprivate".toList, true⟩ := by
  decide

theorem parseMountSpec_ok {spec volumeDriver : List Char} {mp : MountPoint}
    (h : parseMountSpec spec volumeDriver = .ok mp) (hfields : 2 ≤ (spec.splitOn ':').length) :
    LexPath.clean mp.destination = mp.destination ∧ LexPath.isRooted mp.destination = true ∧
      mp.destination ≠ ['/'] ∧ mp.mode = ((spec.splitOn ':').drop 2).headD [] ∧
      (mp.rw = false ↔ "ro".toList ∈ mp.mode.splitOn ',') ∧
      (LexPath.isRooted ((spec.splitOn ':').headD []) = true →
        mp.source = LexPath.clean ((spec.splitOn ':').headD []) ∧ mp.name = [] ∧
          mp.driver = getFsKind mp.mode) ∧
      (LexPath.isRooted ((spec.splitOn ':').headD []) = false →
        mp.source = [] ∧ mp.name = (spec.splitOn ':').headD [] ∧
          mp.driver = if getFsKind mp.mode = [] then volumeDriver else getFsKind mp.mode) := by
  unfold parseMountSpec at h
  dsimp only at h
  by_cases hcount : (spec.filter (· = ':')).length > 2
  · rw [if_pos hcount] at h
    cases h
  rw [if_neg hcount] at h
  by_cases hhead : (spec.splitOn ':').headD [] = []
  · rw [if_pos hhead] at h
    cases h
  rw [if_neg hhead] at h
  generalize spec.splitOn ':' = arr at h hfields ⊢
  rcases arr with _ | ⟨src, _ | ⟨dest, _ | ⟨mode, _ | ⟨x, rest⟩⟩⟩⟩
  · simp at hfields
  · simp at hfields
  · -- source and destination: no mode
    dsimp only at h
    by_cases hv : validMountMode dest = true
    · rw [if_pos hv] at h
      cases h
    rw [if_neg hv] at h
    obtain ⟨h₁, h₂, h₃, hrw, hmode, hbind, hnamed⟩ := validateMountPoint_ok h
    dsimp only at hrw hmode hbind hnamed
    -- an empty mode names no kind and does not say `ro`
    have hkind : getFsKind mp.mode = [] := by
      rw [hmode]
      rfl
    refine ⟨h₁, h₂, h₃, hmode, ?_, fun hs => ?_, fun hs => ?_⟩
    · rw [hrw, hmode]
      simp
    · obtain ⟨hsrc, hname, hdrv⟩ := hbind hs
      exact ⟨hsrc, hname, hdrv.trans hkind.symm⟩
    · obtain ⟨hsrc, hname, hdrv⟩ := hnamed hs
      refine ⟨hsrc, hname, ?_⟩
      rw [hdrv, hkind]
  · -- source, destination and mode
    dsimp only at h
    by_cases hv : validMountMode mode = true
    swap
    · rw [if_pos (by simpa using hv)] at h
      cases h
    rw [if_neg (by simpa using hv)] at h
    obtain ⟨h₁, h₂, h₃, hrw, hmode, hbind, hnamed⟩ := validateMountPoint_ok h
    dsimp only at hrw hmode hbind hnamed
    refine ⟨h₁, h₂, h₃, hmode, ?_, fun hs => ?_, fun hs => ?_⟩
    · -- the mode was checked, so `ReadWrite` only looks for `ro`
      simp [hrw, hmode, readWrite, hv]
    · obtain ⟨hsrc, hname, hdrv⟩ := hbind hs
      exact ⟨hsrc, hname, hmode ▸ hdrv⟩
    · obtain ⟨hsrc, hname, hdrv⟩ := hnamed hs
      exact ⟨hsrc, hname, hmode ▸ hdrv⟩
  · cases h

example :
    parseMountSpec "/src:/dst:ro".toList [] =
      .ok ⟨"/src".toList, "/dst".toList, false, [], [], "ro".toList, "rprivate".toList, true⟩ := by
  decide

/-- `daemon.lazyInitializeVolume(containerID, m)`: a mount point with a driver and no volume gets
the volume of its name from the store.  `volume` is the mount point's `Volume`. -/
def lazyInitializeVolume (d : Daemon) (containerID : List Char) (m : MountPoint)
    (volume : Option StoreVolume) : Except VolError (Option StoreVolume) × Daemon :=
  if m.driver.length > 0 ∧ volume = none then
    match d.getWithRef m.name m.driver containerID with
    | (.error e, d) => (.error e, d)
    | (.ok v, d) => (.ok (some v), d)
  else (.ok volume, d)

theorem bind_mount_with_kind_fails_to_start :
    parseMountSpec "/src:/dst:ceph".toList [] =
      .ok ⟨"/src".toList, "/dst".toList, true, [], "ceph".toList, "ceph".toList,
        "rprivate".toList, true⟩ ∧
    (lazyInitializeVolume (configureVolumes Daemon.freshDisk) "c1".toList
      ⟨"/src".toList, "/dst".toList, true, [], "ceph".toList, "ceph".toList,
        "rprivate".toList, true⟩ none).1 =
      .error (.op .notFound "get".toList []) := by
  decide

end Docker.Volume
