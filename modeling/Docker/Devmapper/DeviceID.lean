import Mathlib
import Docker.Reasoning.BitmapAlloc

/-!
# DeviceID — the device-id allocator of the devmapper driver

Thin devices of the pool have 24-bit ids.  `deviceIDMap` holds one bit per id, eight to a
byte, set when the id is used; `NextDeviceID` is where the last search stopped.
`getNextFreeDeviceID` moves `NextDeviceID` on by one (modulo `2^24`) and tries each id in turn,
at most `maxDeviceID + 1` times.

The ids are `Fin (maxDeviceID + 1)` and the bitmap a `Vector` of `deviceIDMapSz` bytes, so no
index of the code can be out of range.  On the bitmap, marking an id sets or clears its bit
and no other (`isDeviceIDFree_markDeviceIDUsed`, `isDeviceIDFree_markDeviceIDFree`).  The
search loop is the library's first-fit search (`getNextFreeDeviceIDLoop_eq`) over the ids in
cyclic order from `NextDeviceID + 1`, which are all the ids.
-/

namespace Docker.Devmapper

open Reasoning.BitmapAlloc

/-- `maxDeviceID = 0xffffff // 24 bit, pool limit`. -/
def maxDeviceID : Nat := 0xffffff

/-- `deviceIDMapSz = (maxDeviceID + 1) / 8`. -/
def deviceIDMapSz : Nat := (maxDeviceID + 1) / 8

/-- A device id of the pool. -/
abbrev DeviceID := Fin (maxDeviceID + 1)

theorem byte_lt (deviceID : DeviceID) : deviceID.val / 8 < deviceIDMapSz := by
  have := deviceID.isLt
  simp only [maxDeviceID, deviceIDMapSz] at *
  omega

/-- The fields of `DeviceSet` the allocator reads and writes. -/
structure DeviceSet where
  nextDeviceID : DeviceID
  deviceIDMap : Vector UInt8 deviceIDMapSz

namespace DeviceSet

/-- `markDeviceIDUsed`. -/
def markDeviceIDUsed (devices : DeviceSet) (deviceID : DeviceID) : DeviceSet :=
  let i := deviceID.val % 8
  let mask : UInt8 := 1 <<< i.toUInt8
  have := byte_lt deviceID
  { devices with
    deviceIDMap := devices.deviceIDMap.set (deviceID.val / 8)
      (devices.deviceIDMap[deviceID.val / 8] ||| mask) }

/-- `markDeviceIDFree`. -/
def markDeviceIDFree (devices : DeviceSet) (deviceID : DeviceID) : DeviceSet :=
  let i := deviceID.val % 8
  let mask : UInt8 := ~~~(1 <<< i.toUInt8)
  have := byte_lt deviceID
  { devices with
    deviceIDMap := devices.deviceIDMap.set (deviceID.val / 8)
      (devices.deviceIDMap[deviceID.val / 8] &&& mask) }

/-- `isDeviceIDFree`. -/
def isDeviceIDFree (devices : DeviceSet) (deviceID : DeviceID) : Bool :=
  let i := deviceID.val % 8
  let mask : UInt8 := 1 <<< i.toUInt8
  have := byte_lt deviceID
  if devices.deviceIDMap[deviceID.val / 8] &&& mask ≠ 0 then false else true

/-- `incNextDeviceID`: IDs are 24bit, so wrap around. -/
def incNextDeviceID (devices : DeviceSet) : DeviceSet :=
  { devices with nextDeviceID :=
      ⟨(devices.nextDeviceID.val + 1) &&& maxDeviceID, Nat.lt_succ_of_le Nat.and_le_right⟩ }

/-- The loop of `getNextFreeDeviceID`, with `fuel` of its `maxDeviceID + 1` turns left. -/
def getNextFreeDeviceIDLoop : Nat → DeviceSet → Except String DeviceID × DeviceSet
  | 0, devices => (.error "devmapper: Unable to find a free device ID", devices)
  | fuel + 1, devices =>
    if devices.isDeviceIDFree devices.nextDeviceID then
      (.ok devices.nextDeviceID, devices.markDeviceIDUsed devices.nextDeviceID)
    else getNextFreeDeviceIDLoop fuel devices.incNextDeviceID

/-- `getNextFreeDeviceID`: the id found, or the error, and the set after the call.  (Go returns
the id `0` with the error.) -/
def getNextFreeDeviceID (devices : DeviceSet) : Except String DeviceID × DeviceSet :=
  getNextFreeDeviceIDLoop (maxDeviceID + 1) devices.incNextDeviceID

/-! ## 1. The bitmap -/

/-- Whether an id is free is bit `id % 8` of byte `id / 8`, clear. -/
theorem isDeviceIDFree_eq (devices : DeviceSet) (deviceID : DeviceID)
    (h : deviceID.val / 8 < deviceIDMapSz) :
    devices.isDeviceIDFree deviceID =
      !devices.deviceIDMap[deviceID.val / 8].toNat.testBit (deviceID.val % 8) := by
  have hk : deviceID.val % 8 < 8 := Nat.mod_lt _ (by decide)
  unfold isDeviceIDFree
  dsimp only
  by_cases hbit : devices.deviceIDMap[deviceID.val / 8].toNat.testBit (deviceID.val % 8) = true
  · rw [if_pos ((and_shiftLeft_ne_zero _ hk).mpr hbit), hbit]
    rfl
  · rw [if_neg (fun hne => hbit ((and_shiftLeft_ne_zero _ hk).mp hne)),
      Bool.eq_false_iff.mpr hbit]
    rfl

/-- Two ids are equal exactly when their values are. -/
theorem decide_val_eq (a b : DeviceID) : decide (a.val = b.val) = (b == a) := by
  rw [Bool.eq_iff_iff, decide_eq_true_iff, beq_iff_eq, Fin.val_inj, eq_comm]

/-- `markDeviceIDUsed` marks its id used and leaves every other id. -/
theorem isDeviceIDFree_markDeviceIDUsed (devices : DeviceSet) (a b : DeviceID) :
    (devices.markDeviceIDUsed a).isDeviceIDFree b = (devices.isDeviceIDFree b && b != a) := by
  have ha := byte_lt a
  have hb := byte_lt b
  rw [isDeviceIDFree_eq _ _ hb, isDeviceIDFree_eq _ _ hb]
  unfold markDeviceIDUsed
  dsimp only
  rw [testBit_set_or _ ha hb, Bool.not_or, decide_val_eq]
  rfl

/-- `markDeviceIDFree` marks its id free and leaves every other id. -/
theorem isDeviceIDFree_markDeviceIDFree (devices : DeviceSet) (a b : DeviceID) :
    (devices.markDeviceIDFree a).isDeviceIDFree b = (devices.isDeviceIDFree b || b == a) := by
  have ha := byte_lt a
  have hb := byte_lt b
  rw [isDeviceIDFree_eq _ _ hb, isDeviceIDFree_eq _ _ hb]
  unfold markDeviceIDFree
  dsimp only
  rw [testBit_set_and_not _ ha hb, Bool.not_and, Bool.not_not, decide_val_eq]

/-! ## 2. The search -/

theorem and_maxDeviceID (x : Nat) : x &&& maxDeviceID = x % (maxDeviceID + 1) :=
  Nat.and_two_pow_sub_one_eq_mod x 24

/-- The ids in cyclic order from `start`: `start, start + 1, …` modulo `2^24`. -/
def cyclicOrder (start : Nat) : List DeviceID :=
  (List.range (maxDeviceID + 1)).map fun k =>
    ⟨(start + k) % (maxDeviceID + 1), Nat.mod_lt _ (Nat.succ_pos _)⟩

/-- From any start, the cyclic order holds every id. -/
theorem mem_cyclicOrder (start : Nat) (x : DeviceID) : x ∈ cyclicOrder start := by
  obtain ⟨k, hk, hx⟩ :=
    exists_add_mod_eq (Nat.mod_lt start (Nat.succ_pos maxDeviceID)) x.isLt
  refine List.mem_map.mpr ⟨k, List.mem_range.mpr hk, Fin.ext ?_⟩
  rw [← hx, Nat.mod_add_mod]

/-- `k` turns of `incNextDeviceID` move `NextDeviceID` on by `k` and leave the bitmap. -/
theorem iterate_incNextDeviceID (devices : DeviceSet) (k : Nat) :
    incNextDeviceID^[k] devices =
      { devices with nextDeviceID :=
          ⟨(devices.nextDeviceID.val + k) % (maxDeviceID + 1), Nat.mod_lt _ (Nat.succ_pos _)⟩ } := by
  induction k with
  | zero =>
    simp only [Function.iterate_zero_apply, Nat.add_zero,
      Nat.mod_eq_of_lt devices.nextDeviceID.isLt, Fin.eta]
  | succ k ih =>
    rw [Function.iterate_succ_apply', ih]
    unfold incNextDeviceID
    congr 2
    rw [and_maxDeviceID, Nat.mod_add_mod, Nat.add_assoc]

/-- The loop is the first-fit search over the states `incNextDeviceID` leads to. -/
theorem getNextFreeDeviceIDLoop_eq (fuel : Nat) (devices : DeviceSet) :
    getNextFreeDeviceIDLoop fuel devices =
      match findFrom (fun d : DeviceSet => d.isDeviceIDFree d.nextDeviceID) incNextDeviceID fuel
          devices with
      | some d => (.ok d.nextDeviceID, d.markDeviceIDUsed d.nextDeviceID)
      | none =>
        (.error "devmapper: Unable to find a free device ID", incNextDeviceID^[fuel] devices) := by
  induction fuel generalizing devices with
  | zero => rfl
  | succ fuel ih =>
    rw [getNextFreeDeviceIDLoop, findFrom]
    by_cases h : devices.isDeviceIDFree devices.nextDeviceID = true
    · rw [if_pos h, if_pos h]
    · rw [if_neg h, if_neg h, ih, Function.iterate_succ_apply]

/-- The states the search goes through hold the ids in cyclic order from `NextDeviceID + 1`,
with the bitmap unchanged. -/
theorem map_iterate_incNextDeviceID (devices : DeviceSet) :
    (List.range (maxDeviceID + 1)).map (fun k => incNextDeviceID^[k] devices.incNextDeviceID) =
      (cyclicOrder (devices.nextDeviceID.val + 1)).map
        fun x => { devices with nextDeviceID := x } := by
  rw [cyclicOrder, List.map_map]
  apply List.map_congr_left
  intro k _
  rw [← Function.iterate_succ_apply, iterate_incNextDeviceID, Function.comp_apply]
  congr 3
  omega

theorem findFrom_incNextDeviceID (devices : DeviceSet) :
    findFrom (fun d : DeviceSet => d.isDeviceIDFree d.nextDeviceID) incNextDeviceID
        (maxDeviceID + 1) devices.incNextDeviceID =
      ((cyclicOrder (devices.nextDeviceID.val + 1)).find? devices.isDeviceIDFree).map
        fun x => { devices with nextDeviceID := x } := by
  -- whether a state is free reads only its bitmap
  have hfree : ((fun d : DeviceSet => d.isDeviceIDFree d.nextDeviceID) ∘
      fun x => { devices with nextDeviceID := x }) = devices.isDeviceIDFree := rfl
  rw [findFrom_eq_find?, map_iterate_incNextDeviceID, List.find?_map, hfree]

/-- `getNextFreeDeviceID` returns the first free id in cyclic order from `NextDeviceID + 1`,
marks it used and no other, and leaves `NextDeviceID` at it; it fails only when every id is
used.  `markDeviceIDFree` frees its id and no other. -/
theorem getNextFreeDeviceID_first_free (devices : DeviceSet) :
    (∀ x, devices.getNextFreeDeviceID.1 = .ok x ↔
      (cyclicOrder (devices.nextDeviceID.val + 1)).find? devices.isDeviceIDFree = some x) ∧
    (∀ x, devices.getNextFreeDeviceID.1 = .ok x →
      devices.getNextFreeDeviceID.2.nextDeviceID = x ∧
      ∀ y, devices.getNextFreeDeviceID.2.isDeviceIDFree y =
        (devices.isDeviceIDFree y && y != x)) ∧
    ((∃ e, devices.getNextFreeDeviceID.1 = .error e) ↔ ∀ y, devices.isDeviceIDFree y = false) ∧
    ∀ x y, (devices.markDeviceIDFree x).isDeviceIDFree y = (devices.isDeviceIDFree y || y == x) := by
  have hrun : devices.getNextFreeDeviceID =
      match ((cyclicOrder (devices.nextDeviceID.val + 1)).find? devices.isDeviceIDFree).map
          fun x => { devices with nextDeviceID := x } with
      | some d => (.ok d.nextDeviceID, d.markDeviceIDUsed d.nextDeviceID)
      | none => (.error "devmapper: Unable to find a free device ID",
          incNextDeviceID^[maxDeviceID + 1] devices.incNextDeviceID) := by
    rw [getNextFreeDeviceID, getNextFreeDeviceIDLoop_eq, findFrom_incNextDeviceID]
  cases hfind : (cyclicOrder (devices.nextDeviceID.val + 1)).find? devices.isDeviceIDFree with
  | none =>
    -- no id of the cyclic order, which holds them all, is free: the call fails
    have hres : devices.getNextFreeDeviceID.1 =
        .error "devmapper: Unable to find a free device ID" := by
      rw [hrun, hfind]
      rfl
    refine ⟨fun x => ?_, fun x h => ?_, ⟨fun _ y => ?_, fun _ => ⟨_, hres⟩⟩,
      isDeviceIDFree_markDeviceIDFree devices⟩
    · rw [hres]
      exact ⟨fun h => (by cases h), fun h => (by cases h)⟩
    · rw [hres] at h
      cases h
    · exact Bool.eq_false_iff.mpr (List.find?_eq_none.mp hfind y (mem_cyclicOrder _ y))
  | some x =>
    have hres : devices.getNextFreeDeviceID =
        (.ok x, { devices with nextDeviceID := x }.markDeviceIDUsed x) := by
      rw [hrun, hfind]
      rfl
    refine ⟨fun x' => ?_, fun x' h => ?_, ⟨fun ⟨e, he⟩ => ?_, fun hall => ?_⟩,
      isDeviceIDFree_markDeviceIDFree devices⟩
    · rw [hres]
      exact ⟨fun h => (by cases h; rfl), fun h => (by cases h; rfl)⟩
    · rw [hres] at h ⊢
      cases h
      exact ⟨rfl, fun y => isDeviceIDFree_markDeviceIDUsed _ x y⟩
    · rw [hres] at he
      cases he
    · -- the id found is free
      have hx := List.find?_some hfind
      rw [hall x] at hx
      cases hx

end DeviceSet

end Docker.Devmapper
