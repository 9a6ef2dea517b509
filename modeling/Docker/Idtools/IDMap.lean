import Mathlib
import Docker.Reasoning.Blocks

/-!
# IDMap — user-namespace id maps of `pkg/idtools`

`createIDMap` turns the subordinate id ranges of `/etc/subuid` (or `/etc/subgid`) into the map
handed to the kernel: the ranges sorted by start, container ids laid out from 0 one range after the
other.  `ToHost` and `ToContainer` translate through that map with the same linear search, one from
container ids, the other from host ids; a nil map is the identity.

The map read from container to host is a stack of blocks (`Reasoning.stack`), and read the other
way it is the same blocks inverted, so the two translations undo each other as soon as the host
ranges are apart (`createIDMap_round_trip`).  Ids are Go `int`s, modelled as `Int`: the sums below
stay far from the 64-bit bounds for any real subordinate id file.
-/

namespace Docker.Idtools

open Reasoning

structure IDMap where
  containerID : Int
  hostID : Int
  size : Int
  deriving DecidableEq, Repr

structure SubIDRange where
  start : Int
  length : Int
  deriving DecidableEq, Repr

/-- The host interval `[Start, Start + Length)` of a subordinate range. -/
def SubIDRange.Contains (r : SubIDRange) (h : Int) : Prop := r.start ≤ h ∧ h < r.start + r.length

instance (r : SubIDRange) (h : Int) : Decidable (r.Contains h) := inferInstanceAs (Decidable (_ ∧ _))

/-! ## 1. `ToContainer` and `ToHost` -/

/-- The loop `ToContainer` and `ToHost` share: the first entry whose `src` range holds `id`, with
the range's upper end written inclusively as in the source. -/
def findID (src dst : IDMap → Int) (id : Int) : List IDMap → Option Int
  | [] => none
  | m :: ms =>
    if id ≥ src m ∧ id ≤ src m + m.size - 1 then some (dst m + (id - src m))
    else findID src dst id ms

/-- A nil map is the identity; otherwise the search, or the function's error. -/
def mapID (src dst : IDMap → Int) (err : Int → List Char) (id : Int) :
    Option (List IDMap) → Except (List Char) Int
  | none => .ok id
  | some idMap =>
    match findID src dst id idMap with
    | some x => .ok x
    | none => .error (err id)

def toContainer (hostID : Int) (idMap : Option (List IDMap)) : Except (List Char) Int :=
  mapID IDMap.hostID IDMap.containerID
    (fun id => "Host ID ".toList ++ (toString id).toList ++ " cannot be mapped to a container ID".toList)
    hostID idMap

def toHost (contID : Int) (idMap : Option (List IDMap)) : Except (List Char) Int :=
  mapID IDMap.containerID IDMap.hostID
    (fun id => "Container ID ".toList ++ (toString id).toList ++ " cannot be mapped to a host ID".toList)
    contID idMap

/-- The remapped root: container id 0 through each map given, 0 where there is none. -/
def getRootUIDGID (uidMap gidMap : Option (List IDMap)) : Except (List Char) (Int × Int) := do
  let uid ← if uidMap.isSome then toHost 0 uidMap else pure 0
  let gid ← if gidMap.isSome then toHost 0 gidMap else pure 0
  return (uid, gid)

/-! ## 2. `createIDMap` -/

/-- `sort.Sort(subidRanges)` with `Less` comparing `Start`: lowest start first. -/
def sortRanges (subidRanges : List SubIDRange) : List SubIDRange :=
  subidRanges.insertionSort fun a b => a.start ≤ b.start

/-- One turn of the loop: the range's entry starts at the running container id. -/
def addRange (acc : List IDMap × Int) (idrange : SubIDRange) : List IDMap × Int :=
  (acc.1 ++ [⟨acc.2, idrange.start, idrange.length⟩], acc.2 + idrange.length)

def createIDMap (subidRanges : List SubIDRange) : List IDMap :=
  ((sortRanges subidRanges).foldl addRange ([], 0)).1

/-! ## 3. The maps as blocks -/

/-- An entry read from its `src` ids to its `dst` ids. -/
def IDMap.block (src dst : IDMap → Int) (m : IDMap) : Block := ⟨src m, dst m, m.size⟩

def SubIDRange.toPair (r : SubIDRange) : Int × Int := (r.start, r.length)

theorem findID_eq_lookup (src dst : IDMap → Int) (id : Int) (idMap : List IDMap) :
    findID src dst id idMap = lookup (idMap.map (IDMap.block src dst)) id := by
  induction idMap with
  | nil => rfl
  | cons m ms ih =>
    -- the source's inclusive upper end is the block's half-open one
    have hcond : (id ≥ src m ∧ id ≤ src m + m.size - 1) ↔ (IDMap.block src dst m).Contains id := by
      simp only [IDMap.block, Block.Contains]
      omega
    rw [findID, List.map_cons, lookup_cons, ih]
    simp only [hcond]
    rfl

section MapID

variable {src dst : IDMap → Int} {err : Int → List Char} {id x : Int} {idMap : List IDMap}

theorem mapID_eq_ok (h : lookup (idMap.map (IDMap.block src dst)) id = some x) :
    mapID src dst err id (some idMap) = .ok x := by
  rw [mapID, findID_eq_lookup, h]

theorem mapID_eq_error (h : lookup (idMap.map (IDMap.block src dst)) id = none) :
    mapID src dst err id (some idMap) = .error (err id) := by
  rw [mapID, findID_eq_lookup, h]

end MapID

theorem foldl_addRange (rs : List SubIDRange) (acc : List IDMap) (c : Int) :
    (rs.foldl addRange (acc, c)).1.map (IDMap.block IDMap.containerID IDMap.hostID) =
      acc.map (IDMap.block IDMap.containerID IDMap.hostID) ++ stack c (rs.map SubIDRange.toPair) := by
  induction rs generalizing acc c with
  | nil => simp
  | cons r rs ih =>
    rw [List.foldl_cons, addRange, ih, List.map_cons, SubIDRange.toPair, stack_cons,
      List.map_append, List.map_singleton, List.append_assoc, List.singleton_append]
    rfl

/-- Read from container to host, `createIDMap` is the sorted host ranges stacked from 0. -/
theorem map_block_createIDMap (ranges : List SubIDRange) :
    (createIDMap ranges).map (IDMap.block IDMap.containerID IDMap.hostID) =
      stack 0 ((sortRanges ranges).map SubIDRange.toPair) := by
  rw [createIDMap, foldl_addRange, List.map_nil, List.nil_append]

/-- Read from host to container, it is the same blocks inverted. -/
theorem map_block_inv_createIDMap (ranges : List SubIDRange) :
    (createIDMap ranges).map (IDMap.block IDMap.hostID IDMap.containerID) =
      (stack 0 ((sortRanges ranges).map SubIDRange.toPair)).map Block.inv := by
  rw [← map_block_createIDMap, List.map_map]
  rfl

theorem perm_sortRanges (ranges : List SubIDRange) : (sortRanges ranges).Perm ranges :=
  List.perm_insertionSort _ ranges

/-! ## 4. The round trip -/

section RoundTrip

variable {ranges : List SubIDRange} (hlen : ∀ r ∈ ranges, 0 < r.length)
  (hdisj : ranges.Pairwise fun r s => ∀ h, r.Contains h → ¬ s.Contains h)

include hlen in
theorem pairwise_apart_createIDMap :
    (stack 0 ((sortRanges ranges).map SubIDRange.toPair)).Pairwise Block.Apart := by
  apply pairwise_apart_stack
  intro p hp
  obtain ⟨r, hr, rfl⟩ := List.mem_map.mp hp
  exact (hlen r ((perm_sortRanges ranges).subset hr)).le

include hdisj in
theorem pairwise_apart_inv_createIDMap :
    ((stack 0 ((sortRanges ranges).map SubIDRange.toPair)).map Block.inv).Pairwise Block.Apart := by
  apply pairwise_apart_inv_stack
  rw [List.pairwise_map]
  exact (perm_sortRanges ranges).pairwise_iff (fun h x hs hr => h x hr hs) |>.mpr hdisj

theorem sum_sortRanges (ranges : List SubIDRange) :
    (((sortRanges ranges).map SubIDRange.toPair).map Prod.snd).sum =
      (ranges.map SubIDRange.length).sum := by
  rw [List.map_map]
  exact ((perm_sortRanges ranges).map _).sum_eq

include hlen hdisj in
/-- A container id below the total maps to a host id, which maps back to it. -/
theorem toHost_createIDMap_round_trip {c : Int} (hc0 : 0 ≤ c)
    (hc : c < (ranges.map SubIDRange.length).sum) :
    ∃ h, toHost c (some (createIDMap ranges)) = .ok h ∧
      toContainer h (some (createIDMap ranges)) = .ok c := by
  rw [← sum_sortRanges] at hc
  obtain ⟨b, hb, hcb⟩ := exists_contains_stack hc0 (by rw [zero_add]; exact hc)
  have hto : lookup (stack 0 ((sortRanges ranges).map SubIDRange.toPair)) c = some (b.apply c) :=
    lookup_of_contains (pairwise_apart_createIDMap hlen) hb hcb
  have hback := lookup_inv (pairwise_apart_inv_createIDMap hdisj) hto
  refine ⟨b.apply c, mapID_eq_ok ?_, mapID_eq_ok ?_⟩
  · rwa [map_block_createIDMap]
  · rwa [map_block_inv_createIDMap]

include hlen hdisj in
/-- A host id inside one of the ranges maps to a container id, which maps back to it. -/
theorem toContainer_createIDMap_round_trip {h : Int} (hh : ∃ r ∈ ranges, r.Contains h) :
    ∃ c, toContainer h (some (createIDMap ranges)) = .ok c ∧
      toHost c (some (createIDMap ranges)) = .ok h := by
  obtain ⟨r, hr, hrh⟩ := hh
  obtain ⟨b, hb, hbh⟩ : ∃ b ∈ (stack 0 ((sortRanges ranges).map SubIDRange.toPair)).map Block.inv,
      b.Contains h :=
    (exists_inv_contains_stack_iff 0 _ h).mpr
      ⟨r.toPair, List.mem_map_of_mem ((perm_sortRanges ranges).symm.subset hr), hrh⟩
  have hto := lookup_of_contains (pairwise_apart_inv_createIDMap hdisj) hb hbh
  have hback := lookup_inv (by simpa using pairwise_apart_createIDMap hlen) hto
  rw [List.map_map, Block.inv_comp_inv, List.map_id] at hback
  refine ⟨b.apply h, mapID_eq_ok ?_, mapID_eq_ok ?_⟩
  · rwa [map_block_inv_createIDMap]
  · rwa [map_block_createIDMap]

end RoundTrip

example : toHost 5 (some (createIDMap [⟨231072, 65536⟩, ⟨100000, 10⟩])) = .ok 100005 := by rfl

/-- Every container id outside `[0, total)` is rejected, with `ToHost`'s message. -/
theorem toHost_createIDMap_error (ranges : List SubIDRange) (hlen : ∀ r ∈ ranges, 0 < r.length)
    {c : Int} (hc : ¬ (0 ≤ c ∧ c < (ranges.map SubIDRange.length).sum)) :
    toHost c (some (createIDMap ranges)) =
      .error ("Container ID ".toList ++ (toString c).toList ++ " cannot be mapped to a host ID".toList) := by
  apply mapID_eq_error
  rw [map_block_createIDMap]
  apply lookup_eq_none
  intro b hb hcb
  have hsrc := src_mem_stack (fun p hp => ?_) hb
  · rw [sum_sortRanges] at hsrc
    simp only [Block.Contains] at hcb
    omega
  · obtain ⟨r, hr, rfl⟩ := List.mem_map.mp hp
    exact (hlen r ((perm_sortRanges ranges).subset hr)).le

/-- Every host id in none of the ranges is rejected, with `ToContainer`'s message. -/
theorem toContainer_createIDMap_error (ranges : List SubIDRange) {h : Int}
    (hh : ∀ r ∈ ranges, ¬ r.Contains h) :
    toContainer h (some (createIDMap ranges)) =
      .error ("Host ID ".toList ++ (toString h).toList ++ " cannot be mapped to a container ID".toList) := by
  apply mapID_eq_error
  rw [map_block_inv_createIDMap]
  apply lookup_eq_none
  intro b hb hbh
  obtain ⟨p, hp, hph⟩ := (exists_inv_contains_stack_iff 0 _ h).mp ⟨b, hb, hbh⟩
  obtain ⟨r, hr, rfl⟩ := List.mem_map.mp hp
  exact hh r ((perm_sortRanges ranges).subset hr) hph

theorem createIDMap_round_trip (ranges : List SubIDRange)
    (hlen : ∀ r ∈ ranges, 0 < r.length)
    (hdisj : ranges.Pairwise fun r s => ∀ h, r.Contains h → ¬ s.Contains h) :
    (∀ c, 0 ≤ c → c < (ranges.map SubIDRange.length).sum →
      ∃ h, toHost c (some (createIDMap ranges)) = .ok h ∧
        toContainer h (some (createIDMap ranges)) = .ok c) ∧
    (∀ h, (∃ r ∈ ranges, r.Contains h) →
      ∃ c, toContainer h (some (createIDMap ranges)) = .ok c ∧
        toHost c (some (createIDMap ranges)) = .ok h) ∧
    (∀ c, ¬ (0 ≤ c ∧ c < (ranges.map SubIDRange.length).sum) →
      toHost c (some (createIDMap ranges)) =
        .error ("Container ID ".toList ++ (toString c).toList ++ " cannot be mapped to a host ID".toList)) ∧
    (∀ h, (∀ r ∈ ranges, ¬ r.Contains h) →
      toContainer h (some (createIDMap ranges)) =
        .error ("Host ID ".toList ++ (toString h).toList ++ " cannot be mapped to a container ID".toList)) :=
  ⟨fun _ hc0 hc => toHost_createIDMap_round_trip hlen hdisj hc0 hc,
    fun _ hh => toContainer_createIDMap_round_trip hlen hdisj hh,
    fun _ hc => toHost_createIDMap_error ranges hlen hc,
    fun _ hh => toContainer_createIDMap_error ranges hh⟩

theorem createIDMap_round_trip_two_ranges :
    (∀ r ∈ ([⟨231072, 65536⟩, ⟨100000, 65536⟩] : List SubIDRange), 0 < r.length) ∧
      ([⟨231072, 65536⟩, ⟨100000, 65536⟩] : List SubIDRange).Pairwise
        (fun r s => ∀ h, r.Contains h → ¬ s.Contains h) ∧
      ∃ h, toHost 70000 (some (createIDMap [⟨231072, 65536⟩, ⟨100000, 65536⟩])) = .ok h ∧
        toContainer h (some (createIDMap [⟨231072, 65536⟩, ⟨100000, 65536⟩])) = .ok 70000 := by
  have hlen : ∀ r ∈ ([⟨231072, 65536⟩, ⟨100000, 65536⟩] : List SubIDRange), 0 < r.length := by
    decide
  have hdisj : ([⟨231072, 65536⟩, ⟨100000, 65536⟩] : List SubIDRange).Pairwise
      (fun r s => ∀ h, r.Contains h → ¬ s.Contains h) := by
    rw [List.pairwise_pair]
    intro h h₁ h₂
    simp only [SubIDRange.Contains] at h₁ h₂
    omega
  exact ⟨hlen, hdisj, (createIDMap_round_trip _ hlen hdisj).1 70000 (by decide) (by decide)⟩

end Docker.Idtools
