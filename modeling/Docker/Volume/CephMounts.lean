import Docker.Volume.Ceph

/-!
# CephMounts — what stays mapped while a ceph volume is mounted

`Mount` only ever adds rbd and LUKS mappings, so a device it returned stays mapped until the
next `Unmount` of the volume (`held_run`); and an `Unmount` that returns nil, when its deferred
`rbd unmap` succeeds, leaves neither the device the volume recorded nor its LUKS mapping
(`unmount_ok_releases`).  Both are about the volume, not about the mount id: the next `Unmount`
may be the one of another id, and the device recorded may be another `Mount`'s.
-/

namespace Docker.Cephvolumedriver

/-- Nothing the host had mapped or open is gone. -/
def Host.Grows (h h' : Host) : Prop :=
  h.mapped ⊆ h'.mapped ∧ ∀ m ∈ h.luksOpen, m ∈ h'.luksOpen

/-- A device a `Mount` returned is still there: an rbd device is mapped, a LUKS mapping is open
over a mapped rbd device. -/
def Host.Held (h : Host) : Device → Prop
  | .rbd n => n ∈ h.mapped
  | .mapper name => ∃ n, (name, n) ∈ h.luksOpen ∧ n ∈ h.mapped

namespace Host

variable {h h₁ h₂ : Host}

theorem Grows.refl (h : Host) : h.Grows h :=
  ⟨subset_refl _, fun _ hm => hm⟩

theorem Grows.trans (h₁₂ : h.Grows h₁) (h₂₃ : h₁.Grows h₂) : h.Grows h₂ :=
  ⟨Finset.Subset.trans h₁₂.1 h₂₃.1, fun m hm => h₂₃.2 m (h₁₂.2 m hm)⟩

theorem Held.mono (hg : h.Grows h₁) : ∀ {d : Device}, h.Held d → h₁.Held d
  | .rbd _, hd => hg.1 hd
  | .mapper _, ⟨n, hl, hn⟩ => ⟨n, hg.2 _ hl, hg.1 hn⟩

/-! ## 1. The commands -/

-- taking an answer changes only the answers
theorem answer_grows (h : Host) : h.Grows h.answer.2 := by
  unfold answer
  split <;> exact Grows.refl _

@[simp] theorem answer_mapped (h : Host) : h.answer.2.mapped = h.mapped := by
  unfold answer
  split <;> rfl

@[simp] theorem answer_luksOpen (h : Host) : h.answer.2.luksOpen = h.luksOpen := by
  unfold answer
  split <;> rfl

@[simp] theorem answer_rawFs (h : Host) : h.answer.2.rawFs = h.rawFs := by
  unfold answer
  split <;> rfl

theorem rbdCreate_grows (h : Host) : h.Grows h.rbdCreate.2 := by
  have hg := h.answer_grows
  unfold rbdCreate
  generalize h.answer = a at hg ⊢
  obtain ⟨b, h₁⟩ := a
  cases b
  · exact hg
  · dsimp only
    split_ifs
    · exact hg
    · exact hg

/-- A successful `rbd map` gives a mapped device. -/
theorem rbdMap_spec (h : Host) :
    h.Grows h.rbdMap.2 ∧ ∀ n, h.rbdMap.1 = some n → n ∈ h.rbdMap.2.mapped := by
  have hg := h.answer_grows
  unfold rbdMap
  generalize h.answer = a at hg ⊢
  obtain ⟨b, h₁⟩ := a
  cases b
  · exact ⟨hg, fun _ hn => by cases hn⟩
  · dsimp only
    split_ifs
    · refine ⟨hg.trans ⟨Finset.subset_insert _ _, fun _ hm => hm⟩, ?_⟩
      rintro n ⟨⟩
      exact Finset.mem_insert_self _ _
    · exact ⟨hg, fun _ hn => by cases hn⟩

-- the probe changes nothing but the answers
theorem deviceHasFilesystem_snd (h : Host) (dev : Option Device) :
    (h.deviceHasFilesystem dev).2 = h.answer.2 := by
  unfold deviceHasFilesystem
  generalize h.answer = a
  obtain ⟨b, h₁⟩ := a
  cases b
  · rfl
  · rcases dev with _ | _ | _ <;> rfl

theorem deviceHasFilesystem_grows (h : Host) (dev : Option Device) :
    h.Grows (h.deviceHasFilesystem dev).2 :=
  h.deviceHasFilesystem_snd dev ▸ h.answer_grows

/-- On a mapped rbd device the probe reports what the image holds. -/
theorem deviceHasFilesystem_rbd {n : Nat} (hn : n ∈ h.mapped) :
    ∀ fs, (h.deviceHasFilesystem (some (.rbd n))).1 = some fs → fs = h.rawFs := by
  have hm := h.answer_mapped
  have hr := h.answer_rawFs
  unfold deviceHasFilesystem
  generalize h.answer = a at hm hr ⊢
  obtain ⟨b, h₁⟩ := a
  cases b
  · rintro fs ⟨⟩
  · rintro fs ⟨⟩
    dsimp only at hm hr ⊢
    rw [if_pos (hm ▸ hn), hr]

/-- A successful `luksOpen` over `/dev/rbd<n>` leaves the mapping open. -/
theorem luksOpenCmd_spec (h : Host) (n : Nat) (name : List Char) :
    h.Grows (h.luksOpenCmd n name).2 ∧
      ((h.luksOpenCmd n name).1 = true → (name, n) ∈ (h.luksOpenCmd n name).2.luksOpen) := by
  have hg := h.answer_grows
  unfold luksOpenCmd
  generalize h.answer = a at hg ⊢
  obtain ⟨b, h₁⟩ := a
  cases b
  · exact ⟨hg, fun hb => by cases hb⟩
  · dsimp only
    split_ifs
    · exact ⟨hg.trans ⟨subset_refl _, fun _ hm => List.mem_cons_of_mem _ hm⟩,
        fun _ => List.mem_cons_self⟩
    · exact ⟨hg, fun hb => by cases hb⟩

theorem mkfs_grows (h : Host) (dev : Device) : h.Grows (h.mkfs dev).2 := by
  have hg := h.answer_grows
  unfold mkfs
  generalize h.answer = a at hg ⊢
  obtain ⟨b, h₁⟩ := a
  cases b
  · exact hg
  · dsimp only
    split_ifs
    · cases dev <;> exact hg
    · exact hg

theorem fsck_grows (h : Host) (dev : Device) : h.Grows (h.fsck dev).2 := by
  have hg := h.answer_grows
  unfold fsck
  generalize h.answer = a at hg ⊢
  obtain ⟨b, h₁⟩ := a
  cases b <;> exact hg

end Host

/-! ## 2. Mount only adds -/

section Mount

variable {v : Volume} {h : Host}

theorem mapCephVolume_spec (v : Volume) (h : Host) :
    h.Grows (v.mapCephVolume h).2.2 ∧
      ((v.mapCephVolume h).1 = .ok () →
        ∃ n, (v.mapCephVolume h).2.1.mappedDevicePath = some n ∧ n ∈ (v.mapCephVolume h).2.2.mapped) := by
  obtain ⟨hg, hn⟩ := h.rbdMap_spec
  unfold Volume.mapCephVolume
  generalize h.rbdMap = m at hg hn ⊢
  obtain ⟨n?, h₁⟩ := m
  cases n? with
  | none => exact ⟨hg, fun he => by cases he⟩
  | some n => exact ⟨hg, fun _ => ⟨n, rfl, hn n rfl⟩⟩

theorem prepareFs_spec (v : Volume) (dev : Device) (fsType : FsType) (h : Host) :
    h.Grows (v.prepareFs dev fsType h).2.2 ∧
      ∀ d, (v.prepareFs dev fsType h).1 = .ok d → d = dev := by
  -- `mkfs` when there is no filesystem, then `fsck`
  have hmade : h.Grows (if fsType = .none then h.mkfs dev else (true, h)).2 := by
    split_ifs
    · exact h.mkfs_grows dev
    · exact Host.Grows.refl h
  unfold Volume.prepareFs
  dsimp only
  generalize (if fsType = .none then h.mkfs dev else (true, h)) = made at hmade ⊢
  obtain ⟨b, h₁⟩ := made
  cases b
  · exact ⟨hmade, fun _ he => by cases he⟩
  · dsimp only
    have hf := h₁.fsck_grows dev
    generalize h₁.fsck dev = c at hf ⊢
    obtain ⟨b', h₂⟩ := c
    cases b'
    · exact ⟨hmade.trans hf, fun _ he => by cases he⟩
    · exact ⟨hmade.trans hf, fun _ he => by cases he; rfl⟩

theorem openLuks_spec (v : Volume) (n : Nat) (h : Host) :
    h.Grows (v.openLuks n h).2.2 ∧
      ∀ dev fs, (v.openLuks n h).1 = .ok (dev, fs) →
        ∃ name, dev = .mapper name ∧ (name, n) ∈ (v.openLuks n h).2.2.luksOpen := by
  obtain ⟨hg, hopen⟩ := h.luksOpenCmd_spec n (getLuksDeviceMapperName v.name)
  unfold Volume.openLuks
  dsimp only
  generalize h.luksOpenCmd n (getLuksDeviceMapperName v.name) = o at hg hopen ⊢
  obtain ⟨b, h₁⟩ := o
  cases b
  · exact ⟨hg, fun _ _ he => by cases he⟩
  · dsimp only
    have hopen := hopen rfl
    have hd := h₁.deviceHasFilesystem_grows (some (.mapper (getLuksDeviceMapperName v.name)))
    generalize h₁.deviceHasFilesystem (some (.mapper (getLuksDeviceMapperName v.name))) = p at hd ⊢
    obtain ⟨fs?, h₂⟩ := p
    cases fs? with
    | none => exact ⟨hg.trans hd, fun _ _ he => by cases he⟩
    | some fs =>
      refine ⟨hg.trans hd, ?_⟩
      rintro dev fs' ⟨⟩
      exact ⟨_, rfl, hd.2 _ hopen⟩

/-- `Mount` removes nothing, and the device it returns is there when it returns. -/
theorem mount_spec (v : Volume) (h : Host) :
    h.Grows (v.mount h).2.2 ∧ ∀ dev, (v.mount h).1 = .ok dev → (v.mount h).2.2.Held dev := by
  have hc := h.rbdCreate_grows
  unfold Volume.mount
  generalize h.rbdCreate = c at hc ⊢
  obtain ⟨b, h₁⟩ := c
  cases b
  · exact ⟨hc, fun _ he => by cases he⟩
  dsimp only
  obtain ⟨hm, hmapped⟩ := mapCephVolume_spec v h₁
  generalize v.mapCephVolume h₁ = m at hm hmapped ⊢
  obtain ⟨r, v₂, h₂⟩ := m
  rcases r with e | ⟨⟩
  · exact ⟨hc.trans hm, fun _ he => by cases he⟩
  obtain ⟨n, hpath, hn⟩ := hmapped rfl
  dsimp only
  have hd := h₂.deviceHasFilesystem_grows (v₂.mappedDevicePath.map .rbd)
  generalize h₂.deviceHasFilesystem (v₂.mappedDevicePath.map .rbd) = p at hd ⊢
  obtain ⟨fs?, h₃⟩ := p
  have hg₃ := (hc.trans hm).trans hd
  have hn₃ := hd.1 hn
  cases fs? with
  | none => exact ⟨hg₃, fun _ he => by cases he⟩
  | some fsType =>
    dsimp only
    rw [hpath]
    dsimp only
    split_ifs
    · -- the LUKS container: the mapping is open over `/dev/rbd<n>`
      obtain ⟨hl, hopen⟩ := openLuks_spec v₂ n h₃
      generalize v₂.openLuks n h₃ = o at hl hopen ⊢
      obtain ⟨r, v₄, h₄⟩ := o
      rcases r with e | ⟨dev, fs⟩
      · exact ⟨hg₃.trans hl, fun _ he => by cases he⟩
      obtain ⟨name, rfl, hname⟩ := hopen _ _ rfl
      obtain ⟨hp, hret⟩ := prepareFs_spec v₄ (.mapper name) fs h₄
      refine ⟨(hg₃.trans hl).trans hp, fun d hd' => ?_⟩
      rw [hret d hd']
      exact Host.Held.mono hp (d := .mapper name) ⟨n, hname, hl.1 hn₃⟩
    · obtain ⟨hp, hret⟩ := prepareFs_spec v₂ (.rbd n) fsType h₃
      refine ⟨hg₃.trans hp, fun d hd' => ?_⟩
      rw [hret d hd']
      exact Host.Held.mono hp (d := .rbd n) hn₃

end Mount

/-! ## 3. Unmount -/

section Unmount

variable {h : Host}

theorem Host.luksCloseCmd_spec (h : Host) (name : List Char) :
    (h.luksCloseCmd name).2.mapped = h.mapped ∧
      ((h.luksCloseCmd name).1 = true → (h.luksCloseCmd name).2.present (.mapper name) = false) := by
  have hm := h.answer_mapped
  unfold Host.luksCloseCmd
  generalize h.answer = a at hm ⊢
  obtain ⟨b, h₁⟩ := a
  cases b
  · exact ⟨hm, fun hb => by cases hb⟩
  · dsimp only
    split_ifs
    · refine ⟨hm, fun _ => ?_⟩
      simp [Host.present]
    · exact ⟨hm, fun hb => by cases hb⟩

theorem unmapCephVolume_luksOpen (v : Volume) (h : Host) :
    (v.unmapCephVolume h).2.luksOpen = h.luksOpen := by
  have hl := h.answer_luksOpen
  unfold Volume.unmapCephVolume Host.rbdUnmap
  generalize h.answer = a at hl ⊢
  obtain ⟨b, h₁⟩ := a
  rcases b with _ | _ <;> rcases v.mappedDevicePath with _ | n
  · exact hl
  · exact hl
  · exact hl
  · dsimp only
    split_ifs <;> exact hl

/-- The deferred unmap clears the recorded path only when it removed a mapped device. -/
theorem unmapCephVolume_unmapped (v : Volume) (h : Host) {n : Nat}
    (hn : v.mappedDevicePath = some n) (hun : (v.unmapCephVolume h).1.mappedDevicePath = none) :
    n ∈ h.mapped ∧ n ∉ (v.unmapCephVolume h).2.mapped := by
  have hm := h.answer_mapped
  unfold Volume.unmapCephVolume Host.rbdUnmap at hun ⊢
  rw [hn] at hun ⊢
  generalize h.answer = a at hm hun ⊢
  obtain ⟨b, h₁⟩ := a
  cases b
  · simp [hn] at hun
  · dsimp only at hun ⊢
    by_cases hmem : n ∈ h₁.mapped
    · rw [if_pos hmem]
      exact ⟨hm ▸ hmem, Finset.notMem_erase n h₁.mapped⟩
    · rw [if_neg hmem] at hun
      simp [hn] at hun

theorem unmountBody_mapped (v : Volume) (h : Host) : (v.unmountBody h).2.mapped = h.mapped := by
  have hm : (h.deviceHasFilesystem (v.mappedDevicePath.map .rbd)).2.mapped = h.mapped := by
    rw [Host.deviceHasFilesystem_snd, Host.answer_mapped]
  unfold Volume.unmountBody
  generalize h.deviceHasFilesystem (v.mappedDevicePath.map .rbd) = p at hm ⊢
  obtain ⟨fs?, h₁⟩ := p
  cases fs? with
  | none => exact hm
  | some fsType =>
    dsimp only
    split_ifs
    · have hc := (h₁.luksCloseCmd_spec (getLuksDeviceMapperName v.name)).1
      generalize h₁.luksCloseCmd (getLuksDeviceMapperName v.name) = c at hc ⊢
      obtain ⟨b, h₂⟩ := c
      cases b <;> exact hc.trans hm
    · exact hm

/-- When the recorded device holds a LUKS container and the body returns nil, the body closed
the volume's LUKS mapping. -/
theorem unmountBody_closes_luks (v : Volume) (h : Host) {n : Nat}
    (hn : v.mappedDevicePath = some n) (hmapped : n ∈ h.mapped) (hraw : h.rawFs = .cryptoLuks)
    (hok : (v.unmountBody h).1 = .ok ()) :
    (v.unmountBody h).2.present (.mapper (getLuksDeviceMapperName v.name)) = false := by
  unfold Volume.unmountBody at hok ⊢
  rw [hn] at hok ⊢
  have hfs := Host.deviceHasFilesystem_rbd hmapped
  dsimp only [Option.map_some] at hok ⊢
  generalize h.deviceHasFilesystem (some (.rbd n)) = p at hfs hok ⊢
  obtain ⟨fs?, h₁⟩ := p
  cases fs? with
  | none => cases hok
  | some fsType =>
    -- the probe sees the container, so `luksClose` ran, and it succeeded
    obtain rfl : fsType = .cryptoLuks := (hfs fsType rfl).trans hraw
    dsimp only at hok ⊢
    rw [if_pos rfl] at hok ⊢
    have hc := (h₁.luksCloseCmd_spec (getLuksDeviceMapperName v.name)).2
    generalize h₁.luksCloseCmd (getLuksDeviceMapperName v.name) = c at hc hok ⊢
    obtain ⟨b, h₂⟩ := c
    cases b
    · cases hok
    · exact hc rfl

/-- An `Unmount` that returns nil and whose deferred `rbd unmap` succeeded leaves neither the
device the volume recorded nor, on a LUKS image, the volume's mapping. -/
theorem unmount_ok_releases (v : Volume) (h : Host) {n : Nat} (hn : v.mappedDevicePath = some n)
    (hok : (v.unmount h).1 = .ok ()) (hun : (v.unmount h).2.1.mappedDevicePath = none) :
    n ∉ (v.unmount h).2.2.mapped ∧
      (h.rawFs = .cryptoLuks →
        (v.unmount h).2.2.present (.mapper (getLuksDeviceMapperName v.name)) = false) := by
  have hbm := unmountBody_mapped v h
  have hclose := unmountBody_closes_luks v h hn
  unfold Volume.unmount at hok hun ⊢
  generalize v.unmountBody h = b at hbm hclose hok hun ⊢
  obtain ⟨r, h₁⟩ := b
  dsimp only at hok hun hbm hclose ⊢
  subst hok
  obtain ⟨hmapped, hgone⟩ := unmapCephVolume_unmapped v h₁ hn hun
  refine ⟨hgone, fun hraw => ?_⟩
  have hl := unmapCephVolume_luksOpen v h₁
  have hclosed := hclose (hbm ▸ hmapped) hraw rfl
  simp only [Host.present] at hclosed ⊢
  rw [hl]
  exact hclosed

end Unmount

/-! ## 4. Runs -/

/-- One ceph volume and its host, with the devices the `Mount`s since the volume's last `Unmount`
returned. -/
structure MountSystem where
  v : Volume
  host : Host
  live : List Device

def MountSystem.step (s : MountSystem) : VolumeOp → MountSystem
  | .mount =>
    match s.v.mount s.host with
    | (.ok dev, v, h) => ⟨v, h, dev :: s.live⟩
    | (.error _, v, h) => ⟨v, h, s.live⟩
  -- whichever id it is for, an `Unmount` may release what every earlier `Mount` set up
  | .unmount =>
    match s.v.unmount s.host with
    | (_, v, h) => ⟨v, h, []⟩

def MountSystem.LiveHeld (s : MountSystem) : Prop :=
  ∀ d ∈ s.live, s.host.Held d

theorem MountSystem.step_liveHeld {s : MountSystem} (hs : s.LiveHeld) :
    ∀ op, (s.step op).LiveHeld
  | .mount => by
    obtain ⟨hg, hdev⟩ := mount_spec s.v s.host
    unfold MountSystem.step
    generalize s.v.mount s.host = m at hg hdev ⊢
    obtain ⟨r, v, h⟩ := m
    rcases r with e | dev
    · exact fun d hd => Host.Held.mono hg (hs d hd)
    · intro d hd
      rcases List.mem_cons.1 hd with rfl | hd
      · exact hdev d rfl
      · exact Host.Held.mono hg (hs d hd)
  | .unmount => by
    unfold MountSystem.step
    generalize s.v.unmount s.host = u
    obtain ⟨r, v, h⟩ := u
    rintro d ⟨⟩

/-- Every device a `Mount` returned since the volume's last `Unmount` is still there. -/
theorem held_run : ∀ (ops : List VolumeOp) (s : MountSystem), s.LiveHeld →
    (ops.foldl MountSystem.step s).LiveHeld
  | [], _, hs => hs
  | op :: ops, s, hs => held_run ops (s.step op) (s.step_liveHeld hs op)

/-! ## 5. One volume, two mount ids

The daemon mounts a volume once for each container that uses it, and unmounts it with the
container's id when the container stops or fails to start.  The `Volume` records one device, the
one the last successful `rbd map` gave, so an `Unmount` for any id releases it.  In the first two
runs below, the device of a container that is still running goes away; in the third, an
`Unmount` that returns nil leaves its device mapped. -/

/-- The existing, unmapped image of a volume, holding `rawFs` (and `innerFs` in a LUKS
container), whose commands answer `answers` in turn. -/
def imageHost (rawFs innerFs : FsType) (answers : List Bool) : Host :=
  ⟨true, rawFs, innerFs, ∅, [], 0, answers⟩

def rbdVol : Volume := ⟨"rbd/vol".toList, none, none⟩

theorem unmount_after_failed_map_releases_mounted :
    -- ext4: container 1 mounts `/dev/rbd0`; container 2's `rbd map` is refused, and its
    -- `Unmount` returns nil after unmapping `/dev/rbd0`
    (let m₁ := rbdVol.mount (imageHost .ext4 .none [true, true, true, true, true, false, true, true])
     let m₂ := m₁.2.1.mount m₁.2.2
     let u₂ := m₂.2.1.unmount m₂.2.2
     m₁.1 = .ok (.rbd 0) ∧ m₂.1 = .error .mapFailed ∧ u₂.1 = .ok () ∧
       u₂.2.2.present (.rbd 0) = false) ∧
    -- LUKS: the same, and container 1's mapping is closed too
    (let m₁ := rbdVol.mount (imageHost .cryptoLuks .ext4
       [true, true, true, true, true, true, true, false, true, true, true])
     let m₂ := m₁.2.1.mount m₁.2.2
     let u₂ := m₂.2.1.unmount m₂.2.2
     m₁.1 = .ok (.mapper "rbd--vol".toList) ∧ m₂.1 = .error .mapFailed ∧ u₂.1 = .ok () ∧
       u₂.2.2.present (.rbd 0) = false ∧ u₂.2.2.present (.mapper "rbd--vol".toList) = false) ∧
    -- one container: the deferred `rbd unmap` fails, `Unmount` returns nil, `/dev/rbd0` stays
    (let m₁ := rbdVol.mount (imageHost .ext4 .none [true, true, true, true, true, false])
     let u₁ := m₁.2.1.unmount m₁.2.2
     m₁.1 = .ok (.rbd 0) ∧ u₁.1 = .ok () ∧ u₁.2.2.present (.rbd 0) = true) := by
  decide

end Docker.Cephvolumedriver
