import Docker.Reasoning.Reach
import Docker.Volume.Store

/-!
# Named — finding a named volume again

`registerMountPoints` records a named volume by the name it was asked for and the driver the
store's volume reports; `lazyInitializeVolume` and `--volumes-from` look it up again with
`GetWithRef(name, driver)`.  What the drivers keep under a name decides whether that works:

* each driver's map only gains volumes while the daemon runs, and the store's `names` only point
  at volumes their driver has (`Daemon.Inv`, kept by every call and by a restart);
* a volume of the `local` or `ceph` driver is found again under its name for the rest of the
  daemon's run, and a `local` one after any number of restarts too, with the same name and path
  (`createWithRef_found_again`, `createWithRef_local_found_after_restarts`);
* the `nfs` driver names its volumes after the base64 of a fresh directory, so a name whose
  length is not a multiple of four is never an nfs volume's name, and `GetWithRef` of it fails
  in every state (`getWithRef_nfs_not_found`).
-/

namespace Docker.Volume

/-! ## 1. Host and drivers -/

namespace Disk

variable (dk : Disk)

@[simp] theorem answer_root : dk.answer.2.root = dk.root := by
  unfold answer
  split <;> rfl

@[simp] theorem answer_volumeDirs : dk.answer.2.volumeDirs = dk.volumeDirs := by
  unfold answer
  split <;> rfl

@[simp] theorem tempDir_root (dir : List Char) : (dk.tempDir dir).2.root = dk.root := by
  have h := dk.answer_root
  unfold tempDir
  generalize dk.answer = a at h ⊢
  obtain ⟨b, dk₁⟩ := a
  cases b <;> exact h

@[simp] theorem tempDir_volumeDirs (dir : List Char) :
    (dk.tempDir dir).2.volumeDirs = dk.volumeDirs := by
  have h := dk.answer_volumeDirs
  unfold tempDir
  generalize dk.answer = a at h ⊢
  obtain ⟨b, dk₁⟩ := a
  cases b <;> exact h

end Disk

theorem utf8_injective : Function.Injective utf8 := by
  intro l₁ l₂ h
  have hb : (String.ofList l₁).toByteArray = (String.ofList l₂).toByteArray := by
    rw [String.toByteArray_ofList, String.toByteArray_ofList]
    exact congrArg List.toByteArray h
  exact String.ofList_injective (String.toByteArray_inj.mp hb)

/-- One map extends another: what it had under a name it still has. -/
def Root.Le (r r' : Root) : Prop :=
  ∀ k v, r.volumes.lookup k = some v → r'.volumes.lookup k = some v

theorem Root.Le.refl (r : Root) : r.Le r :=
  fun _ _ h => h

theorem Root.Le.trans {r₁ r₂ r₃ : Root} (h₁₂ : r₁.Le r₂) (h₂₃ : r₂.Le r₃) : r₁.Le r₃ :=
  fun k v h => h₂₃ k v (h₁₂ k v h)

-- inserting under a name is harmless when the name holds nothing else
theorem Root.le_insert {r : Root} {k : List Char} {v : Vol}
    (h : ∀ v₀, r.volumes.lookup k = some v₀ → v₀ = v) : r.Le ⟨r.volumes.insert k v⟩ := by
  intro k' v' hk'
  by_cases hkk : k' = k
  · subst hkk
    rw [h v' hk']
    exact AList.lookup_insert r.volumes
  · rw [AList.lookup_insert_ne hkk]
    exact hk'

-- the local driver has each volume over the directory `<root>/volumes/<name>`
def LocalKeyed (dk : Disk) (r : Root) : Prop :=
  ∀ k v, r.volumes.lookup k = some v →
    v = ⟨k, defaultDriverName, dataPath dk.root k⟩ ∧ k ∈ dk.volumeDirs

def CephKeyed (r : Root) : Prop :=
  ∀ k v, r.volumes.lookup k = some v → v = ⟨k, Driver.ceph.name, []⟩

-- an nfs volume is named after its directory, and kept under that name
def NfsKeyed (r : Root) : Prop :=
  ∀ k v, r.volumes.lookup k = some v →
    v = ⟨Base64.encode (utf8 v.path), Driver.nfs.name, v.path⟩ ∧ k = v.name

theorem LocalKeyed.mono {dk dk' : Disk} {r : Root} (h : LocalKeyed dk r)
    (hroot : dk'.root = dk.root) (hdirs : dk.volumeDirs ⊆ dk'.volumeDirs) : LocalKeyed dk' r := by
  intro k v hk
  obtain ⟨rfl, hmem⟩ := h k v hk
  exact ⟨by rw [hroot], hdirs hmem⟩

theorem localCreate_disk (r : Root) (dk : Disk) (name : List Char) :
    (localCreate r dk name).2.2.root = dk.root ∧
      dk.volumeDirs ⊆ (localCreate r dk name).2.2.volumeDirs := by
  unfold localCreate
  split
  · exact ⟨rfl, List.Subset.refl _⟩
  · split
    · exact ⟨rfl, List.Subset.refl _⟩
    · have hr := dk.answer_root
      have hd := dk.answer_volumeDirs
      generalize dk.answer = a at hr hd ⊢
      obtain ⟨b, dk₁⟩ := a
      cases b
      · exact ⟨hr, hd ▸ List.Subset.refl _⟩
      · refine ⟨hr, fun x hx => ?_⟩
        rw [← hd] at hx
        exact List.mem_insert_of_mem hx

/-- `Create` of the local driver keeps the driver's map keyed, only adds to it, and what it
returns is what the map now has under the name. -/
theorem localCreate_spec {r : Root} {dk : Disk} (hk : LocalKeyed dk r) (name : List Char) :
    LocalKeyed (localCreate r dk name).2.2 (localCreate r dk name).2.1 ∧
      r.Le (localCreate r dk name).2.1 ∧
      ∀ v, (localCreate r dk name).1 = .ok v →
        (localCreate r dk name).2.1.volumes.lookup name = some v ∧ v.name = name ∧
          v.driverName = defaultDriverName := by
  obtain ⟨hroot, hdirs⟩ := localCreate_disk r dk name
  have hk' := hk.mono hroot hdirs
  revert hk'
  unfold localCreate
  split
  · exact fun hk' => ⟨hk', Root.Le.refl r, fun _ he => by cases he⟩
  · rename_i hvalid
    split
    · rename_i v hv
      refine fun hk' => ⟨hk', Root.Le.refl r, ?_⟩
      rintro _ ⟨⟩
      exact ⟨hv, (hk name v hv).1 ▸ rfl, (hk name v hv).1 ▸ rfl⟩
    · rename_i hnone
      have hr := dk.answer_root
      generalize dk.answer = a at hr ⊢
      obtain ⟨b, dk₁⟩ := a
      cases b
      · exact fun hk' => ⟨hk', Root.Le.refl r, fun _ he => by cases he⟩
      · intro hk'
        have hle : r.Le ⟨r.volumes.insert name ⟨name, defaultDriverName, dataPath dk.root name⟩⟩ :=
          Root.le_insert fun v₀ h₀ => by rw [hnone] at h₀; cases h₀
        refine ⟨?_, hle, ?_⟩
        · -- the new volume sits over the directory just made
          intro k v hkv
          by_cases hkn : k = name
          · subst hkn
            rw [AList.lookup_insert] at hkv
            cases hkv
            exact ⟨by rw [hr], List.mem_insert_self⟩
          · rw [AList.lookup_insert_ne hkn] at hkv
            exact hk' k v hkv
        · rintro _ ⟨⟩
          exact ⟨AList.lookup_insert _, rfl, rfl⟩

theorem cephCreate_spec {r : Root} (hk : CephKeyed r) (name : List Char) :
    CephKeyed (cephCreate r name).2 ∧ r.Le (cephCreate r name).2 ∧
      (cephCreate r name).2.volumes.lookup name = some (cephCreate r name).1 ∧
      (cephCreate r name).1 = ⟨name, Driver.ceph.name, []⟩ := by
  unfold cephCreate
  split
  · rename_i v hv
    exact ⟨hk, Root.Le.refl r, hv, hk name v hv⟩
  · rename_i hnone
    dsimp only
    have hle : r.Le ⟨r.volumes.insert name ⟨name, Driver.ceph.name, []⟩⟩ :=
      Root.le_insert fun v₀ h₀ => by rw [hnone] at h₀; cases h₀
    refine ⟨?_, hle, AList.lookup_insert _, rfl⟩
    intro k v hkv
    by_cases hkn : k = name
    · subst hkn
      rw [AList.lookup_insert] at hkv
      exact (Option.some.inj hkv).symm
    · rw [AList.lookup_insert_ne hkn] at hkv
      exact hk k v hkv

/-- `Create` of the nfs driver: the new volume is named after its directory, and since the
encoding is injective, a volume already under that name is the same volume. -/
theorem nfsCreate_spec {r : Root} (hk : NfsKeyed r) (dk : Disk) (name : List Char) :
    NfsKeyed (nfsCreate r dk name).2.1 ∧ r.Le (nfsCreate r dk name).2.1 ∧
      (nfsCreate r dk name).2.2.root = dk.root ∧
      (nfsCreate r dk name).2.2.volumeDirs = dk.volumeDirs ∧
      ∀ v, (nfsCreate r dk name).1 = .ok v →
        (nfsCreate r dk name).2.1.volumes.lookup v.name = some v ∧
          v.driverName = Driver.nfs.name := by
  have hr := dk.answer_root
  have hd := dk.answer_volumeDirs
  unfold nfsCreate
  generalize dk.answer = a at hr hd ⊢
  obtain ⟨b, dk₁⟩ := a
  cases b
  · exact ⟨hk, Root.Le.refl r, hr, hd, fun _ he => by cases he⟩
  · dsimp only
    have htr := dk₁.tempDir_root nfsMountsDirectory
    have htd := dk₁.tempDir_volumeDirs nfsMountsDirectory
    generalize dk₁.tempDir nfsMountsDirectory = t at htr htd ⊢
    obtain ⟨dir?, dk₂⟩ := t
    cases dir? with
    | none => exact ⟨hk, Root.Le.refl r, htr.trans hr, htd.trans hd, fun _ he => by cases he⟩
    | some dirName =>
      dsimp only
      set v : Vol := ⟨Base64.encode (utf8 dirName), Driver.nfs.name, dirName⟩ with hv
      have hle : r.Le ⟨r.volumes.insert v.name v⟩ := by
        refine Root.le_insert fun v₀ h₀ => ?_
        obtain ⟨hv₀, hname⟩ := hk _ _ h₀
        -- the same name means the same directory
        have henc : Base64.encode (utf8 v₀.path) = Base64.encode (utf8 dirName) :=
          calc _ = v₀.name := (congrArg Vol.name hv₀).symm
            _ = v.name := hname.symm
            _ = _ := rfl
        have hpath : v₀.path = dirName := utf8_injective (Base64.encode_injective henc)
        rw [hv₀, hpath]
      refine ⟨?_, hle, htr.trans hr, htd.trans hd, ?_⟩
      · intro k v' hkv
        by_cases hkn : k = v.name
        · subst hkn
          rw [AList.lookup_insert] at hkv
          cases hkv
          exact ⟨rfl, rfl⟩
        · rw [AList.lookup_insert_ne hkn] at hkv
          exact hk k v' hkv
      · rintro _ ⟨⟩
        exact ⟨AList.lookup_insert _, rfl⟩

/-! ## 2. The daemon's invariant -/

theorem Root.get_eq_ok {nf : List Char → VolError} {r : Root} {k : List Char} {v : Vol} :
    Root.get nf r k = .ok v ↔ r.volumes.lookup k = some v := by
  unfold Root.get
  cases h : r.volumes.lookup k <;> simp

theorem Except.toOption_eq_some {ε α : Type} {e : Except ε α} {a : α} :
    e.toOption = some a ↔ e = .ok a := by
  cases e <;> simp [Except.toOption]

theorem getDriver_name (vd : Driver) : getDriver vd.name = .ok vd := by
  cases vd <;> decide

-- a driver named other than by the empty name is the driver of that name
theorem getDriver_ok {name : List Char} {vd : Driver} (h : getDriver name = .ok vd)
    (hne : name ≠ []) : vd.name = name := by
  unfold getDriver at h
  rw [if_neg hne] at h
  dsimp only at h
  split at h
  · rename_i vd' hfind
    cases h
    simpa using List.find?_some hfind
  · cases h

namespace Daemon

/-- What a call of the running daemon keeps: the root, the directories under `<root>/volumes`,
and every volume of every driver. -/
def Le (d d' : Daemon) : Prop :=
  d'.disk.root = d.disk.root ∧ d.disk.volumeDirs ⊆ d'.disk.volumeDirs ∧
    d.localRoot.Le d'.localRoot ∧ d.cephRoot.Le d'.cephRoot ∧ d.nfsRoot.Le d'.nfsRoot

theorem Le.refl (d : Daemon) : d.Le d :=
  ⟨rfl, List.Subset.refl _, Root.Le.refl _, Root.Le.refl _, Root.Le.refl _⟩

theorem Le.trans {d₁ d₂ d₃ : Daemon} (h₁₂ : d₁.Le d₂) (h₂₃ : d₂.Le d₃) : d₁.Le d₃ :=
  ⟨h₂₃.1.trans h₁₂.1, List.Subset.trans h₁₂.2.1 h₂₃.2.1, h₁₂.2.2.1.trans h₂₃.2.2.1,
    h₁₂.2.2.2.1.trans h₂₃.2.2.2.1, h₁₂.2.2.2.2.trans h₂₃.2.2.2.2⟩

-- the map of each driver
def rootOf (d : Daemon) : Driver → Root
  | .«local» => d.localRoot
  | .ceph => d.cephRoot
  | .nfs => d.nfsRoot

theorem driverGet_eq_ok {d : Daemon} {vd : Driver} {k : List Char} {v : Vol} :
    d.driverGet vd k = .ok v ↔ (d.rootOf vd).volumes.lookup k = some v := by
  cases vd <;> simp only [driverGet, rootOf, localGet, cephGet, nfsGet, Root.get_eq_ok]

theorem Le.rootOf {d d' : Daemon} (hle : d.Le d') : ∀ vd, (d.rootOf vd).Le (d'.rootOf vd)
  | .«local» => hle.2.2.1
  | .ceph => hle.2.2.2.1
  | .nfs => hle.2.2.2.2

theorem driverGet_mono {d d' : Daemon} (hle : d.Le d') {vd : Driver} {k : List Char} {v : Vol}
    (h : d.driverGet vd k = .ok v) : d'.driverGet vd k = .ok v :=
  driverGet_eq_ok.2 (hle.rootOf vd k v (driverGet_eq_ok.1 h))

/-- The volume is the one its driver has under its name. -/
def Finds (d : Daemon) (v : Vol) : Prop :=
  ∃ vd, getDriver v.driverName = .ok vd ∧ d.driverGet vd v.name = .ok v

theorem Finds.mono {d d' : Daemon} {v : Vol} (h : d.Finds v) (hle : d.Le d') : d'.Finds v :=
  let ⟨vd, hg, hget⟩ := h
  ⟨vd, hg, driverGet_mono hle hget⟩

/-- Each driver's map is keyed as the driver keys it, and the store's `names` point at volumes
their driver has. -/
structure Inv (d : Daemon) : Prop where
  localKeyed : LocalKeyed d.disk d.localRoot
  cephKeyed : CephKeyed d.cephRoot
  nfsKeyed : NfsKeyed d.nfsRoot
  names : ∀ k sv, d.names.lookup k = some sv → sv.vol.name = k ∧ d.Finds sv.vol

variable {d : Daemon}

theorem Inv.driverGet (hd : d.Inv) {vd : Driver} {k : List Char} {v : Vol}
    (h : d.driverGet vd k = .ok v) : v.name = k ∧ v.driverName = vd.name := by
  have hlook := driverGet_eq_ok.1 h
  cases vd with
  | «local» =>
    obtain ⟨rfl, -⟩ := hd.localKeyed k v hlook
    exact ⟨rfl, rfl⟩
  | ceph =>
    obtain rfl := hd.cephKeyed k v hlook
    exact ⟨rfl, rfl⟩
  | nfs =>
    obtain ⟨hv, hk⟩ := hd.nfsKeyed k v hlook
    exact ⟨hk.symm, congrArg Vol.driverName hv⟩

theorem Inv.finds (hd : d.Inv) {vd : Driver} {k : List Char} {v : Vol}
    (h : d.driverGet vd k = .ok v) : d.Finds v := by
  obtain ⟨rfl, hdrv⟩ := hd.driverGet h
  exact ⟨vd, hdrv ▸ getDriver_name vd, h⟩

/-- A call that only adds to the driver maps, and leaves them keyed, keeps the invariant. -/
theorem Inv.of_le {d' : Daemon} (hd : d.Inv) (hle : d.Le d') (hnames : d'.names = d.names)
    (hl : LocalKeyed d'.disk d'.localRoot) (hc : CephKeyed d'.cephRoot)
    (hn : NfsKeyed d'.nfsRoot) : d'.Inv where
  localKeyed := hl
  cephKeyed := hc
  nfsKeyed := hn
  names k sv hk := by
    rw [hnames] at hk
    obtain ⟨hname, hf⟩ := hd.names k sv hk
    exact ⟨hname, hf.mono hle⟩

-- the disk's answers, its database and the store's labels play no part
theorem Inv.withDisk (hd : d.Inv) (dk : Disk) (hroot : dk.root = d.disk.root)
    (hdirs : d.disk.volumeDirs ⊆ dk.volumeDirs) :
    ({ d with disk := dk } : Daemon).Inv ∧ d.Le { d with disk := dk } := by
  have hle : d.Le { d with disk := dk } :=
    ⟨hroot, hdirs, Root.Le.refl _, Root.Le.refl _, Root.Le.refl _⟩
  exact ⟨hd.of_le hle rfl (hd.localKeyed.mono hroot hdirs) hd.cephKeyed hd.nfsKeyed, hle⟩

theorem Inv.withLabels (hd : d.Inv) (labels : AList fun _ : List Char => Labels) :
    ({ d with labels := labels } : Daemon).Inv :=
  hd.of_le (Le.refl d) rfl hd.localKeyed hd.cephKeyed hd.nfsKeyed

theorem Inv.setNamed (hd : d.Inv) {sv : StoreVolume} (hf : d.Finds sv.vol) (ref : List Char) :
    (d.setNamed sv ref).Inv where
  localKeyed := hd.localKeyed
  cephKeyed := hd.cephKeyed
  nfsKeyed := hd.nfsKeyed
  names k sv' hk := by
    by_cases hks : k = sv.vol.name
    · subst hks
      rw [Daemon.setNamed, AList.lookup_insert] at hk
      cases hk
      exact ⟨rfl, hf⟩
    · rw [Daemon.setNamed, AList.lookup_insert_ne hks] at hk
      exact hd.names k sv' hk

/-- A driver's `Create` keeps the invariant and only adds; what it returns is what the driver
has under the volume's name. -/
theorem Inv.driverCreate (hd : d.Inv) (vd : Driver) (name : List Char) :
    (d.driverCreate vd name).2.Inv ∧ d.Le (d.driverCreate vd name).2 ∧
      (d.driverCreate vd name).2.names = d.names ∧
      ∀ v, (d.driverCreate vd name).1 = .ok v →
        (d.driverCreate vd name).2.Finds v ∧ v.driverName = vd.name ∧
          (vd ≠ .nfs → v.name = name) := by
  cases vd with
  | «local» =>
    obtain ⟨hk, hle, hok⟩ := localCreate_spec hd.localKeyed name
    obtain ⟨hroot, hdirs⟩ := localCreate_disk d.localRoot d.disk name
    rw [Daemon.driverCreate]
    generalize localCreate d.localRoot d.disk name = o at hk hle hok hroot hdirs ⊢
    obtain ⟨r, root, dk⟩ := o
    have hle' : d.Le { d with localRoot := root, disk := dk } :=
      ⟨hroot, hdirs, hle, Root.Le.refl _, Root.Le.refl _⟩
    have hd' := hd.of_le hle' rfl hk hd.cephKeyed hd.nfsKeyed
    refine ⟨hd', hle', rfl, fun v hv => ?_⟩
    obtain ⟨hlook, hname, hdrv⟩ := hok v hv
    have hget : Daemon.driverGet { d with localRoot := root, disk := dk } .«local» name = .ok v :=
      driverGet_eq_ok.2 hlook
    exact ⟨hd'.finds hget, hdrv, fun _ => hname⟩
  | ceph =>
    obtain ⟨hk, hle, hlook, hv⟩ := cephCreate_spec hd.cephKeyed name
    rw [Daemon.driverCreate]
    generalize cephCreate d.cephRoot name = o at hk hle hlook hv ⊢
    obtain ⟨v, root⟩ := o
    have hle' : d.Le { d with cephRoot := root } :=
      ⟨rfl, List.Subset.refl _, Root.Le.refl _, hle, Root.Le.refl _⟩
    have hd' := hd.of_le hle' rfl hd.localKeyed hk hd.nfsKeyed
    refine ⟨hd', hle', rfl, ?_⟩
    rintro _ ⟨⟩
    subst hv
    have hget : Daemon.driverGet { d with cephRoot := root } .ceph name = .ok ⟨name, _, []⟩ :=
      driverGet_eq_ok.2 hlook
    exact ⟨hd'.finds hget, rfl, fun _ => rfl⟩
  | nfs =>
    obtain ⟨hk, hle, hroot, hdirs, hok⟩ := nfsCreate_spec hd.nfsKeyed d.disk name
    rw [Daemon.driverCreate]
    generalize nfsCreate d.nfsRoot d.disk name = o at hk hle hroot hdirs hok ⊢
    obtain ⟨r, root, dk⟩ := o
    have hle' : d.Le { d with nfsRoot := root, disk := dk } :=
      ⟨hroot, hdirs ▸ List.Subset.refl _, Root.Le.refl _, Root.Le.refl _, hle⟩
    have hd' := hd.of_le hle' rfl (hd.localKeyed.mono hroot (hdirs ▸ List.Subset.refl _))
      hd.cephKeyed hk
    refine ⟨hd', hle', rfl, fun v hv => ?_⟩
    obtain ⟨hlook, hdrv⟩ := hok v hv
    have hget : Daemon.driverGet { d with nfsRoot := root, disk := dk } .nfs v.name = .ok v :=
      driverGet_eq_ok.2 hlook
    exact ⟨hd'.finds hget, hdrv, fun hne => absurd rfl hne⟩

/-! ## 3. Each call of the store -/

theorem getVolume_snd (d : Daemon) (order : List Driver) (name : List Char) :
    (d.getVolume order name).2 = { d with disk := d.disk.answer.2 } := by
  unfold getVolume
  generalize d.disk.answer = a
  obtain ⟨b, dk⟩ := a
  cases b
  · rfl
  · dsimp only
    split
    · split
      · rfl
      · split <;> rfl
    · split <;> rfl

/-- The store's `getVolume` returns what a driver's `Get` of the name returned. -/
theorem Inv.getVolume (hd : d.Inv) (order : List Driver) (name : List Char) :
    (d.getVolume order name).2.Inv ∧ d.Le (d.getVolume order name).2 ∧
      (d.getVolume order name).2.names = d.names ∧
      ∀ sv, (d.getVolume order name).1 = .ok sv →
        sv.vol.name = name ∧ (d.getVolume order name).2.Finds sv.vol := by
  obtain ⟨hd₁, hle₁⟩ :=
    hd.withDisk _ d.disk.answer_root (d.disk.answer_volumeDirs ▸ List.Subset.refl _)
  refine ⟨getVolume_snd d order name ▸ hd₁, getVolume_snd d order name ▸ hle₁,
    by rw [getVolume_snd], fun sv hsv => ?_⟩
  rw [getVolume_snd]
  -- a volume it returns is what some driver's `Get` of the name gave
  suffices ∃ vd, ({ d with disk := d.disk.answer.2 } : Daemon).driverGet vd name = .ok sv.vol by
    obtain ⟨vd, hget⟩ := this
    exact ⟨(hd₁.driverGet hget).1, hd₁.finds hget⟩
  unfold Daemon.getVolume at hsv
  generalize d.disk.answer = a at hsv ⊢
  obtain ⟨b, dk⟩ := a
  cases b
  · cases hsv
  dsimp only at hsv
  split at hsv
  · split at hsv
    · cases hsv
    · rename_i vd _
      split at hsv
      · cases hsv
      · rename_i vol hvol
        cases hsv
        exact ⟨vd, hvol⟩
  · split at hsv
    · rename_i vol hvol
      cases hsv
      obtain ⟨vd, -, hget⟩ := List.exists_of_findSome?_eq_some hvol
      exact ⟨vd, Except.toOption_eq_some.1 hget⟩
    · cases hsv

/-- What `create` asks of the driver: a volume it returns is its driver's volume, named as asked
unless the nfs driver named it, and of the driver asked for. -/
theorem Inv.createInDriver (hd : d.Inv) (name driverName : List Char) (labels : Labels) :
    (d.createInDriver name driverName labels).2.Inv ∧
      d.Le (d.createInDriver name driverName labels).2 ∧
      (d.createInDriver name driverName labels).2.names = d.names ∧
      ∀ sv, (d.createInDriver name driverName labels).1 = .ok sv →
        (d.createInDriver name driverName labels).2.Finds sv.vol ∧
          (sv.vol.name = name ∨ sv.vol.driverName = Driver.nfs.name) ∧
          (driverName ≠ [] → sv.vol.driverName = driverName) := by
  unfold Daemon.createInDriver
  split
  · exact ⟨hd, Le.refl d, rfl, fun _ he => by cases he⟩
  rename_i vd hvd
  split
  · -- the driver already has a volume of that name
    rename_i v hv
    refine ⟨hd, Le.refl d, rfl, ?_⟩
    rintro _ ⟨⟩
    obtain ⟨hname, hdrv⟩ := hd.driverGet hv
    exact ⟨hd.finds hv, .inl hname, fun hne => hdrv.trans (getDriver_ok hvd hne)⟩
  obtain ⟨hd₂, hle₂, hnames₂, hok⟩ := hd.driverCreate vd name
  generalize d.driverCreate vd name = c at hd₂ hle₂ hnames₂ hok ⊢
  obtain ⟨r, d₂⟩ := c
  rcases r with e | v
  · exact ⟨hd₂, hle₂, hnames₂, fun _ he => by cases he⟩
  obtain ⟨hf, hdrv, hname⟩ := hok v rfl
  have hvol : (v.name = name ∨ v.driverName = Driver.nfs.name) ∧
      (driverName ≠ [] → v.driverName = driverName) := by
    refine ⟨?_, fun hne => hdrv.trans (getDriver_ok hvd hne)⟩
    by_cases hnfs : vd = .nfs
    · exact .inr (hnfs ▸ hdrv)
    · exact .inl (hname hnfs)
  dsimp only
  have hd₃ := hd₂.withLabels (d₂.labels.insert name labels)
  -- then the metadata is stored
  have hr := d₂.disk.answer_root
  have hdirs := d₂.disk.answer_volumeDirs
  generalize d₂.disk.answer = a at hr hdirs ⊢
  obtain ⟨b, dk⟩ := a
  cases b
  · obtain ⟨hd₄, hle₄⟩ := hd₃.withDisk _ hr (hdirs ▸ List.Subset.refl _)
    exact ⟨hd₄, hle₂.trans hle₄, hnames₂, fun _ he => by cases he⟩
  · obtain ⟨hd₄, hle₄⟩ :=
      hd₃.withDisk { dk with db := dk.db.insert name labels } hr
        (hdirs ▸ List.Subset.refl _)
    refine ⟨hd₄, hle₂.trans hle₄, hnames₂, ?_⟩
    rintro _ ⟨⟩
    exact ⟨hf.mono hle₄, hvol⟩

/-- `create` returns the store's volume of the name, the volume a driver already has, or a new
one; in each case its driver has it, and a driver asked for by a name other than the default
is the driver of the volume. -/
theorem Inv.create (hd : d.Inv) (order : List Driver) (name driverName : List Char)
    (labels : Labels) :
    (d.create order name driverName labels).2.Inv ∧
      d.Le (d.create order name driverName labels).2 ∧
      (d.create order name driverName labels).2.names = d.names ∧
      ∀ sv, (d.create order name driverName labels).1 = .ok sv →
        (d.create order name driverName labels).2.Finds sv.vol ∧
          (sv.vol.name = name ∨ sv.vol.driverName = Driver.nfs.name) ∧
          (driverName ≠ [] → driverName ≠ defaultDriverName → sv.vol.driverName = driverName) := by
  unfold Daemon.create
  split
  · exact ⟨hd, Le.refl d, rfl, fun _ he => by cases he⟩
  split
  · -- the store already knows the name
    rename_i sv hsv
    split_ifs with hconflict
    · exact ⟨hd, Le.refl d, rfl, fun _ he => by cases he⟩
    refine ⟨hd, Le.refl d, rfl, ?_⟩
    rintro _ ⟨⟩
    obtain ⟨hname, hf⟩ := hd.names name sv hsv
    refine ⟨hf, .inl hname, fun hne hdef => ?_⟩
    by_contra hdrv
    exact hconflict ⟨hdrv, hne, hdef⟩
  -- what the driver does, from the state after the probe
  have htail : ∀ d₁ : Daemon, d₁.Inv → d.Le d₁ → d₁.names = d.names →
      (d₁.createInDriver name driverName labels).2.Inv ∧
        d.Le (d₁.createInDriver name driverName labels).2 ∧
        (d₁.createInDriver name driverName labels).2.names = d.names ∧
        ∀ sv, (d₁.createInDriver name driverName labels).1 = .ok sv →
          (d₁.createInDriver name driverName labels).2.Finds sv.vol ∧
            (sv.vol.name = name ∨ sv.vol.driverName = Driver.nfs.name) ∧
            (driverName ≠ [] → driverName ≠ defaultDriverName →
              sv.vol.driverName = driverName) := by
    intro d₁ hd₁ hle₁ hnames₁
    obtain ⟨hd₂, hle₂, hnames₂, hok⟩ := hd₁.createInDriver name driverName labels
    exact ⟨hd₂, hle₁.trans hle₂, hnames₂.trans hnames₁,
      fun sv hsv => ⟨(hok sv hsv).1, (hok sv hsv).2.1, fun hne _ => (hok sv hsv).2.2 hne⟩⟩
  dsimp only
  by_cases hdn : driverName = []
  · -- no driver named: the probe over all drivers
    rw [if_pos hdn]
    obtain ⟨hd₁, hle₁, hnames₁, hok₁⟩ := hd.getVolume order name
    generalize d.getVolume order name = p at hd₁ hle₁ hnames₁ hok₁ ⊢
    obtain ⟨r, d₁⟩ := p
    rcases r with e | sv
    · exact htail d₁ hd₁ hle₁ hnames₁
    · refine ⟨hd₁, hle₁, hnames₁, ?_⟩
      rintro _ ⟨⟩
      obtain ⟨hname, hf⟩ := hok₁ sv rfl
      exact ⟨hf, .inl hname, fun hne => absurd hdn hne⟩
  · rw [if_neg hdn]
    exact htail d hd (Le.refl d) rfl

/-- `CreateWithRef` records the volume it returns under the volume's name. -/
theorem Inv.createWithRef (hd : d.Inv) (order : List Driver) (name driverName ref : List Char)
    (labels : Labels) :
    (d.createWithRef order name driverName ref labels).2.Inv ∧
      d.Le (d.createWithRef order name driverName ref labels).2 ∧
      ∀ sv, (d.createWithRef order name driverName ref labels).1 = .ok sv →
        (d.createWithRef order name driverName ref labels).2.Finds sv.vol ∧
          (sv.vol.name = name ∨ sv.vol.driverName = Driver.nfs.name) ∧
          (driverName ≠ [] → driverName ≠ defaultDriverName →
            sv.vol.driverName = driverName) := by
  obtain ⟨hd₁, hle₁, -, hok⟩ := hd.create order name driverName labels
  unfold Daemon.createWithRef normaliseVolumeName
  dsimp only
  generalize d.create order name driverName labels = c at hd₁ hle₁ hok ⊢
  obtain ⟨r, d₁⟩ := c
  rcases r with e | sv
  · exact ⟨hd₁, hle₁, fun _ he => by cases he⟩
  obtain ⟨hf, hname, hdrv⟩ := hok sv rfl
  refine ⟨hd₁.setNamed hf ref, hle₁, ?_⟩
  rintro _ ⟨⟩
  exact ⟨hf, hname, hdrv⟩

theorem getWithRef_of_driverGet {name driverName : List Char} {vd : Driver} {v : Vol}
    (hvd : getDriver driverName = .ok vd) (h : d.driverGet vd name = .ok v) (ref : List Char) :
    ∃ sv, (d.getWithRef name driverName ref).1 = .ok sv ∧ sv.vol = v := by
  unfold Daemon.getWithRef normaliseVolumeName
  rw [hvd]
  dsimp only
  rw [h]
  exact ⟨_, rfl, rfl⟩

theorem getWithRef_of_driverGet_error {name driverName : List Char} {vd : Driver}
    {e : VolError} (hvd : getDriver driverName = .ok vd) (h : d.driverGet vd name = .error e)
    (ref : List Char) :
    (d.getWithRef name driverName ref).1 = .error (.op e "get".toList name) := by
  unfold Daemon.getWithRef normaliseVolumeName
  rw [hvd]
  dsimp only
  rw [h]

theorem Inv.getWithRef (hd : d.Inv) (name driverName ref : List Char) :
    (d.getWithRef name driverName ref).2.Inv ∧ d.Le (d.getWithRef name driverName ref).2 := by
  unfold Daemon.getWithRef normaliseVolumeName
  dsimp only
  split
  · exact ⟨hd, Le.refl d⟩
  split
  · exact ⟨hd, Le.refl d⟩
  · rename_i v hv
    exact ⟨hd.setNamed (hd.finds hv) ref, Le.refl d⟩

theorem Inv.get (hd : d.Inv) (order : List Driver) (name : List Char) :
    (d.get order name).2.Inv ∧ d.Le (d.get order name).2 := by
  obtain ⟨hd₁, hle₁, -, hok⟩ := hd.getVolume order name
  unfold Daemon.get normaliseVolumeName
  dsimp only
  generalize d.getVolume order name = p at hd₁ hle₁ hok ⊢
  obtain ⟨r, d₁⟩ := p
  rcases r with e | sv
  · exact ⟨hd₁, hle₁⟩
  · exact ⟨hd₁.setNamed (hok sv rfl).2 [], hle₁⟩

/-! ## 4. Restarts and runs -/

theorem lookup_foldl_insert (root k : List Char) :
    ∀ (l : List (List Char)) (m : AList fun _ : List Char => Vol),
      (l.foldl (fun m name => m.insert name ⟨name, defaultDriverName, dataPath root name⟩)
        m).lookup k =
        if k ∈ l then some ⟨k, defaultDriverName, dataPath root k⟩ else m.lookup k
  | [], m => by simp
  | x :: xs, m => by
    rw [List.foldl_cons, lookup_foldl_insert root k xs]
    by_cases hk : k ∈ xs
    · simp [hk]
    · by_cases hkx : k = x
      · subst hkx
        simp [hk, AList.lookup_insert]
      · simp [hk, hkx, AList.lookup_insert_ne hkx]

/-- After a restart the local driver has a volume for each directory under `<root>/volumes`. -/
theorem lookup_localNew (dk : Disk) (k : List Char) :
    (localNew dk).volumes.lookup k =
      if k ∈ dk.volumeDirs then some ⟨k, defaultDriverName, dataPath dk.root k⟩ else none := by
  rw [localNew, lookup_foldl_insert, AList.lookup_empty]

theorem inv_configureVolumes (dk : Disk) : (configureVolumes dk).Inv where
  localKeyed k v hk := by
    change (localNew dk).volumes.lookup k = some v at hk
    rw [lookup_localNew] at hk
    split_ifs at hk with hmem
    cases hk
    exact ⟨rfl, hmem⟩
  cephKeyed k v hk := by
    change (∅ : AList fun _ : List Char => Vol).lookup k = some v at hk
    rw [AList.lookup_empty] at hk
    cases hk
  nfsKeyed k v hk := by
    change (∅ : AList fun _ : List Char => Vol).lookup k = some v at hk
    rw [AList.lookup_empty] at hk
    cases hk
  names k sv hk := by
    change (∅ : AList fun _ : List Char => StoreVolume).lookup k = some sv at hk
    rw [AList.lookup_empty] at hk
    cases hk

theorem Inv.step (hd : d.Inv) : ∀ op, (d.step op).Inv
  | .createWithRef order name driverName ref labels =>
    (hd.createWithRef order name driverName ref labels).1
  | .getWithRef name driverName ref => (hd.getWithRef name driverName ref).1
  | .get order name => (hd.get order name).1
  | .restart => inv_configureVolumes d.disk

theorem Inv.le_step (hd : d.Inv) : ∀ op, op ≠ .restart → d.Le (d.step op)
  | .createWithRef order name driverName ref labels, _ =>
    (hd.createWithRef order name driverName ref labels).2.1
  | .getWithRef name driverName ref, _ => (hd.getWithRef name driverName ref).2
  | .get order name, _ => (hd.get order name).2
  | .restart, h => absurd rfl h

/-- The local driver's part of `Le`, which a restart keeps too: its volumes live on the disk. -/
def LocalLe (d d' : Daemon) : Prop :=
  d'.disk.root = d.disk.root ∧ d.disk.volumeDirs ⊆ d'.disk.volumeDirs ∧
    d.localRoot.Le d'.localRoot

theorem Inv.localLe_step (hd : d.Inv) : ∀ op, LocalLe d (d.step op)
  | .restart => by
    refine ⟨rfl, List.Subset.refl _, fun k v hk => ?_⟩
    obtain ⟨rfl, hmem⟩ := hd.localKeyed k v hk
    change (localNew d.disk).volumes.lookup k = _
    rw [lookup_localNew, if_pos hmem]
  | .createWithRef order name driverName ref labels =>
    have hle := hd.le_step (.createWithRef order name driverName ref labels) (by simp)
    ⟨hle.1, hle.2.1, hle.2.2.1⟩
  | .getWithRef name driverName ref =>
    have hle := hd.le_step (.getWithRef name driverName ref) (by simp)
    ⟨hle.1, hle.2.1, hle.2.2.1⟩
  | .get order name =>
    have hle := hd.le_step (.get order name) (by simp)
    ⟨hle.1, hle.2.1, hle.2.2.1⟩

theorem Inv.run (hd : d.Inv) (ops : List StoreOp) : (ops.foldl Daemon.step d).Inv :=
  Reasoning.Reach.foldl_preserved Daemon.step Daemon.Inv (fun _ op hs => hs.step op) ops d hd

-- without a restart, every volume of every driver stays
theorem Inv.le_run (hd : d.Inv) (ops : List StoreOp) (hops : StoreOp.restart ∉ ops) :
    d.Le (ops.foldl Daemon.step d) :=
  Reasoning.Reach.foldl_rel Daemon.step Daemon.Inv Daemon.Le (· ≠ .restart)
    (fun _ op hs => hs.step op) Le.refl (fun _ _ _ h₁₂ h₂₃ => h₁₂.trans h₂₃)
    (fun _ op hs hop => hs.le_step op hop) ops d hd (fun _ hop h => hops (h ▸ hop))

-- through restarts too, every volume of the local driver stays
theorem Inv.localLe_run (hd : d.Inv) (ops : List StoreOp) :
    LocalLe d (ops.foldl Daemon.step d) :=
  Reasoning.Reach.foldl_rel Daemon.step Daemon.Inv LocalLe (fun _ => True)
    (fun _ op hs => hs.step op) (fun _ => ⟨rfl, List.Subset.refl _, Root.Le.refl _⟩)
    (fun _ _ _ h₁₂ h₂₃ =>
      ⟨h₂₃.1.trans h₁₂.1, List.Subset.trans h₁₂.2.1 h₂₃.2.1, h₁₂.2.2.trans h₂₃.2.2⟩)
    (fun _ op hs _ => hs.localLe_step op) ops d hd (fun _ _ => trivial)

/-! ## 5. Finding a named volume again -/

/-- A `local` or `ceph` volume that `CreateWithRef` returned is found again under the name it
was asked for, with the same name and path, for the rest of the daemon's run. -/
theorem createWithRef_found_again (hd : d.Inv) {order : List Driver}
    {name driverName ref : List Char} {labels : Labels} {sv : StoreVolume}
    (h : (d.createWithRef order name driverName ref labels).1 = .ok sv)
    (hnfs : sv.vol.driverName ≠ Driver.nfs.name) (ops : List StoreOp)
    (hops : StoreOp.restart ∉ ops) (ref' : List Char) :
    ∃ sv', ((ops.foldl Daemon.step (d.createWithRef order name driverName ref labels).2).getWithRef
      name sv.vol.driverName ref').1 = .ok sv' ∧ sv'.vol = sv.vol := by
  obtain ⟨hd₁, -, hok⟩ := hd.createWithRef order name driverName ref labels
  obtain ⟨⟨vd, hvd, hget⟩, hname, -⟩ := hok sv h
  have hname : sv.vol.name = name := hname.resolve_right hnfs
  have hget' := driverGet_mono (hd₁.le_run ops hops) hget
  rw [hname] at hget'
  exact getWithRef_of_driverGet hvd hget' ref'

/-- A `local` volume is found again after any number of restarts as well. -/
theorem createWithRef_local_found_after_restarts (hd : d.Inv) {order : List Driver}
    {name driverName ref : List Char} {labels : Labels} {sv : StoreVolume}
    (h : (d.createWithRef order name driverName ref labels).1 = .ok sv)
    (hlocal : sv.vol.driverName = defaultDriverName) (ops : List StoreOp) (ref' : List Char) :
    ∃ sv', ((ops.foldl Daemon.step (d.createWithRef order name driverName ref labels).2).getWithRef
      name sv.vol.driverName ref').1 = .ok sv' ∧ sv'.vol = sv.vol := by
  obtain ⟨hd₁, -, hok⟩ := hd.createWithRef order name driverName ref labels
  obtain ⟨⟨vd, hvd, hget⟩, hname, -⟩ := hok sv h
  have hname : sv.vol.name = name :=
    hname.resolve_right fun hnfs => absurd (hnfs.symm.trans hlocal) (by decide)
  -- the driver is the local one, whose volumes a restart finds on the disk again
  have hvd' : vd = .«local» := by
    rw [hlocal] at hvd
    exact Except.ok.inj (hvd.symm.trans (getDriver_name .«local»))
  subst hvd'
  have hlook := (hd₁.localLe_run ops).2.2 _ _ (driverGet_eq_ok.1 hget)
  rw [hname] at hlook
  exact getWithRef_of_driverGet hvd (driverGet_eq_ok.2 hlook) ref'

/-- No name whose length is not a multiple of four is the name of an nfs volume. -/
theorem getWithRef_nfs_not_found (hd : d.Inv) {name : List Char} (hn : name.length % 4 ≠ 0)
    (ref : List Char) :
    (d.getWithRef name Driver.nfs.name ref).1 =
      .error (.op (.nfsNotFound name) "get".toList name) := by
  have hnone : d.nfsRoot.volumes.lookup name = none := by
    cases hlook : d.nfsRoot.volumes.lookup name with
    | none => rfl
    | some v =>
      obtain ⟨hv, rfl⟩ := hd.nfsKeyed _ v hlook
      exact absurd (hv ▸ Base64.length_encode_mod_four (utf8 v.path)) hn
  have hget : d.driverGet .nfs name = .error (.nfsNotFound name) := by
    change Root.get .nfsNotFound d.nfsRoot name = _
    rw [Root.get, hnone]
  exact getWithRef_of_driverGet_error (getDriver_name .nfs) hget ref

/-- In every run of the daemon, a volume `CreateWithRef` makes with the `nfs` driver under a name
whose length is not a multiple of four reports the `nfs` driver, and `GetWithRef` of that name
and driver fails from then on. -/
theorem nfs_named_volume_lost (dk : Disk) (ops : List StoreOp) {order : List Driver}
    {name ref : List Char} {labels : Labels} {sv : StoreVolume} (hn : name.length % 4 ≠ 0)
    (h : ((ops.foldl Daemon.step (configureVolumes dk)).createWithRef order name Driver.nfs.name
      ref labels).1 = .ok sv)
    (later : List StoreOp) (ref' : List Char) :
    sv.vol.driverName = Driver.nfs.name ∧
      ((later.foldl Daemon.step ((ops.foldl Daemon.step (configureVolumes dk)).createWithRef order
        name Driver.nfs.name ref labels).2).getWithRef name sv.vol.driverName ref').1 =
        .error (.op (.nfsNotFound name) "get".toList name) := by
  have hd := (inv_configureVolumes dk).run ops
  obtain ⟨hd₁, -, hok⟩ := hd.createWithRef order name Driver.nfs.name ref labels
  have hdrv : sv.vol.driverName = Driver.nfs.name :=
    (hok sv h).2.2 (by decide) (by decide)
  refine ⟨hdrv, ?_⟩
  rw [hdrv]
  exact getWithRef_nfs_not_found (hd₁.run later) hn ref'

/-- A daemon root `/var/lib/docker` with no volumes yet, whose host calls all succeed. -/
def freshDisk : Disk := ⟨"/var/lib/docker".toList, [], ∅, [], 0⟩

theorem named_volume_not_found_again :
    -- nfs: the volume is named after its directory, and `data` finds nothing
    (let c := (configureVolumes freshDisk).createWithRef [] "data".toList "nfs".toList
       "c1".toList []
     c.1.toOption.map (·.vol) =
       some ⟨Base64.encode (utf8 "/var/lib/docker/nfs_mounts/0".toList), "nfs".toList,
         "/var/lib/docker/nfs_mounts/0".toList⟩ ∧
     (c.2.getWithRef "data".toList "nfs".toList "c2".toList).1 =
       .error (.op (.nfsNotFound "data".toList) "get".toList "data".toList)) ∧
    -- ceph: found while the daemon runs, gone after a restart
    (let c := (configureVolumes freshDisk).createWithRef [] "data".toList "ceph".toList
       "c1".toList []
     c.1.toOption.map (·.vol) = some ⟨"data".toList, "ceph".toList, []⟩ ∧
     (c.2.getWithRef "data".toList "ceph".toList "c2".toList).1.toOption.map (·.vol) =
       some ⟨"data".toList, "ceph".toList, []⟩ ∧
     ((c.2.step .restart).getWithRef "data".toList "ceph".toList "c2".toList).1 =
       .error (.op .notFound "get".toList "data".toList)) := by
  decide

end Daemon

end Docker.Volume
