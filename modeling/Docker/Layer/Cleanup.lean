import Docker.Layer.Invariant

/-!
# Cleanup — what a failed `CreateRWLayer` leaves behind

`CreateRWLayer` takes a count on the parent with `get` and gives it back in the deferred
`releaseLayer` that runs whenever `err` is set, and `saveMount` writes `mounts` only after every
metadata call succeeded: a failed call leaves `mounts` as it found it and, when the parent was
held by something, every count too.  Nothing on its error paths calls `driver.Remove`, though:
the `<mountID>-init` layer made by `initMount` and the read-write layer `<mountID>` stay with
the driver.
-/

namespace Docker.Layer.LayerStore

/-! ## 1. What the driver holds -/

/-- The driver holds what it held in `ls` and, besides, only ids of `ids`. -/
def HeldOnlyAdds (ls ls' : LayerStore) (ids : List String) : Prop :=
  ∃ xs, ls'.held = xs ++ ls.held ∧ ∀ x ∈ xs, x ∈ ids

theorem HeldOnlyAdds.of_held_eq {ls ls' : LayerStore} {ids : List String}
    (h : ls'.held = ls.held) : HeldOnlyAdds ls ls' ids :=
  ⟨[], h, fun _ hx => nomatch hx⟩

theorem HeldOnlyAdds.trans {ls₁ ls₂ ls₃ : LayerStore} {ids : List String}
    (h₁ : HeldOnlyAdds ls₁ ls₂ ids) (h₂ : HeldOnlyAdds ls₂ ls₃ ids) :
    HeldOnlyAdds ls₁ ls₃ ids := by
  obtain ⟨xs, hxs, hx⟩ := h₁
  obtain ⟨ys, hys, hy⟩ := h₂
  refine ⟨ys ++ xs, by rw [hys, hxs, List.append_assoc], fun x hm => ?_⟩
  rcases List.mem_append.mp hm with h | h
  · exact hy x h
  · exact hx x h

/-- The state a call ends in, read off the equation that names its result. -/
theorem HeldOnlyAdds.of_eq {α : Type} {ls ls' : LayerStore} {ids : List String}
    {p : α × LayerStore} {a : α} (hs : HeldOnlyAdds ls p.2 ids) (h : p = (a, ls')) :
    HeldOnlyAdds ls ls' ids := by
  subst h
  exact hs

theorem held_call (ls : LayerStore) : ls.call.2.held = ls.held := by
  unfold call
  split <;> rfl

theorem held_callAll (ls : LayerStore) (cs : List String) : (ls.callAll cs).2.held = ls.held := by
  induction cs generalizing ls with
  | nil => rfl
  | cons c cs ih =>
    have hc := held_call ls
    unfold callAll
    split <;> rename_i ls' heq <;> rw [heq] at hc
    · rw [ih ls']
      exact hc
    · exact hc

theorem heldOnlyAdds_call (ls : LayerStore) (ids : List String) :
    HeldOnlyAdds ls ls.call.2 ids :=
  .of_held_eq (held_call ls)

theorem heldOnlyAdds_driverCreate (ls : LayerStore) {id : String} {ids : List String}
    (hid : id ∈ ids) : HeldOnlyAdds ls (ls.driverCreate id).2 ids := by
  have hc := held_call ls
  unfold driverCreate
  split <;> rename_i ls' heq <;> rw [heq] at hc
  · exact ⟨[id], by rw [← hc]; rfl, fun x hx => by rw [List.mem_singleton.mp hx]; exact hid⟩
  · exact .of_held_eq hc

/-- `initMount` leaves at most its `-init` layer with the driver. -/
theorem heldOnlyAdds_initMount (ls : LayerStore) {graphID : String} {ids : List String}
    (hid : graphID ++ "-init" ∈ ids) : HeldOnlyAdds ls (ls.initMount graphID).2 ids := by
  unfold initMount
  dsimp only
  have h₀ := heldOnlyAdds_driverCreate ls hid
  split
  · rename_i ls₁ h₁
    exact h₀.of_eq h₁
  · rename_i ls₁ h₁
    have k₁ := h₀.of_eq h₁
    split
    · rename_i ls₂ h₂
      exact k₁.trans ((heldOnlyAdds_call ls₁ ids).of_eq h₂)
    · rename_i ls₂ h₂
      have k₂ := k₁.trans ((heldOnlyAdds_call ls₁ ids).of_eq h₂)
      split
      · rename_i ls₃ h₃
        exact k₂.trans (((heldOnlyAdds_call ls₂ ids).of_eq h₃).trans (heldOnlyAdds_call ls₃ ids))
      · rename_i ls₃ h₃
        have k₃ := k₂.trans ((heldOnlyAdds_call ls₂ ids).of_eq h₃)
        split <;> rename_i ls₄ h₄ <;> exact k₃.trans ((heldOnlyAdds_call ls₃ ids).of_eq h₄)

theorem heldOnlyAdds_prepareInit (ls : LayerStore) {m : MountedLayer} {initFunc : Bool}
    {ids : List String} (hid : m.mountID ++ "-init" ∈ ids) :
    HeldOnlyAdds ls (ls.prepareInit m initFunc).2 ids := by
  unfold prepareInit
  split
  · have hs := heldOnlyAdds_initMount ls hid
    split <;> rename_i ls₁ h₁ <;> exact hs.of_eq h₁
  · exact .of_held_eq rfl

/-! ## 2. The failing runs of `createMount` -/

/-- A failed `createMount` talked only to the driver and the metadata store, and the driver
holds at most its two layers more. -/
theorem createMount_error {ls ls' : LayerStore} {name mountID : String} {p : Option Nat}
    {initFunc : Bool} {e : LayerError}
    (h : ls.createMount name p mountID initFunc = (.error e, ls')) :
    SameLayers ls ls' ∧ HeldOnlyAdds ls ls' [mountID ++ "-init", mountID] := by
  let m₀ : MountedLayer :=
    { name := name, mountID := mountID, initID := "", parent := p, references := ∅ }
  have s₀ := sameLayers_prepareInit ls m₀ initFunc
  have k₀ : HeldOnlyAdds ls (ls.prepareInit m₀ initFunc).2 [mountID ++ "-init", mountID] :=
    heldOnlyAdds_prepareInit ls (by simp [m₀])
  unfold LayerStore.createMount at h
  dsimp only at h
  split at h
  · rename_i e' ls₁ h₁
    cases h
    exact ⟨s₀.of_eq h₁, k₀.of_eq h₁⟩
  · rename_i m ls₁ h₁
    obtain ⟨-, -, hid⟩ := prepareInit_mount h₁
    have s₁ := s₀.of_eq h₁
    have k₁ := k₀.of_eq h₁
    have k₂ : HeldOnlyAdds ls₁ (ls₁.driverCreate m.mountID).2 [mountID ++ "-init", mountID] :=
      heldOnlyAdds_driverCreate ls₁ (by simp [hid])
    split at h
    · rename_i ls₂ h₂
      cases h
      exact ⟨s₁.trans (SameLayers.of_driverCreate h₂), k₁.trans (k₂.of_eq h₂)⟩
    · rename_i ls₂ h₂
      split at h
      · -- a metadata call failed: `mounts` was not written
        rename_i c ls₃ h₃
        cases h
        have hheld : ls'.held = ls₂.held := by
          unfold saveMount at h₃
          split at h₃
          · rename_i c' ls₄ h₄
            cases h₃
            have := held_callAll ls₂ (["SetMountID"] ++
              (if m.initID ≠ "" then ["SetInitID"] else []) ++
              (if m.parent.isSome then ["SetMountParent"] else []))
            rw [h₄] at this
            exact this
          · cases h₃
        exact ⟨(s₁.trans (SameLayers.of_driverCreate h₂)).trans (saveMount_some h₃),
          (k₁.trans (k₂.of_eq h₂)).trans (.of_held_eq hheld)⟩
      · cases h

/-! ## 3. The deferred release of a held parent -/

theorem getWithoutLock_some {ls ls' : LayerStore} {c : String} {a : Nat}
    (h : ls.getWithoutLock c = (some a, ls')) :
    ls.layerMap.lookup c = some a ∧
      ls' = ls.modifyLayer a fun l => { l with referenceCount := l.referenceCount + 1 } := by
  unfold getWithoutLock at h
  split at h
  · cases h
  · rename_i a' hl
    cases h
    exact ⟨hl, rfl⟩

theorem referenceCount_modifyLayer (ls : LayerStore) (a q : Nat) (f : RoLayer → RoLayer) :
    ((ls.modifyLayer a f).heap q).referenceCount =
      if q = a then (f (ls.heap a)).referenceCount else (ls.heap q).referenceCount := by
  unfold modifyLayer
  by_cases hq : q = a
  · subst hq
    simp
  · simp [hq]

/-- `releaseLayer` of a layer whose count stays positive only takes one count off it. -/
theorem releaseLayer_of_held {ls : LayerStore} {a : Nat} (ha : a < ls.next)
    (h2 : 2 ≤ (ls.heap a).referenceCount) :
    ls.releaseLayer a =
      .ok (.ok [], ls.modifyLayer a fun l => { l with referenceCount := l.referenceCount - 1 }) := by
  obtain ⟨fuel, hfuel⟩ : ∃ fuel, ls.next = fuel + 1 := ⟨ls.next - 1, by omega⟩
  have hc : ((ls.modifyLayer a fun l => { l with referenceCount := l.referenceCount - 1 }).heap
      a).referenceCount ≠ 0 := by
    rw [referenceCount_modifyLayer, if_pos rfl]
    dsimp only
    omega
  unfold releaseLayer
  rw [hfuel]
  unfold releaseLoop
  rw [if_neg (by omega)]
  dsimp only
  rw [if_pos hc]

/-- The loop of `releaseLayer` never touches `mounts`, whatever it deletes. -/
theorem mounts_releaseLoop (fuel : Nat) (ls : LayerStore) (a depth : Nat)
    (removed : List Metadata) {r : Except LayerError (List Metadata)} {ls' : LayerStore}
    (h : releaseLoop fuel ls a depth removed = .ok (r, ls')) : ls'.mounts = ls.mounts :=
  releaseLoop_rel (fun ls ls' => ls'.mounts = ls.mounts) (fun m₁ m₂ => m₂.trans m₁)
    (fun _ _ => rfl) (fun s => s.mounts) (fun _ _ => rfl) fuel ls a depth removed h

theorem mounts_releaseAfter {α : Type} {ls ls' : LayerStore} {p : Nat} {r r' : Except LayerError α}
    (h : releaseAfter r p ls = .ok (r', ls')) : ls'.mounts = ls.mounts := by
  unfold releaseAfter at h
  split at h
  · cases h
  · rename_i ls₁ hrel
    cases h
    exact mounts_releaseLoop ls.next ls p 0 [] hrel

/-! ## 4. A failed `CreateRWLayer` -/

/-- The driver may hold more after a failed call: with an `initFunc`, a failing
`CreateReadWrite` leaves the `-init` layer that `initMount` created. -/
theorem createRWLayer_error_leaves_init_layer :
    ∃ e ls', (LayerStore.empty [true, true, true, true, false]).createRWLayer "c" "" "mnt" true =
      .ok (.error e, ls') ∧ ls'.held ≠ (LayerStore.empty [true, true, true, true, false]).held :=
  ⟨_, _, rfl, by decide⟩

/-- A failed `CreateRWLayer` leaves `mounts` as it found it: `saveMount` is the only writer, and
the deferred release does not touch it. -/
theorem mounts_createRWLayer_error {ls : LayerStore} {name parent mountID : String}
    {initFunc : Bool} {e : LayerError} {ls' : LayerStore}
    (h : ls.createRWLayer name parent mountID initFunc = .ok (.error e, ls')) :
    ls'.mounts = ls.mounts := by
  unfold LayerStore.createRWLayer at h
  split at h
  · cases h
    rfl
  · split at h
    · exact (createMount_error (Except.ok.inj h)).1.mounts
    · split at h
      · rename_i ls₁ h₁
        obtain ⟨-, rfl⟩ := getWithoutLock_none h₁
        cases h
        rfl
      · rename_i p ls₁ h₁
        split at h
        · rename_i e' ls₂ h₂
          exact (mounts_releaseAfter h).trans
            ((createMount_error h₂).1.mounts.trans (getWithoutLock_mounts h₁))
        · cases h

/-- A failed `CreateRWLayer` on a consistent store whose parent (if any) is held by something:
`layerMap` and every count are as before, and the driver holds at most the call's `-init` and
read-write layers more. -/
theorem createRWLayer_error_of_held {ls : LayerStore} (hi : ls.Inv 0)
    {name parent mountID : String} {initFunc : Bool} {e : LayerError} {ls' : LayerStore}
    (h : ls.createRWLayer name parent mountID initFunc = .ok (.error e, ls'))
    (hheld : ∀ a, ls.layerMap.lookup parent = some a → (ls.heap a).referenceCount ≠ 0) :
    ls'.layerMap = ls.layerMap ∧
      (∀ a, (ls'.heap a).referenceCount = (ls.heap a).referenceCount) ∧
      HeldOnlyAdds ls ls' [mountID ++ "-init", mountID] := by
  unfold LayerStore.createRWLayer at h
  split at h
  · cases h
    exact ⟨rfl, fun _ => rfl, .of_held_eq rfl⟩
  · split at h
    · -- no parent: nothing to release
      obtain ⟨s, k⟩ := createMount_error (Except.ok.inj h)
      exact ⟨s.layerMap, fun a => by rw [s.heap], k⟩
    · split at h
      · rename_i ls₁ h₁
        obtain ⟨-, rfl⟩ := getWithoutLock_none h₁
        cases h
        exact ⟨rfl, fun _ => rfl, .of_held_eq rfl⟩
      · rename_i p ls₁ h₁
        obtain ⟨hl, rfl⟩ := getWithoutLock_some h₁
        split at h
        · -- the deferred release takes back the count `get` added
          rename_i e' ls₂ h₂
          obtain ⟨s₂, k₂⟩ := createMount_error h₂
          have hp : p < ls₂.next := by
            rw [s₂.next]
            exact hi.allocated parent p hl
          have h2 : 2 ≤ (ls₂.heap p).referenceCount := by
            have hpos := hheld p hl
            rw [s₂.heap, referenceCount_modifyLayer, if_pos rfl]
            dsimp only
            omega
          unfold releaseAfter at h
          rw [releaseLayer_of_held hp h2] at h
          cases h
          refine ⟨s₂.layerMap, fun a => ?_, k₂.trans (.of_held_eq rfl)⟩
          by_cases hap : a = p
          · subst hap
            have hdown : ((ls₂.modifyLayer a fun l =>
                { l with referenceCount := l.referenceCount - 1 }).heap a).referenceCount =
                (ls₂.heap a).referenceCount - 1 := by
              rw [referenceCount_modifyLayer, if_pos rfl]
            have hup : (ls₂.heap a).referenceCount = (ls.heap a).referenceCount + 1 := by
              rw [s₂.heap, referenceCount_modifyLayer, if_pos rfl]
            omega
          · rw [referenceCount_modifyLayer, if_neg hap, s₂.heap, referenceCount_modifyLayer,
              if_neg hap]
        · cases h

/-- A failed `CreateRWLayer` on a consistent store: `mounts` is as before; and when the parent (if
any) is held by something, `layerMap` and every count are as before too, and the driver holds at
most the call's `-init` and read-write layers more. -/
theorem createRWLayer_error_restores {ls : LayerStore} (hi : ls.Inv 0)
    {name parent mountID : String} {initFunc : Bool} {e : LayerError} {ls' : LayerStore}
    (h : ls.createRWLayer name parent mountID initFunc = .ok (.error e, ls')) :
    ls'.mounts = ls.mounts ∧
      ((∀ a, ls.layerMap.lookup parent = some a → (ls.heap a).referenceCount ≠ 0) →
        ls'.layerMap = ls.layerMap ∧
        (∀ a, (ls'.heap a).referenceCount = (ls.heap a).referenceCount) ∧
        HeldOnlyAdds ls ls' [mountID ++ "-init", mountID]) :=
  ⟨mounts_createRWLayer_error h, createRWLayer_error_of_held hi h⟩

/-- The restoring run of the counterexample: no parent, and `CreateReadWrite` fails. -/
theorem createRWLayer_error_restores_init_left :
    (LayerStore.empty [true, true, true, true, false]).Inv 0 ∧
      (LayerStore.empty [true, true, true, true, false]).createRWLayer "c" "" "mnt" true =
        .ok (.error (.failed "CreateReadWrite"),
          { LayerStore.empty [true, true, true, true, false] with
            held := ["mnt" ++ "-init"], answers := [] }) ∧
      (∀ a, (LayerStore.empty [true, true, true, true, false]).layerMap.lookup "" = some a →
        ((LayerStore.empty [true, true, true, true, false]).heap a).referenceCount ≠ 0) ∧
      HeldOnlyAdds (LayerStore.empty [true, true, true, true, false])
        { LayerStore.empty [true, true, true, true, false] with
          held := ["mnt" ++ "-init"], answers := [] } ["mnt" ++ "-init", "mnt"] := by
  have hnone : ∀ a, (LayerStore.empty [true, true, true, true, false]).layerMap.lookup "" = some a →
      ((LayerStore.empty [true, true, true, true, false]).heap a).referenceCount ≠ 0 := by
    intro a ha
    simp [LayerStore.empty] at ha
  have hrun : (LayerStore.empty [true, true, true, true, false]).createRWLayer "c" "" "mnt" true =
      .ok (.error (.failed "CreateReadWrite"),
        { LayerStore.empty [true, true, true, true, false] with
          held := ["mnt" ++ "-init"], answers := [] }) := rfl
  exact ⟨inv_empty _, hrun, hnone, ((createRWLayer_error_restores (inv_empty _) hrun).2 hnone).2.2⟩

end Docker.Layer.LayerStore
