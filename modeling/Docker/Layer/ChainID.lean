import Mathlib
import Docker.Layer.Invariant

/-!
# ChainID — a layer's chain id folds the diff ids of its parent chain

`createChainIDFromParent` is a left fold over the diff ids (`createChainIDFromParent_append`), so
`CreateChainID (a ++ b)` goes on from `CreateChainID a`.

`registerWithDescriptor` does not fold a whole list: it extends the parent's stored chain id by
the new diff id.  Every call keeps the chain id, diff id and parent of each layer object the
store has allocated, and links each new one to a parent allocated before it (`Keeps`).  So,
by induction along the parent pointers, every layer's chain id is `CreateChainID` of the diff
ids of its parent chain, root first.
-/

namespace Docker.Layer

variable (fromBytes : String → String)

/-! ## 1. The fold -/

theorem createChainIDFromParent_append (parent : String) (a b : List String) :
    createChainIDFromParent fromBytes parent (a ++ b) =
      createChainIDFromParent fromBytes (createChainIDFromParent fromBytes parent a) b := by
  induction a generalizing parent with
  | nil => rfl
  | cons d ds ih =>
    rw [List.cons_append, createChainIDFromParent, createChainIDFromParent]
    split <;> exact ih _

theorem createChainID_append (a b : List String) :
    createChainID fromBytes (a ++ b) =
      createChainIDFromParent fromBytes (createChainID fromBytes a) b :=
  createChainIDFromParent_append fromBytes "" a b

/-! ## 2. Linked layers -/

namespace LayerStore

/-- What `registerWithDescriptor` sets once in a layer object and no call changes after. -/
def chainFields (l : RoLayer) : String × String × Option Nat :=
  (l.chainID, l.diffID, l.parent)

/-- Layer `a` is linked to its parent as `registerWithDescriptor` links it: a root's chain id is
its diff id; any other's extends its parent's, and the parent was allocated first. -/
def Linked (heap : Nat → RoLayer) (a : Nat) : Prop :=
  match (heap a).parent with
  | none => (heap a).chainID = (heap a).diffID
  | some p => p < a ∧
      (heap a).chainID = createChainIDFromParent fromBytes (heap p).chainID [(heap a).diffID]

/-- Whether `a` is linked reads only the chain fields of `a` and of the layers below it. -/
theorem Linked.congr {heap heap' : Nat → RoLayer} {a : Nat}
    (h : ∀ b ≤ a, chainFields (heap' b) = chainFields (heap b)) (hl : Linked fromBytes heap a) :
    Linked fromBytes heap' a := by
  obtain ⟨hc, hd, hp⟩ : (heap' a).chainID = (heap a).chainID ∧
      (heap' a).diffID = (heap a).diffID ∧ (heap' a).parent = (heap a).parent := by
    simpa [chainFields] using h a le_rfl
  unfold Linked at hl ⊢
  rw [hp, hc, hd]
  cases hpa : (heap a).parent with
  | none => rw [hpa] at hl; exact hl
  | some p =>
    rw [hpa] at hl
    obtain ⟨hlt, hchain⟩ := hl
    have hpc : (heap' p).chainID = (heap p).chainID := by
      simpa [chainFields] using congrArg Prod.fst (h p hlt.le)
    exact ⟨hlt, by rw [hpc]; exact hchain⟩

/-- `ls'` keeps the chain fields of every layer `ls` allocated, and links the layers it adds. -/
structure Keeps (ls ls' : LayerStore) : Prop where
  next_le : ls.next ≤ ls'.next
  fields : ∀ a < ls.next, chainFields (ls'.heap a) = chainFields (ls.heap a)
  linked : ∀ a, ls.next ≤ a → a < ls'.next → Linked fromBytes ls'.heap a

variable {fromBytes}

theorem Keeps.refl (ls : LayerStore) : Keeps fromBytes ls ls :=
  ⟨le_rfl, fun _ _ => rfl, fun _ h₁ h₂ => absurd h₂ (Nat.not_lt.mpr h₁)⟩

theorem Keeps.trans {ls₁ ls₂ ls₃ : LayerStore} (h₁ : Keeps fromBytes ls₁ ls₂)
    (h₂ : Keeps fromBytes ls₂ ls₃) : Keeps fromBytes ls₁ ls₃ where
  next_le := h₁.next_le.trans h₂.next_le
  fields a ha := (h₂.fields a (lt_of_lt_of_le ha h₁.next_le)).trans (h₁.fields a ha)
  linked a h₁a ha := by
    by_cases h₂a : a < ls₂.next
    · -- added by the first call: the second keeps it and everything below it
      exact Linked.congr fromBytes (fun b hb => h₂.fields b (lt_of_le_of_lt hb h₂a))
        (h₁.linked a h₁a h₂a)
    · exact h₂.linked a (Nat.not_lt.mp h₂a) ha

/-- A call that leaves the heap and the allocator alone keeps every layer. -/
theorem keeps_of_heap {ls ls' : LayerStore} (hh : ls'.heap = ls.heap) (hn : ls'.next = ls.next) :
    Keeps fromBytes ls ls' :=
  ⟨hn.ge, fun a _ => by rw [hh], fun _ h₁ h₂ => absurd (hn ▸ h₂) (Nat.not_lt.mpr h₁)⟩

theorem Keeps.of_sameLayers {ls ls' : LayerStore} (h : SameLayers ls ls') : Keeps fromBytes ls ls' :=
  keeps_of_heap h.heap h.next

/-- Changing a layer object elsewhere than in its chain fields keeps every layer. -/
theorem keeps_modifyLayer (ls : LayerStore) (a : Nat) (f : RoLayer → RoLayer)
    (hf : chainFields (f (ls.heap a)) = chainFields (ls.heap a)) :
    Keeps fromBytes ls (ls.modifyLayer a f) := by
  refine ⟨le_rfl, fun b _ => ?_, fun _ h₁ h₂ => absurd h₂ (Nat.not_lt.mpr h₁)⟩
  by_cases hb : b = a
  · subst hb
    simp only [modifyLayer, Function.update_self]
    exact hf
  · simp only [modifyLayer, Function.update_of_ne hb]

/-- Publishing a layer whose parent is allocated and whose chain id extends the parent's. -/
theorem keeps_insertLayer (ls : LayerStore) (layer : RoLayer)
    (hl : match layer.parent with
      | none => layer.chainID = layer.diffID
      | some p => p < ls.next ∧
          layer.chainID = createChainIDFromParent fromBytes (ls.heap p).chainID [layer.diffID]) :
    Keeps fromBytes ls (ls.insertLayer layer) := by
  refine ⟨Nat.le_succ _, fun b hb => ?_, fun b h₁ h₂ => ?_⟩
  · simp only [insertLayer, Function.update_of_ne hb.ne]
  · -- the one new address is `ls.next`, and its parent lies below it
    have hb : b = ls.next := by simp only [insertLayer] at h₂; omega
    subst hb
    unfold Linked
    simp only [insertLayer, Function.update_self]
    cases hp : layer.parent with
    | none => rw [hp] at hl; exact hl
    | some p =>
      rw [hp] at hl
      obtain ⟨hlt, hchain⟩ := hl
      exact ⟨hlt, by rw [Function.update_of_ne hlt.ne]; exact hchain⟩

/-! ## 3. Every call keeps the layers -/

theorem keeps_getWithoutLock (ls : LayerStore) (c : String) :
    Keeps fromBytes ls (ls.getWithoutLock c).2 := by
  unfold getWithoutLock
  split
  · exact Keeps.refl ls
  · exact keeps_modifyLayer ls _ (fun l => { l with referenceCount := l.referenceCount + 1 }) rfl

theorem Keeps.of_getWithoutLock {ls ls' : LayerStore} {c : String} {o : Option Nat}
    (h : ls.getWithoutLock c = (o, ls')) : Keeps fromBytes ls ls' := by
  have hk : Keeps fromBytes ls (ls.getWithoutLock c).2 := keeps_getWithoutLock ls c
  rw [h] at hk
  exact hk

theorem keeps_getReference (ls : LayerStore) (a : Nat) :
    Keeps fromBytes ls (ls.getReference a).2 := by
  have k : Keeps fromBytes ls (ls.modifyLayer a
      fun l => { l with references := insert ls.nextRef l.references }) :=
    keeps_modifyLayer ls a _ (by rfl)
  exact k.trans (keeps_of_heap rfl rfl)

/-- The loop of `releaseLayer` only counts down and erases keys of `layerMap`. -/
theorem keeps_releaseLoop (fuel : Nat) (ls : LayerStore) (a depth : Nat)
    (removed : List Metadata) {r : Except LayerError (List Metadata)} {ls' : LayerStore}
    (h : releaseLoop fuel ls a depth removed = .ok (r, ls')) : Keeps fromBytes ls ls' :=
  releaseLoop_rel (Keeps fromBytes) (fun k₁ k₂ => k₁.trans k₂)
    (fun ls a => keeps_modifyLayer ls a _ (by rfl)) Keeps.of_sameLayers
    (fun _ _ => keeps_of_heap rfl rfl) fuel ls a depth removed h

theorem Keeps.of_releaseLayer {ls ls' : LayerStore} {a : Nat} {r : Except LayerError (List Metadata)}
    (h : ls.releaseLayer a = .ok (r, ls')) : Keeps fromBytes ls ls' :=
  keeps_releaseLoop ls.next ls a 0 [] h

theorem Keeps.of_releaseAfter {α : Type} {ls ls' : LayerStore} {p : Nat} {r r' : Except LayerError α}
    (h : releaseAfter r p ls = .ok (r', ls')) : Keeps fromBytes ls ls' := by
  unfold releaseAfter at h
  split at h
  · cases h
  · rename_i r₁ ls₁ h₁
    cases h
    exact Keeps.of_releaseLayer h₁

theorem Keeps.of_release {ls ls' : LayerStore} {l : LayerHandle}
    {r : Except LayerError (List Metadata)} (h : ls.release l = .ok (r, ls')) :
    Keeps fromBytes ls ls' := by
  unfold release at h
  split at h
  · cases h
    exact Keeps.refl ls
  · split at h
    · cases h
      exact Keeps.refl ls
    · exact (keeps_modifyLayer ls _ _ (by rfl)).trans (Keeps.of_releaseLayer h)

/-- Inside the transaction: the chain id is computed from the heap `applyTar` leaves, which is
the heap the layer is published into. -/
theorem Keeps.of_registerInTransaction {ls : LayerStore} {layer : RoLayer} {tar : TarInput}
    (hp : ∀ q, layer.parent = some q → q < ls.next)
    {r : Except LayerError LayerHandle} {b : Bool} {ls' : LayerStore}
    (h : ls.registerInTransaction fromBytes layer tar = (r, b, ls')) : Keeps fromBytes ls ls' := by
  unfold registerInTransaction at h
  split at h
  · rename_i c ls₁ h₁
    cases h
    exact Keeps.of_sameLayers (SameLayers.of_callAll h₁)
  · rename_i ls₁ h₁
    have s₁ := SameLayers.of_callAll h₁
    dsimp only at h
    split at h
    · rename_i c ls₂ h₂
      cases h
      exact Keeps.of_sameLayers (s₁.trans (SameLayers.of_callAll h₂))
    · rename_i ls₂ h₂
      have s₂ := s₁.trans (SameLayers.of_callAll h₂)
      split at h
      · rename_i e ls₃ h₃
        cases h
        exact ((Keeps.of_sameLayers s₂).trans (Keeps.of_getWithoutLock h₃)).trans
          (keeps_getReference ls₃ e)
      · rename_i ls₃ h₃
        obtain ⟨-, rfl⟩ := getWithoutLock_none h₃
        split at h
        · rename_i ls₄ h₄
          cases h
          exact Keeps.of_sameLayers (s₂.trans (SameLayers.of_call h₄))
        · rename_i ls₄ h₄
          cases h
          have s₄ := s₂.trans (SameLayers.of_call h₄)
          refine ((Keeps.of_sameLayers s₄).trans (keeps_insertLayer ls₄ _ ?_)).trans
            (keeps_getReference _ _)
          dsimp only
          cases hpar : layer.parent with
          | none => rfl
          | some q =>
            refine ⟨s₄.next ▸ hp q hpar, ?_⟩
            dsimp only
            rw [s₁.heap, s₄.heap]

theorem Keeps.of_registerNew {ls : LayerStore} {p : Option Nat} {descriptor : String}
    {tar : TarInput} (hp : ∀ q, p = some q → q < ls.next)
    {r : Except LayerError LayerHandle} {b : Bool} {ls' : LayerStore}
    (h : ls.registerNew fromBytes p descriptor tar = (r, b, ls')) : Keeps fromBytes ls ls' := by
  unfold registerNew at h
  dsimp only at h
  split at h
  · rename_i ls₁ h₁
    cases h
    exact Keeps.of_sameLayers (SameLayers.of_driverCreate h₁)
  · rename_i ls₁ h₁
    have s₁ := SameLayers.of_driverCreate h₁
    split at h
    · rename_i ls₂ h₂
      cases h
      exact Keeps.of_sameLayers (s₁.trans (SameLayers.of_call h₂))
    · rename_i ls₂ h₂
      have s₂ := s₁.trans (SameLayers.of_call h₂)
      have hp₂ : ∀ q, p = some q → q < ls₂.next := fun q hq => s₂.next ▸ hp q hq
      split at h
      · -- the deferred `Remove` and `Cancel` only talk to the driver and the metadata store
        rename_i r' ls₃ h₃
        cases h
        exact ((Keeps.of_sameLayers s₂).trans (Keeps.of_registerInTransaction hp₂ h₃)).trans
          (Keeps.of_sameLayers ((sameLayers_driverRemove ls₃ tar.cacheID).trans (sameLayers_call _)))
      · rename_i r' ls₃ h₃
        cases h
        exact (Keeps.of_sameLayers s₂).trans (Keeps.of_registerInTransaction hp₂ h₃)

/-- `registerWithDescriptor` from a consistent store: the parent it finds in `layerMap` is
allocated. -/
theorem Keeps.of_registerWithDescriptor {ls : LayerStore} (hi : ls.Inv 0)
    {parent descriptor : String} {tar : TarInput} {r : Except LayerError LayerHandle}
    {ls' : LayerStore} (h : ls.registerWithDescriptor fromBytes parent descriptor tar = .ok (r, ls')) :
    Keeps fromBytes ls ls' := by
  unfold registerWithDescriptor at h
  split at h
  · split at h
    rename_i r' b ls₁ h₁
    cases h
    exact Keeps.of_registerNew (p := none) (fun _ hq => nomatch hq) h₁
  · split at h
    · rename_i ls₁ h₁
      cases h
      exact Keeps.of_getWithoutLock h₁
    · rename_i p ls₁ h₁
      have k₁ : Keeps fromBytes ls ls₁ := Keeps.of_getWithoutLock h₁
      obtain ⟨hl, -⟩ := hi.getWithoutLock h₁
      have hp₁ : ∀ q, some p = some q → q < ls₁.next := by
        intro q hq
        cases hq
        exact lt_of_lt_of_le (hi.allocated _ _ hl) k₁.next_le
      split at h
      · exact k₁.trans (Keeps.of_releaseAfter h)
      · split at h
        · rename_i r' ls₂ h₂
          exact (k₁.trans (Keeps.of_registerNew hp₁ h₂)).trans (Keeps.of_releaseAfter h)
        · rename_i r' ls₂ h₂
          cases h
          exact k₁.trans (Keeps.of_registerNew hp₁ h₂)

theorem keeps_get (ls : LayerStore) (c : String) : Keeps fromBytes ls (ls.get c).2 := by
  unfold get
  split
  · rename_i ls₁ h₁
    exact Keeps.of_getWithoutLock h₁
  · rename_i a ls₁ h₁
    exact (Keeps.of_getWithoutLock h₁).trans (keeps_getReference ls₁ a)

/-! Read-write layers change `mounts` and the driver, never a layer object's chain fields. -/

theorem keeps_createMount (ls : LayerStore) (name : String) (p : Option Nat) (mountID : String)
    (initFunc : Bool) : Keeps fromBytes ls (ls.createMount name p mountID initFunc).2 := by
  unfold createMount
  dsimp only
  split
  · rename_i e ls₁ h₁
    exact Keeps.of_sameLayers ((sameLayers_prepareInit ls _ initFunc).of_eq h₁)
  · rename_i m ls₁ h₁
    have s₁ := (sameLayers_prepareInit ls _ initFunc).of_eq h₁
    split
    · rename_i ls₂ h₂
      exact Keeps.of_sameLayers (s₁.trans (SameLayers.of_driverCreate h₂))
    · rename_i ls₂ h₂
      have s₂ := s₁.trans (SameLayers.of_driverCreate h₂)
      split
      · rename_i c ls₃ h₃
        exact Keeps.of_sameLayers (s₂.trans (saveMount_some h₃))
      · rename_i ls₃ h₃
        obtain ⟨ls₄, s₄, rfl⟩ := saveMount_none h₃
        exact (Keeps.of_sameLayers (s₂.trans s₄)).trans (keeps_of_heap rfl rfl)

theorem Keeps.of_createRWLayer {ls : LayerStore} {name parent mountID : String}
    {initFunc : Bool} {r : Except LayerError RWLayerHandle} {ls' : LayerStore}
    (h : ls.createRWLayer name parent mountID initFunc = .ok (r, ls')) :
    Keeps fromBytes ls ls' := by
  unfold createRWLayer at h
  split at h
  · cases h
    exact Keeps.refl ls
  · split at h
    · have k : Keeps fromBytes ls (ls.createMount name none mountID initFunc).2 :=
        keeps_createMount ls name none mountID initFunc
      simp only [Except.ok.injEq] at h
      rw [h] at k
      exact k
    · split at h
      · rename_i ls₁ h₁
        cases h
        exact Keeps.of_getWithoutLock h₁
      · rename_i p ls₁ h₁
        have k₁ : Keeps fromBytes ls ls₁ := Keeps.of_getWithoutLock h₁
        have k₂ : Keeps fromBytes ls₁ (ls₁.createMount name (some p) mountID initFunc).2 :=
          keeps_createMount ls₁ name (some p) mountID initFunc
        split at h
        · rename_i e ls₂ h₂
          rw [h₂] at k₂
          exact (k₁.trans k₂).trans (Keeps.of_releaseAfter h)
        · rename_i hd ls₂ h₂
          cases h
          rw [h₂] at k₂
          exact k₁.trans k₂

theorem keeps_getRWLayer (ls : LayerStore) (name : String) :
    Keeps fromBytes ls (ls.getRWLayer name).2 := by
  unfold getRWLayer
  split
  · exact Keeps.refl ls
  · exact keeps_of_heap rfl rfl

theorem Keeps.of_releaseRWLayer {ls : LayerStore} {l : RWLayerHandle}
    {r : Except LayerError (List Metadata)} {ls' : LayerStore}
    (h : ls.releaseRWLayer l = .ok (r, ls')) : Keeps fromBytes ls ls' := by
  unfold releaseRWLayer at h
  split at h
  · cases h
    exact Keeps.refl ls
  · rename_i m hm
    split at h
    · cases h
      exact Keeps.refl ls
    · dsimp only at h
      split at h
      · cases h
        exact keeps_of_heap rfl rfl
      · split at h
        · rename_i c ls₂ h₂
          cases h
          have s₂ := (sameLayers_removeMount _ _).of_eq h₂
          -- the handle is dropped and retaken: only `mounts` changes around the removal
          exact keeps_of_heap s₂.heap s₂.next
        · rename_i ls₂ h₂
          have s₂ := (sameLayers_removeMount _ _).of_eq h₂
          -- the mount's entry is erased; then its parent may be released
          have k₃ : Keeps fromBytes ls { ls₂ with mounts := ls₂.mounts.erase m.name } :=
            keeps_of_heap s₂.heap s₂.next
          split at h
          · cases h
            exact k₃
          · exact k₃.trans (Keeps.of_releaseLayer h)

/-- A call that answers: its store is the second half of its outcome. -/
theorem exists_eq_ok_of_map_snd {α : Type} {x : Panicky α} {ls' : LayerStore}
    (h : x.map Prod.snd = .ok ls') : ∃ r, x = .ok (r, ls') := by
  cases x with
  | error e => cases h
  | ok p =>
    cases h
    exact ⟨p.1, rfl⟩

/-- One call of the store, from a consistent store. -/
theorem Keeps.of_step {ls ls' : LayerStore} (hi : ls.Inv 0) {op : LayerOp}
    (h : ls.step fromBytes op = .ok ls') : Keeps fromBytes ls ls' := by
  cases op with
  | register parent descriptor tar =>
    obtain ⟨r, h₁⟩ := exists_eq_ok_of_map_snd h
    exact Keeps.of_registerWithDescriptor hi h₁
  | get c =>
    cases h
    exact keeps_get ls c
  | release l =>
    obtain ⟨r, h₁⟩ := exists_eq_ok_of_map_snd h
    exact Keeps.of_release h₁
  | createRWLayer name parent mountID initFunc =>
    obtain ⟨r, h₁⟩ := exists_eq_ok_of_map_snd h
    exact Keeps.of_createRWLayer h₁
  | getRWLayer name =>
    cases h
    exact keeps_getRWLayer ls name
  | releaseRWLayer l =>
    obtain ⟨r, h₁⟩ := exists_eq_ok_of_map_snd h
    exact Keeps.of_releaseRWLayer h₁

/-! ## 4. Every layer's chain id folds its parent chain -/

variable (fromBytes) in
/-- Every layer object the store has allocated is linked to its parent. -/
def ChainOk (ls : LayerStore) : Prop :=
  ∀ a < ls.next, Linked fromBytes ls.heap a

theorem ChainOk.of_keeps {ls ls' : LayerStore} (hc : ChainOk fromBytes ls)
    (h : Keeps fromBytes ls ls') : ChainOk fromBytes ls' := by
  intro a ha
  by_cases hlt : a < ls.next
  · exact Linked.congr fromBytes (fun b hb => h.fields b (lt_of_le_of_lt hb hlt)) (hc a hlt)
  · exact h.linked a (Nat.not_lt.mp hlt) ha

theorem chainOk_preserved :
    Reasoning.Reach.Preserved (fun ls : LayerStore => ls.Inv 0 ∧ ChainOk fromBytes ls)
      (step fromBytes) := by
  rintro ls op ⟨hi, hc⟩
  obtain ⟨ls', h, hi'⟩ := hi.step fromBytes op
  exact ⟨ls', h, hi', hc.of_keeps (Keeps.of_step hi h)⟩

/-- The diff ids of the parent chain of `a`, root first, following at most `fuel` parent
pointers. -/
def chainDiffIDs (ls : LayerStore) : Nat → Nat → List String
  | 0, a => [(ls.heap a).diffID]
  | fuel + 1, a =>
    match (ls.heap a).parent with
    | none => [(ls.heap a).diffID]
    | some p => ls.chainDiffIDs fuel p ++ [(ls.heap a).diffID]

theorem createChainID_singleton (d : String) : createChainID fromBytes [d] = d := by
  simp [createChainID, createChainIDFromParent]

/-- Along linked parent pointers, which lead to lower addresses, `fuel ≥ a` reaches the root. -/
theorem chainID_eq_createChainID {ls : LayerStore} (hc : ChainOk fromBytes ls) :
    ∀ fuel a, a < ls.next → a ≤ fuel →
      (ls.heap a).chainID = createChainID fromBytes (ls.chainDiffIDs fuel a) := by
  intro fuel
  induction fuel with
  | zero =>
    intro a ha hle
    have hl := hc a ha
    unfold Linked at hl
    cases hp : (ls.heap a).parent with
    | none =>
      rw [hp] at hl
      rw [chainDiffIDs, createChainID_singleton, hl]
    | some p =>
      rw [hp] at hl
      omega
  | succ fuel ih =>
    intro a ha hle
    have hl := hc a ha
    unfold Linked at hl
    rw [chainDiffIDs]
    cases hp : (ls.heap a).parent with
    | none =>
      rw [hp] at hl
      rw [createChainID_singleton, hl]
    | some p =>
      rw [hp] at hl
      obtain ⟨hlt, hchain⟩ := hl
      -- the parent is allocated, and its own chain is one pointer shorter
      have hpc := ih p (lt_trans hlt ha) (by omega)
      dsimp only
      rw [hchain, hpc, createChainID_append]

/-- `CreateChainID` is a left fold over the diff ids; and from the empty store, whatever the
driver and the metadata store answer, every run of calls succeeds and leaves each layer object
it allocated with the chain id `CreateChainID` of the diff ids of its parent chain, root first. -/
theorem createChainID_left_fold (fromBytes : String → String) :
    (∀ a b : List String, createChainID fromBytes (a ++ b) =
      createChainIDFromParent fromBytes (createChainID fromBytes a) b) ∧
    ∀ (answers : List Bool) (ops : List LayerOp), ∃ ls,
      Reasoning.Reach.runSteps (step fromBytes) (LayerStore.empty answers) ops =
          .ok ls ∧
        ∀ a < ls.next,
          (ls.heap a).chainID = createChainID fromBytes (ls.chainDiffIDs ls.next a) := by
  refine ⟨createChainID_append fromBytes, fun answers ops => ?_⟩
  have h₀ : (LayerStore.empty answers).Inv 0 ∧ ChainOk fromBytes
      (LayerStore.empty answers) := ⟨inv_empty answers, fun a ha => absurd ha (Nat.not_lt_zero a)⟩
  obtain ⟨ls, hrun, -, hc⟩ := Reasoning.Reach.runSteps_preserved _
    (@chainOk_preserved fromBytes) _ ops h₀
  exact ⟨ls, hrun, fun a ha => chainID_eq_createChainID hc ls.next a ha ha.le⟩

end LayerStore

end Docker.Layer
