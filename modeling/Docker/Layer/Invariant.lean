import Mathlib
import Docker.Layer.Store
import Docker.Reasoning.AListCount
import Docker.Reasoning.Reach

/-!
# Invariant — the reference counts of the layer store

Every `roLayer` in `layerMap` counts one for each handle in its `references`, one for each
layer of `layerMap` whose parent it is, and one for each mount of `mounts` whose parent it is;
parents of layers and mounts are themselves in `layerMap`.  Inside a call the count of a parent
looked up by `get` runs one ahead of its holders until the call either publishes the child that
holds it or releases it again; `Inv ls extra` allows `extra a` such counts on `a`.

The external calls only consume answers and move driver ids (`SameLayers`), so every failure
branch of a call reduces to the state its last store mutation left.
-/

namespace Docker.Layer.LayerStore

/-! ## 1. External calls leave the layers alone -/

/-- Two stores that agree on everything the reference counts read. -/
structure SameLayers (ls ls' : LayerStore) : Prop where
  heap : ls'.heap = ls.heap
  next : ls'.next = ls.next
  layerMap : ls'.layerMap = ls.layerMap
  mounts : ls'.mounts = ls.mounts
  nextRef : ls'.nextRef = ls.nextRef

theorem SameLayers.rfl' (ls : LayerStore) : SameLayers ls ls := ⟨rfl, rfl, rfl, rfl, rfl⟩

theorem SameLayers.trans {ls₁ ls₂ ls₃ : LayerStore} (h₁ : SameLayers ls₁ ls₂)
    (h₂ : SameLayers ls₂ ls₃) : SameLayers ls₁ ls₃ :=
  ⟨h₂.heap.trans h₁.heap, h₂.next.trans h₁.next, h₂.layerMap.trans h₁.layerMap,
    h₂.mounts.trans h₁.mounts, h₂.nextRef.trans h₁.nextRef⟩

/-- The state a call ends in, read off the equation that names its result. -/
theorem SameLayers.of_eq {α : Type} {ls ls' : LayerStore} {p : α × LayerStore} {a : α}
    (hs : SameLayers ls p.2) (h : p = (a, ls')) : SameLayers ls ls' := by
  subst h
  exact hs

theorem sameLayers_call (ls : LayerStore) : SameLayers ls ls.call.2 := by
  unfold call
  split <;> exact ⟨rfl, rfl, rfl, rfl, rfl⟩

theorem SameLayers.of_call {ls ls' : LayerStore} {b : Bool} (h : ls.call = (b, ls')) :
    SameLayers ls ls' := by
  have hs := sameLayers_call ls
  rw [h] at hs
  exact hs

theorem SameLayers.held {ls ls' : LayerStore} (h : SameLayers ls ls') (l : List String) :
    SameLayers ls { ls' with held := l } :=
  ⟨h.heap, h.next, h.layerMap, h.mounts, h.nextRef⟩

theorem sameLayers_driverCreate (ls : LayerStore) (id : String) :
    SameLayers ls (ls.driverCreate id).2 := by
  unfold driverCreate
  split <;> rename_i ls' heq
  · exact (SameLayers.of_call heq).held _
  · exact SameLayers.of_call heq

theorem sameLayers_driverRemove (ls : LayerStore) (id : String) :
    SameLayers ls (ls.driverRemove id).2 := by
  unfold driverRemove
  split <;> rename_i ls' heq
  · exact (SameLayers.of_call heq).held _
  · exact SameLayers.of_call heq

theorem SameLayers.of_driverCreate {ls ls' : LayerStore} {id : String} {b : Bool}
    (h : ls.driverCreate id = (b, ls')) : SameLayers ls ls' := by
  have hs := sameLayers_driverCreate ls id
  rw [h] at hs
  exact hs

theorem SameLayers.of_driverRemove {ls ls' : LayerStore} {id : String} {b : Bool}
    (h : ls.driverRemove id = (b, ls')) : SameLayers ls ls' := by
  have hs := sameLayers_driverRemove ls id
  rw [h] at hs
  exact hs

theorem sameLayers_callAll (ls : LayerStore) (cs : List String) :
    SameLayers ls (ls.callAll cs).2 := by
  induction cs generalizing ls with
  | nil => exact SameLayers.rfl' ls
  | cons c cs ih =>
    unfold callAll
    split <;> rename_i ls' heq
    · exact (SameLayers.of_call heq).trans (ih ls')
    · exact SameLayers.of_call heq

theorem SameLayers.of_callAll {ls ls' : LayerStore} {cs : List String} {r : Option String}
    (h : ls.callAll cs = (r, ls')) : SameLayers ls ls' := by
  have hs := sameLayers_callAll ls cs
  rw [h] at hs
  exact hs

theorem sameLayers_initMount (ls : LayerStore) (graphID : String) :
    SameLayers ls (ls.initMount graphID).2 := by
  unfold initMount
  dsimp only
  split
  · rename_i ls₁ h₁
    exact SameLayers.of_driverCreate h₁
  · rename_i ls₁ h₁
    have s₁ := SameLayers.of_driverCreate h₁
    split
    · rename_i ls₂ h₂
      exact s₁.trans (SameLayers.of_call h₂)
    · rename_i ls₂ h₂
      have s₂ := s₁.trans (SameLayers.of_call h₂)
      split
      · rename_i ls₃ h₃
        exact s₂.trans ((SameLayers.of_call h₃).trans (sameLayers_call ls₃))
      · rename_i ls₃ h₃
        have s₃ := s₂.trans (SameLayers.of_call h₃)
        split <;> rename_i ls₄ h₄ <;> exact s₃.trans (SameLayers.of_call h₄)

theorem sameLayers_removeMount (ls : LayerStore) (m : MountedLayer) :
    SameLayers ls (ls.removeMount m).2 := by
  unfold removeMount
  split
  · rename_i ls₁ h₁
    exact SameLayers.of_driverRemove h₁
  · rename_i ls₁ h₁
    have s₁ := SameLayers.of_driverRemove h₁
    dsimp only
    generalize hinit : (ite (m.initID ≠ "") _ _ : Option String × LayerStore) = init
    -- the removal of the init layer, when the mount has one
    have s₂ : SameLayers ls₁ init.2 := by
      subst hinit
      split
      · split <;> rename_i ls₂ h₂ <;> exact SameLayers.of_driverRemove h₂
      · exact SameLayers.rfl' ls₁
    split
    · exact s₁.trans s₂
    · have s₃ := s₁.trans s₂
      split <;> rename_i ls₃ h₃ <;> exact s₃.trans (SameLayers.of_call h₃)

theorem sameLayers_prepareInit (ls : LayerStore) (m : MountedLayer) (initFunc : Bool) :
    SameLayers ls (ls.prepareInit m initFunc).2 := by
  unfold prepareInit
  split
  · have hs := sameLayers_initMount ls m.mountID
    split <;> rename_i ls₁ h₁ <;> rw [h₁] at hs <;> exact hs
  · exact SameLayers.rfl' ls

/-- The mount `prepareInit` hands on is the caller's, with at most its init id set. -/
theorem prepareInit_mount {ls ls' : LayerStore} {m m' : MountedLayer} {initFunc : Bool}
    (h : ls.prepareInit m initFunc = (.ok m', ls')) :
    m'.name = m.name ∧ m'.parent = m.parent ∧ m'.mountID = m.mountID := by
  unfold prepareInit at h
  split at h
  · split at h <;> cases h
    exact ⟨rfl, rfl, rfl⟩
  · cases h
    exact ⟨rfl, rfl, rfl⟩

theorem sameLayers_deleteLayer (ls : LayerStore) (a : Nat) :
    SameLayers ls (ls.deleteLayer a).2 := by
  unfold deleteLayer
  split
  · rename_i ls₁ h₁
    exact SameLayers.of_driverRemove h₁
  · rename_i ls₁ h₁
    have s₁ := SameLayers.of_driverRemove h₁
    split <;> rename_i ls₂ h₂ <;> exact s₁.trans (SameLayers.of_call h₂)

/-- The loop of `releaseLayer` changes the store only by counting a layer down, by `deleteLayer`
(whose driver calls keep the layers) and by erasing a key of `layerMap`: a relation that holds
across each of these, and that composes, holds from the loop's start to its end. -/
theorem releaseLoop_rel (R : LayerStore → LayerStore → Prop)
    (htrans : ∀ {ls₁ ls₂ ls₃}, R ls₁ ls₂ → R ls₂ ls₃ → R ls₁ ls₃)
    (hdown : ∀ ls a,
      R ls (ls.modifyLayer a fun l => { l with referenceCount := l.referenceCount - 1 }))
    (hsame : ∀ {ls ls'}, SameLayers ls ls' → R ls ls')
    (herase : ∀ ls c, R ls { ls with layerMap := ls.layerMap.erase c }) :
    ∀ (fuel : Nat) (ls : LayerStore) (a depth : Nat) (removed : List Metadata)
      {r : Except LayerError (List Metadata)} {ls' : LayerStore},
      releaseLoop fuel ls a depth removed = .ok (r, ls') → R ls ls'
  | 0, ls, _, _, _, _, _, h => by
    cases h
    exact hsame (SameLayers.rfl' ls)
  | fuel + 1, ls, a, depth, removed, r, ls', h => by
    unfold releaseLoop at h
    split at h
    · cases h
    dsimp only at h
    generalize hls₁ : ls.modifyLayer a
      (fun l => { l with referenceCount := l.referenceCount - 1 }) = ls₁ at h
    have r₁ : R ls ls₁ := hls₁ ▸ hdown ls a
    -- the count stays up, or one of the two panics, or the layer is deleted
    split at h
    · cases h
      exact r₁
    split at h
    · cases h
    split at h
    · cases h
    have hdel := sameLayers_deleteLayer ls₁ a
    split at h
    · rename_i e ls₂ hls₂
      cases h
      rw [hls₂] at hdel
      exact htrans r₁ (hsame hdel)
    · rename_i md ls₂ hls₂
      rw [hls₂] at hdel
      have r₃ := htrans (htrans r₁ (hsame hdel)) (herase ls₂ (ls₂.heap a).chainID)
      -- with a parent, the loop goes on from the store with the key erased
      split at h
      · cases h
        exact r₃
      · exact htrans r₃ (releaseLoop_rel R htrans hdown hsame herase fuel _ _ _ _ h)

/-! ## 2. What holds a layer -/

/-- The layers of `layerMap` whose parent is `a`. -/
def children (ls : LayerStore) (a : Nat) : Nat :=
  ls.layerMap.entries.countP fun e => (ls.heap e.2).parent = some a

/-- The mounts of `mounts` whose parent is `a`. -/
def mountChildren (ls : LayerStore) (a : Nat) : Nat :=
  ls.mounts.entries.countP fun e => e.2.parent = some a

/-- The holders of `a`: its handles, the layers on top of it and the mounts on top of it. -/
def expectedCount (ls : LayerStore) (a : Nat) : Nat :=
  (ls.heap a).references.card + ls.children a + ls.mountChildren a

/-- `a` is the address of a layer in `layerMap`. -/
def Live (ls : LayerStore) (a : Nat) : Prop :=
  ∃ c, ls.layerMap.lookup c = some a

/-- The invariant of the store, with `extra a` counts on `a` not yet matched by a holder.
Besides the counts and parents it records why the code's lookups find what they look
for: keys are chain ids, addresses are allocated and below their children, handles are fresh. -/
structure Inv (ls : LayerStore) (extra : Nat → Nat) : Prop where
  key : ∀ c a, ls.layerMap.lookup c = some a → (ls.heap a).chainID = c
  allocated : ∀ c a, ls.layerMap.lookup c = some a → a < ls.next
  parentLive : ∀ c a p, ls.layerMap.lookup c = some a → (ls.heap a).parent = some p → ls.Live p
  parentBelow : ∀ c a p, ls.layerMap.lookup c = some a → (ls.heap a).parent = some p → p < a
  mountKey : ∀ n m, ls.mounts.lookup n = some m → m.name = n
  mountParentLive : ∀ n m p, ls.mounts.lookup n = some m → m.parent = some p → ls.Live p
  fresh : ∀ c a, ls.layerMap.lookup c = some a → ∀ r ∈ (ls.heap a).references, r < ls.nextRef
  counted : ∀ c a, ls.layerMap.lookup c = some a →
    (ls.heap a).referenceCount = ls.expectedCount a + extra a

theorem SameLayers.children {ls ls' : LayerStore} (h : SameLayers ls ls') (a : Nat) :
    ls'.children a = ls.children a := by
  simp only [LayerStore.children, h.heap, h.layerMap]

theorem SameLayers.mountChildren {ls ls' : LayerStore} (h : SameLayers ls ls') (a : Nat) :
    ls'.mountChildren a = ls.mountChildren a := by
  simp only [LayerStore.mountChildren, h.mounts]

theorem SameLayers.expectedCount {ls ls' : LayerStore} (h : SameLayers ls ls') (a : Nat) :
    ls'.expectedCount a = ls.expectedCount a := by
  simp only [LayerStore.expectedCount, h.children, h.mountChildren, h.heap]

theorem SameLayers.live {ls ls' : LayerStore} (h : SameLayers ls ls') (a : Nat) :
    ls'.Live a ↔ ls.Live a := by
  simp only [Live, h.layerMap]

/-- The invariant reads nothing an external call changes. -/
theorem Inv.of_sameLayers {ls ls' : LayerStore} {extra : Nat → Nat} (hi : ls.Inv extra)
    (h : SameLayers ls ls') : ls'.Inv extra where
  key c a hl := by rw [h.heap]; exact hi.key c a (h.layerMap ▸ hl)
  allocated c a hl := by rw [h.next]; exact hi.allocated c a (h.layerMap ▸ hl)
  parentLive c a p hl hp := (h.live p).mpr (hi.parentLive c a p (h.layerMap ▸ hl) (h.heap ▸ hp))
  parentBelow c a p hl hp := hi.parentBelow c a p (h.layerMap ▸ hl) (h.heap ▸ hp)
  mountKey n m hl := hi.mountKey n m (h.mounts ▸ hl)
  mountParentLive n m p hl hp := (h.live p).mpr (hi.mountParentLive n m p (h.mounts ▸ hl) hp)
  fresh c a hl r hr := by
    rw [h.nextRef]; exact hi.fresh c a (h.layerMap ▸ hl) r (h.heap ▸ hr)
  counted c a hl := by
    rw [h.expectedCount, h.heap]; exact hi.counted c a (h.layerMap ▸ hl)

/-! ## 3. Store mutations and the counts -/

/-- Changing one object without touching its parent pointer keeps every child count. -/
theorem children_modifyLayer (ls : LayerStore) (a : Nat) (f : RoLayer → RoLayer)
    (hf : (f (ls.heap a)).parent = (ls.heap a).parent) (q : Nat) :
    (ls.modifyLayer a f).children q = ls.children q := by
  unfold children modifyLayer
  apply List.countP_congr
  intro e _
  by_cases he : e.2 = a
  · simp only [he, Function.update_self, hf]
  · simp only [Function.update_of_ne he]

section Mutations

variable {ls : LayerStore} {extra : Nat → Nat}

/-- The general rule for changing the object at `a`: its chain id and parent stay, its handles
stay fresh, and its new count is what `extra'` asks for; every other count is untouched. -/
theorem Inv.modifyLayer (hi : ls.Inv extra) (a : Nat) (f : RoLayer → RoLayer)
    (hchain : (f (ls.heap a)).chainID = (ls.heap a).chainID)
    (hparent : (f (ls.heap a)).parent = (ls.heap a).parent)
    (hfresh : ls.Live a → ∀ r ∈ (f (ls.heap a)).references, r < ls.nextRef)
    (extra' : Nat → Nat) (hrest : ∀ q, q ≠ a → extra' q = extra q)
    (hcount : ls.Live a → (f (ls.heap a)).referenceCount =
      (f (ls.heap a)).references.card + ls.children a + ls.mountChildren a + extra' a) :
    (ls.modifyLayer a f).Inv extra' := by
  have hchildren := children_modifyLayer ls a f hparent
  -- the object at `q` after the change
  have hheap : ∀ q, (ls.modifyLayer a f).heap q = if q = a then f (ls.heap a) else ls.heap q := by
    intro q
    by_cases hq : q = a
    · subst hq; simp [LayerStore.modifyLayer]
    · simp [LayerStore.modifyLayer, hq]
  refine ⟨?_, hi.allocated, ?_, ?_, hi.mountKey, hi.mountParentLive, ?_, ?_⟩
  · intro c q hl
    rw [hheap]
    split
    · subst q; rw [hchain]; exact hi.key c a hl
    · exact hi.key c q hl
  · intro c q p hl hp
    rw [hheap] at hp
    split at hp
    · subst q; rw [hparent] at hp; exact hi.parentLive c a p hl hp
    · exact hi.parentLive c q p hl hp
  · intro c q p hl hp
    rw [hheap] at hp
    split at hp
    · subst q; rw [hparent] at hp; exact hi.parentBelow c a p hl hp
    · exact hi.parentBelow c q p hl hp
  · intro c q hl r hr
    rw [hheap] at hr
    split at hr
    · subst q; exact hfresh ⟨c, hl⟩ r hr
    · exact hi.fresh c q hl r hr
  · intro c q hl
    have hmc : (ls.modifyLayer a f).mountChildren q = ls.mountChildren q := rfl
    simp only [expectedCount, hchildren, hmc, hheap]
    split
    · subst q; rw [hcount ⟨c, hl⟩]
    · rename_i hq
      rw [hi.counted c q hl, hrest q hq]
      rfl

/-- A fresh handle number keeps every recorded handle fresh. -/
theorem Inv.bumpRef (hi : ls.Inv extra) : { ls with nextRef := ls.nextRef + 1 }.Inv extra where
  key := hi.key
  allocated := hi.allocated
  parentLive := hi.parentLive
  parentBelow := hi.parentBelow
  mountKey := hi.mountKey
  mountParentLive := hi.mountParentLive
  fresh c a hl r hr := Nat.lt_succ_of_lt (hi.fresh c a hl r hr)
  counted := hi.counted

/-- `getWithoutLock` on a chain id that is found: one count taken on the layer. -/
theorem Inv.getWithoutLock {c : String} {a : Nat} {ls' : LayerStore} (hi : ls.Inv extra)
    (h : ls.getWithoutLock c = (some a, ls')) :
    ls.layerMap.lookup c = some a ∧ ls'.Inv (extra + Pi.single a 1) := by
  unfold LayerStore.getWithoutLock at h
  split at h
  · cases h
  · rename_i a' hl
    cases h
    refine ⟨hl, hi.modifyLayer a _ rfl rfl (fun _ => hi.fresh c a hl) _ ?_ ?_⟩
    · intro q hq
      simp [hq]
    · intro _
      simp only [Pi.add_apply, Pi.single_eq_same, hi.counted c a hl, expectedCount]
      omega

theorem getWithoutLock_none {c : String} {ls' : LayerStore}
    (h : ls.getWithoutLock c = (none, ls')) : ls.layerMap.lookup c = none ∧ ls' = ls := by
  unfold LayerStore.getWithoutLock at h
  split at h
  · rename_i hl
    cases h
    exact ⟨hl, rfl⟩
  · cases h

/-- `getReference` gives the pending count on `a` its holder. -/
theorem Inv.getReference {a : Nat} (hi : ls.Inv (extra + Pi.single a 1)) :
    (ls.getReference a).2.Inv extra := by
  change ({ ls with nextRef := ls.nextRef + 1 }.modifyLayer a
    fun l => { l with references := insert ls.nextRef l.references }).Inv extra
  apply hi.bumpRef.modifyLayer a _ rfl rfl
  · rintro ⟨c, hl⟩ r hr
    rcases Finset.mem_insert.mp hr with rfl | hr
    · exact Nat.lt_succ_self _
    · exact Nat.lt_succ_of_lt (hi.fresh c a hl r hr)
  · intro q hq
    simp [hq]
  · rintro ⟨c, hl⟩
    have hnew : ls.nextRef ∉ (ls.heap a).references :=
      fun hr => Nat.lt_irrefl _ (hi.fresh c a hl _ hr)
    have hc := hi.counted c a hl
    simp only [expectedCount, Pi.add_apply, Pi.single_eq_same] at hc
    simp only [Finset.card_insert_of_notMem hnew]
    change (ls.heap a).referenceCount = _ + ls.children a + ls.mountChildren a + extra a
    omega

/-- The count a new layer's parent carries for it. -/
def parentPend : Option Nat → Nat → Nat
  | none => 0
  | some p => Pi.single p 1

theorem parentPend_apply (p : Option Nat) (q : Nat) :
    parentPend p q = if p = some q then 1 else 0 := by
  cases p with
  | none => rfl
  | some p =>
    by_cases h : q = p
    · subst h; simp [parentPend]
    · simp [parentPend, h, Ne.symm h]

theorem lookup_insertLayer (ls : LayerStore) (layer : RoLayer) (c : String) :
    (ls.insertLayer layer).layerMap.lookup c =
      if c = layer.chainID then some ls.next else ls.layerMap.lookup c := by
  unfold insertLayer
  split
  · rename_i h; subst h; exact AList.lookup_insert _
  · rename_i h; exact AList.lookup_insert_ne h

/-- A layer keeps its address when a layer under a new chain id is published. -/
theorem live_insertLayer {layer : RoLayer} (hnew : ls.layerMap.lookup layer.chainID = none)
    {p : Nat} (hp : ls.Live p) : (ls.insertLayer layer).Live p := by
  obtain ⟨c, hc⟩ := hp
  refine ⟨c, ?_⟩
  rw [lookup_insertLayer, if_neg]
  · exact hc
  · rintro rfl
    rw [hnew] at hc
    cases hc

theorem children_insertLayer {layer : RoLayer} (hi : ls.Inv extra)
    (hnew : ls.layerMap.lookup layer.chainID = none) (q : Nat) :
    (ls.insertLayer layer).children q = ls.children q + if layer.parent = some q then 1 else 0 := by
  have hnm : layer.chainID ∉ ls.layerMap := AList.lookup_eq_none.mp hnew
  unfold children insertLayer
  simp only
  rw [AList.countP_entries_insert_of_notMem _ hnm]
  congr 1
  · apply List.countP_congr
    intro e he
    have hlt := hi.allocated e.1 e.2 (AList.lookup_of_mem_entries he)
    simp only [Function.update_of_ne (Nat.ne_of_lt hlt)]
  · simp only [Function.update_self, decide_eq_true_eq]

/-- Publishing a new layer: the pending count its parent carried goes to the new child, and the
new layer carries its initial count until its first handle is taken. -/
theorem Inv.insertLayer {layer : RoLayer} (hi : ls.Inv (extra + parentPend layer.parent))
    (hnew : ls.layerMap.lookup layer.chainID = none)
    (hparent : ∀ p, layer.parent = some p → ls.Live p)
    (hrefs : layer.references = ∅) (hone : layer.referenceCount = 1) (hnext : extra ls.next = 0) :
    (ls.insertLayer layer).Inv (extra + Pi.single ls.next 1) := by
  have hheap : ∀ q, (ls.insertLayer layer).heap q = if q = ls.next then layer else ls.heap q := by
    intro q
    by_cases hq : q = ls.next
    · subst hq; simp [LayerStore.insertLayer]
    · simp [LayerStore.insertLayer, hq]
  -- the addresses published before are below the new one
  have hold : ∀ c q, ls.layerMap.lookup c = some q → (ls.insertLayer layer).heap q = ls.heap q := by
    intro c q hl
    rw [hheap, if_neg (Nat.ne_of_lt (hi.allocated c q hl))]
  have hlive : ∀ p, ls.Live p → (ls.insertLayer layer).Live p := fun p hp => live_insertLayer hnew hp
  refine ⟨?_, ?_, ?_, ?_, hi.mountKey, ?_, ?_, ?_⟩
  · intro c q hl
    rw [lookup_insertLayer] at hl
    split at hl
    · rename_i hc; cases hl; rw [hheap, if_pos rfl, hc]
    · rw [hold c q hl]; exact hi.key c q hl
  · intro c q hl
    rw [lookup_insertLayer] at hl
    split at hl
    · cases hl; exact Nat.lt_succ_self _
    · exact Nat.lt_succ_of_lt (hi.allocated c q hl)
  · intro c q p hl hp
    rw [lookup_insertLayer] at hl
    split at hl
    · cases hl; rw [hheap, if_pos rfl] at hp; exact hlive p (hparent p hp)
    · rw [hold c q hl] at hp; exact hlive p (hi.parentLive c q p hl hp)
  · intro c q p hl hp
    rw [lookup_insertLayer] at hl
    split at hl
    · cases hl
      rw [hheap, if_pos rfl] at hp
      obtain ⟨c', hc'⟩ := hparent p hp
      exact hi.allocated c' p hc'
    · rw [hold c q hl] at hp; exact hi.parentBelow c q p hl hp
  · intro n m p hl hp
    exact hlive p (hi.mountParentLive n m p hl hp)
  · intro c q hl r hr
    rw [lookup_insertLayer] at hl
    split at hl
    · cases hl; rw [hheap, if_pos rfl, hrefs] at hr; simp at hr
    · rw [hold c q hl] at hr; exact hi.fresh c q hl r hr
  · intro c q hl
    have hmc : (ls.insertLayer layer).mountChildren q = ls.mountChildren q := rfl
    rw [lookup_insertLayer] at hl
    split at hl
    · cases hl
      -- nothing points at the new address yet
      have hnone : ∀ c' q', ls.layerMap.lookup c' = some q' →
          (ls.heap q').parent ≠ some ls.next := by
        intro c' q' hl' hp'
        have := hi.parentBelow c' q' _ hl' hp'
        have := hi.allocated c' q' hl'
        omega
      have hch : ls.children ls.next = 0 := by
        unfold children
        apply List.countP_eq_zero.mpr
        intro e he hp
        exact hnone e.1 e.2 (AList.lookup_of_mem_entries he) (of_decide_eq_true hp)
      have hmch : ls.mountChildren ls.next = 0 := by
        unfold mountChildren
        apply List.countP_eq_zero.mpr
        intro e he hp
        obtain ⟨c', hc'⟩ := hi.mountParentLive e.1 e.2 ls.next
          (AList.lookup_of_mem_entries he) (of_decide_eq_true hp)
        exact Nat.lt_irrefl _ (hi.allocated c' _ hc')
      have hpar : layer.parent ≠ some ls.next := by
        intro hp
        obtain ⟨c', hc'⟩ := hparent _ hp
        exact Nat.lt_irrefl _ (hi.allocated c' _ hc')
      have hn : (ls.insertLayer layer).heap ls.next = layer := by simp [LayerStore.insertLayer]
      simp only [expectedCount, children_insertLayer hi hnew, hmc, hn, hrefs, hch, hmch,
        if_neg hpar, hone, Pi.add_apply, Pi.single_eq_same, hnext, Finset.card_empty]
    · rename_i hc
      have hne : q ≠ ls.next := Nat.ne_of_lt (hi.allocated c q hl)
      have hcnt := hi.counted c q hl
      simp only [expectedCount, Pi.add_apply, parentPend_apply] at hcnt
      simp only [expectedCount, children_insertLayer hi hnew, hmc, hold c q hl, Pi.add_apply,
        Pi.single_eq_of_ne hne]
      omega

/-- A layer whose count is zero has no handles, no child layers and no mounts. -/
theorem Inv.unheld {c : String} {a : Nat} (hi : ls.Inv extra)
    (hl : ls.layerMap.lookup c = some a) (hzero : (ls.heap a).referenceCount = 0) :
    (ls.heap a).references.card = 0 ∧ ls.children a = 0 ∧ ls.mountChildren a = 0 := by
  have h := hi.counted c a hl
  simp only [expectedCount, hzero] at h
  omega

theorem lookup_erase_eq (ls : LayerStore) (c c' : String) :
    (ls.layerMap.erase c).lookup c' = if c' = c then none else ls.layerMap.lookup c' := by
  split
  · rename_i h; subst h; exact AList.lookup_erase _ _
  · rename_i h; exact AList.lookup_erase_ne h

/-- Taking a layer whose count fell to zero out of `layerMap`: its parent loses the holder it had
in this layer, which leaves one pending count on the parent. -/
theorem Inv.eraseLayer {c : String} {a : Nat} (hi : ls.Inv extra)
    (hl : ls.layerMap.lookup c = some a) (hzero : (ls.heap a).referenceCount = 0) :
    { ls with layerMap := ls.layerMap.erase c }.Inv (extra + parentPend (ls.heap a).parent) := by
  obtain ⟨-, hch, hmch⟩ := hi.unheld hl hzero
  -- no layer and no mount points at `a`
  have hnochild : ∀ c' q, ls.layerMap.lookup c' = some q → (ls.heap q).parent ≠ some a := by
    intro c' q hl' hp
    have : 0 < ls.children a :=
      List.countP_pos_iff.mpr ⟨⟨c', q⟩, AList.mem_entries_of_lookup hl', decide_eq_true hp⟩
    omega
  have hnomount : ∀ n m, ls.mounts.lookup n = some m → m.parent ≠ some a := by
    intro n m hl' hp
    have : 0 < ls.mountChildren a :=
      List.countP_pos_iff.mpr ⟨⟨n, m⟩, AList.mem_entries_of_lookup hl', decide_eq_true hp⟩
    omega
  -- every other layer keeps its address
  have hlive : ∀ p, ls.Live p → p ≠ a → { ls with layerMap := ls.layerMap.erase c }.Live p := by
    rintro p ⟨c', hc'⟩ hpa
    refine ⟨c', ?_⟩
    change (ls.layerMap.erase c).lookup c' = some p
    rw [lookup_erase_eq, if_neg]
    · exact hc'
    · rintro rfl
      rw [hl] at hc'
      exact hpa (Option.some.inj hc').symm
  have hold : ∀ c' q, (ls.layerMap.erase c).lookup c' = some q → ls.layerMap.lookup c' = some q := by
    intro c' q h
    rw [lookup_erase_eq] at h
    split at h
    · cases h
    · exact h
  refine ⟨fun c' q h => hi.key c' q (hold c' q h), fun c' q h => hi.allocated c' q (hold c' q h),
    ?_, fun c' q p h => hi.parentBelow c' q p (hold c' q h), hi.mountKey, ?_,
    fun c' q h => hi.fresh c' q (hold c' q h), ?_⟩
  · intro c' q p h hp
    exact hlive p (hi.parentLive c' q p (hold c' q h) hp)
      (fun hpa => hnochild c' q (hold c' q h) (hpa ▸ hp))
  · intro n m p h hp
    exact hlive p (hi.mountParentLive n m p h hp) (fun hpa => hnomount n m h (hpa ▸ hp))
  · intro c' q h
    have hq := hold c' q h
    have hcnt := hi.counted c' q hq
    have herase := AList.countP_entries_erase
      (fun e => decide ((ls.heap e.2).parent = some q)) hl
    simp only [decide_eq_true_eq] at herase
    simp only [expectedCount, children] at hcnt
    simp only [expectedCount, children, mountChildren, Pi.add_apply, parentPend_apply] at hcnt ⊢
    omega

end Mutations

/-! ## 4. `releaseLayer` walks the parent chain -/

/-- The loop of `releaseLayer`, entered with one count on `a` that nothing holds any more, ends
without a panic, every count matched.  Each turn either stops or erases `a` and moves the
pending count to `a`'s parent, which lies below `a`; `fuel` bounds the addresses. -/
theorem releaseLoop_inv : ∀ (fuel : Nat) (ls : LayerStore) (a depth : Nat)
    (removed : List Metadata) (extra : Nat → Nat),
    ls.Inv (extra + Pi.single a 1) → ls.Live a → a < fuel → (depth = 0 ∨ removed ≠ []) →
    ∃ r ls', releaseLoop fuel ls a depth removed = .ok (r, ls') ∧ ls'.Inv extra
  | 0, _, _, _, _, _, _, _, hfuel, _ => absurd hfuel (Nat.not_lt_zero _)
  | fuel + 1, ls, a, depth, removed, extra, hi, ⟨c, hl⟩, hfuel, hdepth => by
    have hcnt := hi.counted c a hl
    simp only [Pi.add_apply, Pi.single_eq_same] at hcnt
    have hpos : (ls.heap a).referenceCount ≠ 0 := by omega
    unfold releaseLoop
    rw [if_neg hpos]
    dsimp only
    -- the decrement gives the pending count back
    generalize hls₁ : ls.modifyLayer a
      (fun l => { l with referenceCount := l.referenceCount - 1 }) = ls₁
    have hi₁ : ls₁.Inv extra := by
      rw [← hls₁]
      apply hi.modifyLayer a _ rfl rfl (fun _ => hi.fresh c a hl)
      · intro q hq
        simp [hq]
      · intro _
        simp only [expectedCount] at hcnt
        change (ls.heap a).referenceCount - 1 = (ls.heap a).references.card + _ + _ + _
        omega
    have hl₁ : ls₁.layerMap.lookup c = some a := by rw [← hls₁]; exact hl
    by_cases hkeep : (ls₁.heap a).referenceCount ≠ 0
    · rw [if_pos hkeep]
      exact ⟨_, _, rfl, hi₁⟩
    rw [if_neg hkeep]
    have hzero : (ls₁.heap a).referenceCount = 0 := not_not.mp hkeep
    have hnochild : ¬ (removed.length = 0 ∧ 0 < depth) := by
      rintro ⟨hlen, hd⟩
      rcases hdepth with h | h
      · omega
      · exact h (List.eq_nil_of_length_eq_zero hlen)
    rw [if_neg hnochild]
    obtain ⟨hcard, -, -⟩ := hi₁.unheld hl₁ hzero
    rw [if_neg (by omega)]
    -- `deleteLayer` only talks to the driver and the metadata store
    have hsame := sameLayers_deleteLayer ls₁ a
    have hi₂ := hi₁.of_sameLayers hsame
    split
    · rename_i e ls₂ hdel
      rw [hdel] at hi₂
      exact ⟨_, _, rfl, hi₂⟩
    · rename_i md ls₂ hdel
      rw [hdel] at hsame hi₂
      have hl₂ : ls₂.layerMap.lookup c = some a := by rw [hsame.layerMap]; exact hl₁
      have hzero₂ : (ls₂.heap a).referenceCount = 0 := by rw [hsame.heap]; exact hzero
      have hkey : (ls₂.heap a).chainID = c := hi₂.key c a hl₂
      have hi₃ := hi₂.eraseLayer hl₂ hzero₂
      rw [← hkey] at hi₃
      split
      · rename_i hnone
        rw [hnone] at hi₃
        have hz : extra + parentPend none = extra := by
          funext q
          rfl
        exact ⟨_, _, rfl, hz ▸ hi₃⟩
      · rename_i p hp
        rw [hp] at hi₃
        have hbelow := hi₂.parentBelow c a p hl₂ hp
        obtain ⟨c', hc'⟩ := hi₂.parentLive c a p hl₂ hp
        have hlive₃ : ({ ls₂ with layerMap := ls₂.layerMap.erase (ls₂.heap a).chainID }).Live p := by
          refine ⟨c', ?_⟩
          change (ls₂.layerMap.erase _).lookup c' = some p
          rw [lookup_erase_eq, if_neg]
          · exact hc'
          · intro hcc
            rw [hcc, hkey, hl₂] at hc'
            have := Option.some.inj hc'
            omega
        exact releaseLoop_inv fuel _ p (depth + 1) (removed ++ [md]) extra hi₃ hlive₃ (by omega)
          (Or.inr (by simp))

section Calls

variable {ls : LayerStore} {extra : Nat → Nat}

/-- `releaseLayer` on a layer with one pending count. -/
theorem Inv.releaseLayer {a : Nat} (hi : ls.Inv (extra + Pi.single a 1)) (ha : ls.Live a) :
    ∃ r ls', ls.releaseLayer a = .ok (r, ls') ∧ ls'.Inv extra := by
  obtain ⟨c, hc⟩ := ha
  exact releaseLoop_inv ls.next ls a 0 [] extra hi ⟨c, hc⟩ (hi.allocated c a hc) (Or.inl rfl)

/-- A deferred release of the parent keeps the call's own result. -/
theorem Inv.releaseAfter {α : Type} {p : Nat} (r : Except LayerError α)
    (hi : ls.Inv (extra + Pi.single p 1)) (hp : ls.Live p) :
    ∃ ls', releaseAfter r p ls = .ok (r, ls') ∧ ls'.Inv extra := by
  obtain ⟨r', ls', h, hi'⟩ := hi.releaseLayer hp
  unfold LayerStore.releaseAfter
  rw [h]
  exact ⟨ls', rfl, hi'⟩

/-- `Release`: the handle's count is pending once the handle is dropped, and the parent walk
consumes it. -/
theorem Inv.release (hi : ls.Inv 0) (l : LayerHandle) :
    ∃ r ls', ls.release l = .ok (r, ls') ∧ ls'.Inv 0 := by
  unfold LayerStore.release
  split
  · exact ⟨_, _, rfl, hi⟩
  · rename_i a hl
    by_cases hr : l.ref ∈ (ls.heap a).references
    · rw [if_neg (not_not.mpr hr)]
      -- dropping the handle leaves its count pending
      have hi' : (ls.modifyLayer a fun l' => { l' with references := l'.references.erase l.ref }).Inv
          (0 + Pi.single a 1) := by
        apply hi.modifyLayer a _ rfl rfl
        · intro _ r hr'
          exact hi.fresh _ a hl r (Finset.mem_of_mem_erase hr')
        · intro q hq
          simp [hq]
        · intro _
          have hc := hi.counted _ a hl
          have hcard := Finset.card_erase_of_mem hr
          have hpos := Finset.card_pos.mpr ⟨_, hr⟩
          simp only [expectedCount, Pi.zero_apply] at hc
          simp only [Pi.add_apply, Pi.zero_apply, Pi.single_eq_same]
          change (ls.heap a).referenceCount = ((ls.heap a).references.erase l.ref).card + _ + _ + _
          omega
      exact hi'.releaseLayer ⟨_, hl⟩
    · rw [if_pos hr]
      exact ⟨_, _, rfl, hi⟩

/-- A new mount whose parent carries the mount's pending count. -/
theorem Inv.insertMount {m : MountedLayer} (hi : ls.Inv (extra + parentPend m.parent))
    (hnew : ls.mounts.lookup m.name = none) (hp : ∀ q, m.parent = some q → ls.Live q) :
    { ls with mounts := ls.mounts.insert m.name m }.Inv extra := by
  have hnm : m.name ∉ ls.mounts := AList.lookup_eq_none.mp hnew
  refine ⟨hi.key, hi.allocated, hi.parentLive, hi.parentBelow, ?_, ?_, hi.fresh, ?_⟩
  · intro n m' h
    by_cases hn : n = m.name
    · subst hn
      change (ls.mounts.insert m.name m).lookup m.name = some m' at h
      rw [AList.lookup_insert] at h
      cases h
      rfl
    · change (ls.mounts.insert m.name m).lookup n = some m' at h
      rw [AList.lookup_insert_ne hn] at h
      exact hi.mountKey n m' h
  · intro n m' q h hq
    by_cases hn : n = m.name
    · subst hn
      change (ls.mounts.insert m.name m).lookup m.name = some m' at h
      rw [AList.lookup_insert] at h
      cases h
      exact hp q hq
    · change (ls.mounts.insert m.name m).lookup n = some m' at h
      rw [AList.lookup_insert_ne hn] at h
      exact hi.mountParentLive n m' q h hq
  · intro c a hl
    have hc := hi.counted c a hl
    have hins := AList.countP_entries_insert_of_notMem
      (b := m) (fun e => decide (e.2.parent = some a)) hnm
    have hch : { ls with mounts := ls.mounts.insert m.name m }.children a = ls.children a := rfl
    simp only [decide_eq_true_eq] at hins
    simp only [expectedCount, mountChildren, hch, Pi.add_apply, parentPend_apply] at hc ⊢
    change _ = _ + _ + (ls.mounts.insert m.name m).entries.countP _ + _
    omega

/-- Replacing a mount by one with the same name and parent (its handles changed). -/
theorem Inv.replaceMount {n : String} {m m' : MountedLayer} (hi : ls.Inv extra)
    (h : ls.mounts.lookup n = some m) (hpar : m'.parent = m.parent) (hname : m'.name = n) :
    { ls with mounts := ls.mounts.insert n m' }.Inv extra := by
  refine ⟨hi.key, hi.allocated, hi.parentLive, hi.parentBelow, ?_, ?_, hi.fresh, ?_⟩
  · intro n' m'' h'
    by_cases hn : n' = n
    · subst hn
      change (ls.mounts.insert n' m').lookup n' = some m'' at h'
      rw [AList.lookup_insert] at h'
      cases h'
      exact hname
    · change (ls.mounts.insert n m').lookup n' = some m'' at h'
      rw [AList.lookup_insert_ne hn] at h'
      exact hi.mountKey n' m'' h'
  · intro n' m'' q h' hq
    by_cases hn : n' = n
    · subst hn
      change (ls.mounts.insert n' m').lookup n' = some m'' at h'
      rw [AList.lookup_insert] at h'
      cases h'
      exact hi.mountParentLive n' m q h (hpar ▸ hq)
    · change (ls.mounts.insert n m').lookup n' = some m'' at h'
      rw [AList.lookup_insert_ne hn] at h'
      exact hi.mountParentLive n' m'' q h' hq
  · intro c a hl
    have hc := hi.counted c a hl
    have hrep := AList.countP_entries_insert_of_lookup
      (fun e => decide (e.2.parent = some a)) m' h (by simp only [hpar])
    simp only [expectedCount, mountChildren] at hc ⊢
    change _ = _ + _ + (ls.mounts.insert n m').entries.countP _ + _
    rw [hrep]
    exact hc

/-- Erasing a mount leaves one pending count on its parent. -/
theorem Inv.eraseMount {n : String} {m : MountedLayer} (hi : ls.Inv extra)
    (h : ls.mounts.lookup n = some m) :
    { ls with mounts := ls.mounts.erase n }.Inv (extra + parentPend m.parent) := by
  have hold : ∀ n' m', (ls.mounts.erase n).lookup n' = some m' → ls.mounts.lookup n' = some m' := by
    intro n' m' h'
    by_cases hn : n' = n
    · subst hn; rw [AList.lookup_erase] at h'; cases h'
    · rwa [AList.lookup_erase_ne hn] at h'
  refine ⟨hi.key, hi.allocated, hi.parentLive, hi.parentBelow,
    fun n' m' h' => hi.mountKey n' m' (hold n' m' h'),
    fun n' m' q h' hq => hi.mountParentLive n' m' q (hold n' m' h') hq, hi.fresh, ?_⟩
  intro c a hl
  have hc := hi.counted c a hl
  have hera := AList.countP_entries_erase (fun e => decide (e.2.parent = some a)) h
  have hch : { ls with mounts := ls.mounts.erase n }.children a = ls.children a := rfl
  simp only [decide_eq_true_eq] at hera
  simp only [expectedCount, mountChildren, hch, Pi.add_apply, parentPend_apply] at hc ⊢
  change _ = _ + _ + (ls.mounts.erase n).entries.countP _ + _
  omega

theorem getWithoutLock_layerMap {c : String} {o : Option Nat} {ls' : LayerStore}
    (h : ls.getWithoutLock c = (o, ls')) : ls'.layerMap = ls.layerMap := by
  unfold LayerStore.getWithoutLock at h
  split at h <;> cases h <;> rfl

theorem getWithoutLock_mounts {c : String} {o : Option Nat} {ls' : LayerStore}
    (h : ls.getWithoutLock c = (o, ls')) : ls'.mounts = ls.mounts := by
  unfold LayerStore.getWithoutLock at h
  split at h <;> cases h <;> rfl

/-- Publishing a layer and taking its first handle: the parent's pending count goes to its new
child, and the layer's own count to the handle. -/
theorem Inv.publish {layer : RoLayer} (hi : ls.Inv (parentPend layer.parent))
    (hp : ∀ q, layer.parent = some q → ls.Live q) (hnew : ls.layerMap.lookup layer.chainID = none)
    (hrefs : layer.references = ∅) (hone : layer.referenceCount = 1) :
    ((ls.insertLayer layer).getReference ls.next).2.Inv 0 ∧
      ∀ q, layer.parent = some q → ((ls.insertLayer layer).getReference ls.next).2.Live q := by
  have hz : (0 : Nat → Nat) + parentPend layer.parent = parentPend layer.parent := by
    funext q
    simp
  have hi' : (ls.insertLayer layer).Inv (0 + Pi.single ls.next 1) := by
    apply Inv.insertLayer _ hnew hp hrefs hone rfl
    rw [hz]
    exact hi
  exact ⟨hi'.getReference, fun q hq => live_insertLayer hnew (hp q hq)⟩

variable (fromBytes : String → String)

/-- Inside the transaction of `registerWithDescriptor`, with the parent's count pending: a run
that sets `err` leaves it pending, one that publishes the layer hands it to the new child. -/
theorem Inv.registerInTransaction {layer : RoLayer} {tar : TarInput}
    (hi : ls.Inv (parentPend layer.parent)) (hp : ∀ q, layer.parent = some q → ls.Live q)
    (hrefs : layer.references = ∅) (hone : layer.referenceCount = 1)
    {r : Except LayerError LayerHandle} {b : Bool} {ls' : LayerStore}
    (h : ls.registerInTransaction fromBytes layer tar = (r, b, ls')) :
    ls'.Inv (if b then parentPend layer.parent else 0) ∧
      ∀ q, layer.parent = some q → ls'.Live q := by
  -- the states an external call leads to keep both facts
  have hframe : ∀ ls₁, SameLayers ls ls₁ →
      ls₁.Inv (parentPend layer.parent) ∧ ∀ q, layer.parent = some q → ls₁.Live q :=
    fun ls₁ s => ⟨hi.of_sameLayers s, fun q hq => (s.live q).mpr (hp q hq)⟩
  unfold LayerStore.registerInTransaction at h
  split at h
  · rename_i c ls₁ h₁
    cases h
    exact hframe _ (SameLayers.of_callAll h₁)
  · rename_i ls₁ h₁
    have s₁ := SameLayers.of_callAll h₁
    dsimp only at h
    split at h
    · rename_i c ls₂ h₂
      cases h
      exact hframe _ (s₁.trans (SameLayers.of_callAll h₂))
    · rename_i ls₂ h₂
      obtain ⟨hi₂, hp₂⟩ := hframe ls₂ (s₁.trans (SameLayers.of_callAll h₂))
      split at h
      · -- "layer already exists": the existing layer gets the count and the handle
        rename_i e ls₃ h₃
        cases h
        obtain ⟨-, hi₃⟩ := hi₂.getWithoutLock h₃
        refine ⟨hi₃.getReference, fun q hq => ?_⟩
        obtain ⟨c, hc⟩ := hp₂ q hq
        exact ⟨c, by rw [← getWithoutLock_layerMap h₃] at hc; exact hc⟩
      · rename_i ls₃ h₃
        obtain ⟨hnone, rfl⟩ := getWithoutLock_none h₃
        split at h
        · rename_i ls₄ h₄
          cases h
          exact hframe _ ((s₁.trans (SameLayers.of_callAll h₂)).trans (SameLayers.of_call h₄))
        · rename_i ls₄ h₄
          cases h
          have s₄ := SameLayers.of_call h₄
          exact Inv.publish (hi₂.of_sameLayers s₄) (fun q hq => (s₄.live q).mpr (hp₂ q hq))
            (by rw [s₄.layerMap]; exact hnone) hrefs hone

/-- `registerNew`: the driver layer and the transaction around `registerInTransaction`; its
cleanups only talk to the driver and the metadata store. -/
theorem Inv.registerNew {p : Option Nat} {descriptor : String} {tar : TarInput}
    (hi : ls.Inv (parentPend p)) (hp : ∀ q, p = some q → ls.Live q)
    {r : Except LayerError LayerHandle} {b : Bool} {ls' : LayerStore}
    (h : ls.registerNew fromBytes p descriptor tar = (r, b, ls')) :
    ls'.Inv (if b then parentPend p else 0) ∧ ∀ q, p = some q → ls'.Live q := by
  have hframe : ∀ ls₁, SameLayers ls ls₁ →
      ls₁.Inv (parentPend p) ∧ ∀ q, p = some q → ls₁.Live q :=
    fun ls₁ s => ⟨hi.of_sameLayers s, fun q hq => (s.live q).mpr (hp q hq)⟩
  unfold LayerStore.registerNew at h
  dsimp only at h
  split at h
  · rename_i ls₁ h₁
    cases h
    exact hframe _ (SameLayers.of_driverCreate h₁)
  · rename_i ls₁ h₁
    have s₁ := SameLayers.of_driverCreate h₁
    split at h
    · rename_i ls₂ h₂
      cases h
      exact hframe _ (s₁.trans (SameLayers.of_call h₂))
    · rename_i ls₂ h₂
      obtain ⟨hi₂, hp₂⟩ := hframe ls₂ (s₁.trans (SameLayers.of_call h₂))
      split at h
      · -- `err` is set: the deferred `Remove` and `Cancel` run
        rename_i r' ls₃ h₃
        obtain ⟨hi₃, hp₃⟩ := Inv.registerInTransaction fromBytes hi₂ hp₂ rfl rfl h₃
        cases h
        have s₅ := (sameLayers_driverRemove ls₃ tar.cacheID).trans (sameLayers_call _)
        exact ⟨by simpa using hi₃.of_sameLayers s₅, fun q hq => (s₅.live q).mpr (hp₃ q hq)⟩
      · rename_i r' ls₃ h₃
        cases h
        exact Inv.registerInTransaction fromBytes hi₂ hp₂ rfl rfl h₃

/-- `registerWithDescriptor` from a consistent store ends without a panic in a consistent
store. -/
theorem Inv.registerWithDescriptor (hi : ls.Inv 0) (parent descriptor : String)
    (tar : TarInput) :
    ∃ r ls', ls.registerWithDescriptor fromBytes parent descriptor tar = .ok (r, ls') ∧
      ls'.Inv 0 := by
  unfold LayerStore.registerWithDescriptor
  split
  · split
    rename_i r b ls' h
    obtain ⟨hi', -⟩ := Inv.registerNew fromBytes (p := none) hi (fun _ h => nomatch h) h
    exact ⟨r, ls', rfl, by cases b <;> exact hi'⟩
  · split
    · rename_i ls₁ h₁
      obtain ⟨-, rfl⟩ := getWithoutLock_none h₁
      exact ⟨_, _, rfl, hi⟩
    · rename_i p ls₁ h₁
      obtain ⟨hl, hi₁⟩ := hi.getWithoutLock h₁
      have hp₁ : ls₁.Live p := ⟨_, by rw [getWithoutLock_layerMap h₁]; exact hl⟩
      have hpend : (0 : Nat → Nat) + Pi.single p 1 = parentPend (some p) := by
        funext q
        simp [parentPend]
      split
      · obtain ⟨ls', h', hi'⟩ := hi₁.releaseAfter (.error .maxDepthExceeded) hp₁
        exact ⟨_, ls', h', hi'⟩
      · split
        · rename_i r ls₂ h₂
          obtain ⟨hi₂, hp₂⟩ := Inv.registerNew fromBytes (hpend ▸ hi₁)
            (fun q hq => by cases hq; exact hp₁) h₂
          simp only [if_true] at hi₂
          have hi₂' : ls₂.Inv (0 + Pi.single p 1) := hpend ▸ hi₂
          obtain ⟨ls', h', hi'⟩ := hi₂'.releaseAfter r (hp₂ p rfl)
          exact ⟨_, ls', h', hi'⟩
        · rename_i r ls₂ h₂
          obtain ⟨hi₂, -⟩ := Inv.registerNew fromBytes (hpend ▸ hi₁)
            (fun q hq => by cases hq; exact hp₁) h₂
          exact ⟨_, _, rfl, hi₂⟩

/-- `Get` takes a handle on the layer it finds. -/
theorem Inv.get (hi : ls.Inv 0) (c : String) : (ls.get c).2.Inv 0 := by
  unfold LayerStore.get
  split
  · rename_i ls₁ h₁
    obtain ⟨-, rfl⟩ := getWithoutLock_none h₁
    exact hi
  · rename_i a ls₁ h₁
    obtain ⟨-, hi₁⟩ := hi.getWithoutLock h₁
    exact hi₁.getReference

/-- A new handle on the mount registered under `name`. -/
theorem Inv.mountReference {name : String} {m : MountedLayer} (hi : ls.Inv extra)
    (h : ls.mounts.lookup name = some m) : (ls.mountReference name m).2.Inv extra :=
  hi.bumpRef.replaceMount h rfl (hi.mountKey name m h)

theorem saveMount_some {m : MountedLayer} {c : String} {ls' : LayerStore}
    (h : ls.saveMount m = (some c, ls')) : SameLayers ls ls' := by
  unfold saveMount at h
  split at h
  · rename_i c' ls₁ h₁
    cases h
    exact SameLayers.of_callAll h₁
  · cases h

theorem saveMount_none {m : MountedLayer} {ls' : LayerStore}
    (h : ls.saveMount m = (none, ls')) :
    ∃ ls₁, SameLayers ls ls₁ ∧ ls' = { ls₁ with mounts := ls₁.mounts.insert m.name m } := by
  unfold saveMount at h
  split at h
  · cases h
  · rename_i ls₁ h₁
    cases h
    exact ⟨ls₁, SameLayers.of_callAll h₁, rfl⟩

/-- `createMount` with the parent's count pending: a failure leaves it pending, success hands it
to the new mount. -/
theorem Inv.createMount {name mountID : String} {p : Option Nat} {initFunc : Bool}
    (hi : ls.Inv (parentPend p)) (hp : ∀ q, p = some q → ls.Live q)
    (hnew : ls.mounts.lookup name = none)
    {r : Except LayerError RWLayerHandle} {ls' : LayerStore}
    (h : ls.createMount name p mountID initFunc = (r, ls')) :
    ls'.Inv (if r.isOk then 0 else parentPend p) ∧ ∀ q, p = some q → ls'.Live q := by
  have hframe : ∀ ls₁, SameLayers ls ls₁ →
      ls₁.Inv (parentPend p) ∧ ∀ q, p = some q → ls₁.Live q :=
    fun ls₁ s => ⟨hi.of_sameLayers s, fun q hq => (s.live q).mpr (hp q hq)⟩
  unfold LayerStore.createMount at h
  dsimp only at h
  split at h
  · rename_i e ls₁ h₁
    cases h
    have hs := sameLayers_prepareInit ls
      { name := name, mountID := mountID, initID := "", parent := p, references := ∅ } initFunc
    rw [h₁] at hs
    exact hframe _ hs
  · rename_i m ls₁ h₁
    obtain ⟨hname, hpar, -⟩ := prepareInit_mount h₁
    change m.name = name at hname
    change m.parent = p at hpar
    have s₁ := sameLayers_prepareInit ls
      { name := name, mountID := mountID, initID := "", parent := p, references := ∅ } initFunc
    rw [h₁] at s₁
    split at h
    · rename_i ls₂ h₂
      cases h
      exact hframe _ (s₁.trans (SameLayers.of_driverCreate h₂))
    · rename_i ls₂ h₂
      have s₂ := s₁.trans (SameLayers.of_driverCreate h₂)
      split at h
      · rename_i c ls₃ h₃
        cases h
        exact hframe _ (s₂.trans (saveMount_some h₃))
      · -- the mount is saved under its name, then its first handle is taken
        rename_i ls₃ h₃
        cases h
        obtain ⟨ls₄, s₄, rfl⟩ := saveMount_none h₃
        obtain ⟨hi₄, hp₄⟩ := hframe ls₄ (s₂.trans s₄)
        have hnew₄ : ls₄.mounts.lookup m.name = none := by
          rw [(s₂.trans s₄).mounts, hname]
          exact hnew
        have hi₅ : { ls₄ with mounts := ls₄.mounts.insert m.name m }.Inv 0 := by
          have hz : (0 : Nat → Nat) + parentPend m.parent = parentPend p := by
            funext q
            simp [hpar]
          apply Inv.insertMount _ hnew₄ (fun q hq => hp₄ q (hpar ▸ hq))
          rw [hz]
          exact hi₄
        have hlook : { ls₄ with mounts := ls₄.mounts.insert m.name m }.mounts.lookup name =
            some m := by
          simp only [hname, AList.lookup_insert]
        exact ⟨hi₅.mountReference hlook, fun q hq => hp₄ q hq⟩

/-- `CreateRWLayer` from a consistent store ends without a panic in a consistent store. -/
theorem Inv.createRWLayer (hi : ls.Inv 0) (name parent mountID : String) (initFunc : Bool) :
    ∃ r ls', ls.createRWLayer name parent mountID initFunc = .ok (r, ls') ∧ ls'.Inv 0 := by
  unfold LayerStore.createRWLayer
  split
  · exact ⟨_, _, rfl, hi⟩
  · rename_i hnew
    split
    · generalize hc : ls.createMount name none mountID initFunc = res
      obtain ⟨r, ls'⟩ := res
      obtain ⟨hi', -⟩ := Inv.createMount (p := none) hi (fun _ h => nomatch h) hnew hc
      exact ⟨r, ls', rfl, by cases r <;> exact hi'⟩
    · split
      · rename_i ls₁ h₁
        obtain ⟨-, rfl⟩ := getWithoutLock_none h₁
        exact ⟨_, _, rfl, hi⟩
      · rename_i p ls₁ h₁
        obtain ⟨hl, hi₁⟩ := hi.getWithoutLock h₁
        have hp₁ : ls₁.Live p := ⟨_, by rw [getWithoutLock_layerMap h₁]; exact hl⟩
        have hnew₁ : ls₁.mounts.lookup name = none := by
          rw [getWithoutLock_mounts h₁]
          exact hnew
        have hpend : (0 : Nat → Nat) + Pi.single p 1 = parentPend (some p) := by
          funext q
          simp [parentPend]
        split
        · -- the deferred release of the parent takes back the count `getWithoutLock` added
          rename_i e ls₂ h₂
          obtain ⟨hi₂, hp₂⟩ := Inv.createMount (hpend ▸ hi₁)
            (fun q hq => by cases hq; exact hp₁) hnew₁ h₂
          have hi₂' : ls₂.Inv (0 + Pi.single p 1) := hpend ▸ hi₂
          obtain ⟨ls', h', hi'⟩ := hi₂'.releaseAfter (.error e) (hp₂ p rfl)
          exact ⟨_, ls', h', hi'⟩
        · rename_i h ls₂ h₂
          obtain ⟨hi₂, -⟩ := Inv.createMount (hpend ▸ hi₁)
            (fun q hq => by cases hq; exact hp₁) hnew₁ h₂
          exact ⟨_, _, rfl, hi₂⟩

/-- `GetRWLayer` takes a handle on the mount it finds. -/
theorem Inv.getRWLayer (hi : ls.Inv 0) (name : String) : (ls.getRWLayer name).2.Inv 0 := by
  unfold LayerStore.getRWLayer
  split
  · exact hi
  · rename_i m h
    exact hi.mountReference h

/-- `ReleaseRWLayer` from a consistent store ends without a panic in a consistent store: a
failed removal retakes the handle, a removed mount's count on its parent goes to
`releaseLayer`. -/
theorem Inv.releaseRWLayer (hi : ls.Inv 0) (l : RWLayerHandle) :
    ∃ r ls', ls.releaseRWLayer l = .ok (r, ls') ∧ ls'.Inv 0 := by
  unfold LayerStore.releaseRWLayer
  split
  · exact ⟨_, _, rfl, hi⟩
  · rename_i m h
    have hname := hi.mountKey _ _ h
    by_cases hr : l.ref ∈ m.references
    · rw [if_neg (not_not.mpr hr)]
      dsimp only
      -- the handle is dropped from the mount, which stays under its name
      have hi₁ := hi.replaceMount h
        (show ({ m with references := m.references.erase l.ref } : MountedLayer).parent = m.parent
          from rfl) hname
      split
      · exact ⟨_, _, rfl, hi₁⟩
      · split
        · rename_i c ls₂ h₂
          have s₂ := (sameLayers_removeMount _ _).of_eq h₂
          have hl₂ : ls₂.mounts.lookup l.name =
              some { m with references := m.references.erase l.ref } := by
            rw [s₂.mounts]
            exact AList.lookup_insert _
          exact ⟨_, _, rfl, (hi₁.of_sameLayers s₂).replaceMount hl₂ rfl hname⟩
        · rename_i ls₂ h₂
          have s₂ := (sameLayers_removeMount _ _).of_eq h₂
          have hl₂ : ls₂.mounts.lookup m.name =
              some { m with references := m.references.erase l.ref } := by
            rw [s₂.mounts, hname]
            exact AList.lookup_insert _
          have hi₃ := (hi₁.of_sameLayers s₂).eraseMount hl₂
          split
          · rename_i hp
            have hz : (0 : Nat → Nat) + parentPend m.parent = 0 := by
              rw [hp]
              rfl
            exact ⟨_, _, rfl, hz ▸ hi₃⟩
          · rename_i p hp
            have hlive : ls₂.Live p :=
              (hi₁.of_sameLayers s₂).mountParentLive _ _ p hl₂ hp
            have hpend : (0 : Nat → Nat) + parentPend m.parent = 0 + Pi.single p 1 := by
              rw [hp]
              rfl
            exact (hpend ▸ hi₃).releaseLayer hlive
    · rw [if_pos hr]
      exact ⟨_, _, rfl, hi⟩

variable (fromBytes : String → String)

/-- One call of the store from a consistent store: no panic, and a consistent store after. -/
theorem Inv.step (hi : ls.Inv 0) (op : LayerOp) :
    ∃ ls', ls.step fromBytes op = .ok ls' ∧ ls'.Inv 0 := by
  cases op with
  | register parent descriptor tar =>
    obtain ⟨r, ls', h, hi'⟩ := hi.registerWithDescriptor fromBytes parent descriptor tar
    exact ⟨ls', by simp only [LayerStore.step, h]; rfl, hi'⟩
  | get c => exact ⟨_, rfl, hi.get c⟩
  | release l =>
    obtain ⟨r, ls', h, hi'⟩ := hi.release l
    exact ⟨ls', by simp only [LayerStore.step, h]; rfl, hi'⟩
  | createRWLayer name parent mountID initFunc =>
    obtain ⟨r, ls', h, hi'⟩ := hi.createRWLayer name parent mountID initFunc
    exact ⟨ls', by simp only [LayerStore.step, h]; rfl, hi'⟩
  | getRWLayer name => exact ⟨_, rfl, hi.getRWLayer name⟩
  | releaseRWLayer l =>
    obtain ⟨r, ls', h, hi'⟩ := hi.releaseRWLayer l
    exact ⟨ls', by simp only [LayerStore.step, h]; rfl, hi'⟩

end Calls

/-! ## 5. Whole runs -/

theorem inv_empty (answers : List Bool) : (LayerStore.empty answers).Inv 0 := by
  -- every field starts from a lookup, and both maps start empty
  have hl : ∀ c a, (LayerStore.empty answers).layerMap.lookup c = some a → False := by
    intro c a h
    simp [LayerStore.empty] at h
  have hm : ∀ n m, (LayerStore.empty answers).mounts.lookup n = some m → False := by
    intro n m h
    simp [LayerStore.empty] at h
  exact ⟨fun c a h => (hl c a h).elim, fun c a h => (hl c a h).elim,
    fun c a _ h => (hl c a h).elim, fun c a _ h => (hl c a h).elim,
    fun n m h => (hm n m h).elim, fun n m _ h => (hm n m h).elim,
    fun c a h => (hl c a h).elim, fun c a h => (hl c a h).elim⟩

theorem inv_preserved (fromBytes : String → String) :
    Reasoning.Reach.Preserved (fun ls : LayerStore => ls.Inv 0) (LayerStore.step fromBytes) :=
  fun _ op hi => hi.step fromBytes op

/-- From the empty store, whatever the driver and the metadata store answer, every sequence of
calls runs without a panic, and after it every layer of `layerMap` counts its handles, its
child layers and its child mounts, and the parents of layers and mounts are in `layerMap`. -/
theorem refcount_invariant (fromBytes : String → String) (answers : List Bool)
    (ops : List LayerOp) :
    ∃ ls, Reasoning.Reach.runSteps (LayerStore.step fromBytes) (LayerStore.empty answers) ops =
        .ok ls ∧
      (∀ c a, ls.layerMap.lookup c = some a →
        (ls.heap a).referenceCount =
          (ls.heap a).references.card + ls.children a + ls.mountChildren a) ∧
      (∀ c a p, ls.layerMap.lookup c = some a → (ls.heap a).parent = some p → ls.Live p) ∧
      (∀ n m p, ls.mounts.lookup n = some m → m.parent = some p → ls.Live p) := by
  obtain ⟨ls, hrun, hi⟩ := Reasoning.Reach.runSteps_preserved _ (inv_preserved fromBytes)
    (LayerStore.empty answers) ops (inv_empty answers)
  exact ⟨ls, hrun, fun c a hl => hi.counted c a hl, hi.parentLive, hi.mountParentLive⟩

end Docker.Layer.LayerStore
