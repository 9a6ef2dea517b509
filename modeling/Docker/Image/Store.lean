import Mathlib
import Docker.Reasoning.ChildIndex
import Docker.Reasoning.Reach

/-!
# Store — the image store's parent links and children index

The image store keeps, for each image of `is.images`, the set of its children in memory, while
the parent of an image is a metadata file of the backend (`metadata/<id>/parent`).  `SetParent`
takes the image out of its old parent's children before it puts it into the new parent's, and
`Delete` clears the parent file of each child and takes the image out of its own parent's
children.

From an empty store, along any run of `Create`, `SetParent` and `Delete` in which `SetParent` names
an image of the store, the children sets are exactly the inverse of `GetParent`, and `Heads`
returns exactly the images without children (`children_iff_getParent_and_heads`).  The run keeps
`Inv`, whose index part is the library's `IsIndex`.
-/

namespace Docker.Image

open Function Reasoning.ChildIndex Reasoning.Reach

/-! ## 1. The store -/

/-- What `json.Unmarshal` reads from an image config that `Create` and `Get` look at. -/
structure ImageConfig where
  rootFS : Option (List String)   -- `RootFS.DiffIDs`; `none` when the config has no `rootfs`
  history : List Bool             -- `History[i].EmptyLayer`
  deriving DecidableEq, Repr

set_option linter.dupNamespace false in
/-- `*Image` as `Get` returns it. -/
structure Image where
  config : ImageConfig
  parent : String
  deriving DecidableEq, Repr

/-- `is.images` with each image's `children`, and the files of the backend `fs`: `content/<id>`
and `metadata/<id>/parent`.  The layer an image holds is left out. -/
structure ImageStore where
  images : String → Option (Finset String)
  content : String → Option (List UInt8)
  parentFile : String → Option String

def ImageStore.empty : ImageStore := ⟨fun _ => none, fun _ => none, fun _ => none⟩

section Calls

-- `digest.FromBytes`, and `json.Unmarshal` of a config
variable (digestOf : List UInt8 → String) (parse : List UInt8 → Except String ImageConfig)

/-- `fs.get(id)`: the content under `id`, checked against its digest. -/
def fsGet (is : ImageStore) (id : String) : Except String (List UInt8) :=
  match is.content id with
  | none => .error "no such file or directory"
  | some c => if digestOf c = id then .ok c else .error ("failed to verify image: " ++ id)

/-- `GetParent(id)`, that is `fs.GetMetadata(id, "parent")`. -/
def getParent (is : ImageStore) (id : String) : Except String String :=
  match fsGet digestOf is id with
  | .error e => .error e
  | .ok _ =>
    match is.parentFile id with
    | some p => .ok p
    | none => .error "no such file or directory"

/-- The parent where `GetParent` succeeds: `if parent, err := is.GetParent(id); err == nil`. -/
def parentOf (is : ImageStore) (id : String) : Option String :=
  (getParent digestOf is id).toOption

/-- `Create(config)`.  `layerErr` and `digestErr` are what `is.ls.Get` and `is.digestSet.Add`
return.  The store is returned on errors too: once `fs.Set` has run, the content stays. -/
def create (is : ImageStore) (config : List UInt8) (layerErr digestErr : Option String) :
    Except String String × ImageStore :=
  match parse config with
  | .error e => (.error e, is)
  | .ok img =>
    match img.rootFS with
    -- `img.RootFS.DiffIDs` with no `rootfs`: a nil pointer dereference
    | none => (.error "runtime error: invalid memory address or nil pointer dereference", is)
    | some diffIDs =>
      if diffIDs.length < (img.history.filter (!·)).length then
        (.error "too many non-empty layers in History section", is)
      -- `fs.Set`
      else if config.length = 0 then (.error "Invalid empty data", is)
      else
        let imageID := digestOf config
        let is := { is with content := update is.content imageID (some config) }
        if (is.images imageID).isSome then (.ok imageID, is)
        else
          -- `img.RootFS.ChainID()` is empty exactly when there are no layers
          match (if diffIDs = [] then none else layerErr) with
          | some e => (.error e, is)
          | none =>
            -- `is.images[imageID]` is set, and deleted again when `digestSet.Add` fails
            match digestErr with
            | some e => (.error e, is)
            | none => (.ok imageID, { is with images := update is.images imageID (some ∅) })

/-- `SetParent(id, parent)`. -/
def setParent (is : ImageStore) (id parent : String) : Except String Unit × ImageStore :=
  match is.images parent with
  | none => (.error ("unknown parent image ID " ++ parent), is)
  | some _ =>
    -- out of the old parent's children, into the new parent's
    let is := { is with images := insertChild (detach is.images (parentOf digestOf is) id) parent id }
    -- `is.fs.SetMetadata(id, "parent", []byte(parent))`
    match fsGet digestOf is id with
    | .error e => (.error e, is)
    | .ok _ => (.ok (), { is with parentFile := update is.parentFile id (some parent) })

/-- `Delete(id)`; the layer it releases is left out. -/
def delete (is : ImageStore) (id : String) : Except String Unit × ImageStore :=
  match is.images id with
  | none => (.error ("unrecognized image ID " ++ id), is)
  | some children =>
    -- `is.fs.DeleteMetadata(child, "parent")` for each child
    let is := { is with parentFile := clearParents is.parentFile children }
    let is := { is with images := detach is.images (parentOf digestOf is) id }
    -- `delete(is.images, id)`, and `is.fs.Delete(id)`, which removes content and metadata
    (.ok (), ⟨update is.images id none, update is.content id none,
      update is.parentFile id none⟩)

/-- `Get(id)`. -/
def get (is : ImageStore) (id : String) : Except String Image := do
  let config ← fsGet digestOf is id
  -- `NewFromJSON`
  let img ← parse config
  match img.rootFS with
  | none => .error "Invalid image JSON, no RootFS key."
  | some _ => .ok ⟨img, ((getParent digestOf is id).toOption).getD ""⟩

/-- `children(id)`. -/
def children (is : ImageStore) (id : String) : Finset String :=
  (is.images id).getD ∅

/-- `imagesMap(all)`: the images `Get` reads, all of them or only those without children. -/
def imagesMap (is : ImageStore) (all : Bool) (id : String) : Option Image :=
  match is.images id with
  | none => none
  | some _ =>
    if !all && 0 < (children is id).card then none else (get digestOf parse is id).toOption

/-- `Heads()`. -/
def heads (is : ImageStore) : String → Option Image :=
  imagesMap digestOf parse is false

/-- The calls of a run, with the backend's answers to `Create`. -/
inductive Op
  | create (config : List UInt8) (layerErr digestErr : Option String)
  | setParent (id parent : String)
  | delete (id : String)

/-- The store after a call. -/
def step (is : ImageStore) : Op → ImageStore
  | .create config layerErr digestErr => (create digestOf parse is config layerErr digestErr).2
  | .setParent id parent => (setParent digestOf is id parent).2
  | .delete id => (delete digestOf is id).2

/-- What the callers promise: `SetParent` names an image of the store. -/
def allowed (is : ImageStore) : Op → Bool
  | .setParent id _ => (is.images id).isSome
  | _ => true

/-- The store after a run of calls from an empty one. -/
def afterCalls (ops : List Op) : ImageStore :=
  ops.foldl (step digestOf parse) ImageStore.empty

/-! ## 2. The invariant -/

/-- The children index agrees with the parent files, content sits under its digest, every image
has a config that `Get` reads, and only images have a parent file. -/
structure Inv (is : ImageStore) : Prop where
  index : IsIndex is.images is.parentFile
  digest : ∀ x c, is.content x = some c → digestOf c = x
  valid : ∀ x, (is.images x).isSome →
    ∃ c img ids, is.content x = some c ∧ parse c = .ok img ∧ img.rootFS = some ids
  orphan : ∀ x, is.images x = none → is.parentFile x = none

theorem inv_empty : Inv digestOf parse ImageStore.empty :=
  ⟨isIndex_empty _, fun _ _ h => by simp [ImageStore.empty] at h,
    fun _ h => by simp [ImageStore.empty] at h, fun _ _ => rfl⟩

variable {digestOf parse}

theorem fsGet_of_content {is : ImageStore} {x : String} {c : List UInt8}
    (hd : digestOf c = x) (h : is.content x = some c) : fsGet digestOf is x = .ok c := by
  simp [fsGet, h, hd]

theorem parentOf_of_fsGet {is : ImageStore} {x : String} {c : List UInt8}
    (h : fsGet digestOf is x = .ok c) : parentOf digestOf is x = is.parentFile x := by
  unfold parentOf getParent
  rw [h]
  cases is.parentFile x <;> rfl

/-- On an image, `GetParent` reads the parent file. -/
theorem Inv.parentOf_eq {is : ImageStore} (hi : Inv digestOf parse is) {x : String}
    (hx : (is.images x).isSome) : parentOf digestOf is x = is.parentFile x := by
  obtain ⟨c, -, -, hc, -, -⟩ := hi.valid x hx
  exact parentOf_of_fsGet (fsGet_of_content (hi.digest x c hc) hc)

theorem detach_congr {index : String → Option (Finset String)} {f g : String → Option String}
    {x : String} (h : f x = g x) : detach index f x = detach index g x := by
  unfold detach
  rw [h]

/-- Writing a config under its digest. -/
theorem Inv.setContent {is : ImageStore} (hi : Inv digestOf parse is) {config : List UInt8}
    {img : ImageConfig} {ids : List String} (hp : parse config = .ok img)
    (hr : img.rootFS = some ids) :
    Inv digestOf parse { is with content := update is.content (digestOf config) (some config) } := by
  refine ⟨hi.index, fun x c hc => ?_, fun x hx => ?_, hi.orphan⟩
  · dsimp only at hc
    by_cases hx : x = digestOf config
    · subst hx
      rw [update_self, Option.some.injEq] at hc
      rw [← hc]
    · rw [update_of_ne hx] at hc
      exact hi.digest x c hc
  · dsimp only at hx ⊢
    by_cases hxd : x = digestOf config
    · subst hxd
      exact ⟨config, img, ids, update_self _ _ _, hp, hr⟩
    · obtain ⟨c, img', ids', hc, hp', hr'⟩ := hi.valid x hx
      exact ⟨c, img', ids', by rw [update_of_ne hxd]; exact hc, hp', hr'⟩

/-- Adding a fresh image whose config is in place. -/
theorem Inv.addImage {is : ImageStore} (hi : Inv digestOf parse is) {x : String}
    (hx : is.images x = none) (hv : ∃ c img ids, is.content x = some c ∧ parse c = .ok img ∧
      img.rootFS = some ids) :
    Inv digestOf parse { is with images := update is.images x (some ∅) } := by
  refine ⟨hi.index.add hx (hi.orphan x hx), hi.digest, fun z hz => ?_, fun z hz => ?_⟩
  · dsimp only at hz ⊢
    by_cases hzx : z = x
    · subst hzx
      exact hv
    · rw [update_of_ne hzx] at hz
      exact hi.valid z hz
  · dsimp only at hz ⊢
    by_cases hzx : z = x
    · subst hzx
      simp at hz
    · rw [update_of_ne hzx] at hz
      exact hi.orphan z hz

/-! ## 3. Each call keeps the invariant -/

theorem Inv.create {is : ImageStore} (hi : Inv digestOf parse is) (config : List UInt8)
    (layerErr digestErr : Option String) :
    Inv digestOf parse (create digestOf parse is config layerErr digestErr).2 := by
  unfold Docker.Image.create
  split
  · exact hi
  rename_i img hp
  split
  · exact hi
  rename_i ids hr
  split
  · exact hi
  split
  · exact hi
  -- from here on the content is written
  have hc := hi.setContent hp hr
  dsimp only
  split
  · exact hc
  rename_i hnew
  split
  · exact hc
  split
  · exact hc
  exact hc.addImage (Option.not_isSome_iff_eq_none.mp hnew)
    ⟨config, img, ids, update_self _ _ _, hp, hr⟩

theorem Inv.setParent {is : ImageStore} (hi : Inv digestOf parse is) {id : String}
    (hid : (is.images id).isSome) (parent : String) :
    Inv digestOf parse (setParent digestOf is id parent).2 := by
  unfold Docker.Image.setParent
  split
  · exact hi
  rename_i hp
  obtain ⟨c, -, -, hc, -, -⟩ := hi.valid id hid
  -- `SetMetadata` finds the content of `id`
  have hget : ∀ images, fsGet digestOf ({ is with images := images }) id = .ok c :=
    fun _ => fsGet_of_content (hi.digest id c hc) hc
  dsimp only
  rw [hget, detach_congr (hi.parentOf_eq hid)]
  dsimp only
  refine ⟨hi.index.link hid (by simp [hp]), hi.digest, fun x hx => ?_, fun x hx => ?_⟩
  · rw [isSome_insertChild, isSome_detach] at hx
    exact hi.valid x hx
  · -- an image with no entry now had none before, and is not `id`
    dsimp only at hx ⊢
    have hx' : is.images x = none := by
      simpa using congrArg Option.isSome hx
    have hxid : x ≠ id := by
      rintro rfl
      simp [hx'] at hid
    rw [update_of_ne hxid]
    exact hi.orphan x hx'

theorem Inv.delete {is : ImageStore} (hi : Inv digestOf parse is) (id : String) :
    Inv digestOf parse (delete digestOf is id).2 := by
  unfold Docker.Image.delete
  split
  · exact hi
  rename_i s hs
  obtain ⟨c, -, -, hc, -, -⟩ := hi.valid id (by simp [hs])
  -- `GetParent(id)` runs after the children's parent files are gone
  have hparent : parentOf digestOf { is with parentFile := clearParents is.parentFile s } id =
      clearParents is.parentFile s id :=
    parentOf_of_fsGet (fsGet_of_content (hi.digest id c hc) hc)
  dsimp only
  rw [detach_congr hparent]
  refine ⟨hi.index.remove hs, fun x c' hc' => ?_, fun x hx => ?_, fun x hx => ?_⟩
  · dsimp only at hc'
    have hxid : x ≠ id := by
      rintro rfl
      simp at hc'
    rw [update_of_ne hxid] at hc'
    exact hi.digest x c' hc'
  · dsimp only at hx ⊢
    have hxid : x ≠ id := by
      rintro rfl
      simp at hx
    rw [update_of_ne hxid, isSome_detach] at hx
    rw [update_of_ne hxid]
    exact hi.valid x hx
  · dsimp only at hx ⊢
    by_cases hxid : x = id
    · subst hxid
      exact update_self _ _ _
    · rw [update_of_ne hxid] at hx ⊢
      have hx' : is.images x = none := by
        simpa using congrArg Option.isSome hx
      unfold clearParents
      split
      · rfl
      · exact hi.orphan x hx'

/-! ## 4. Runs, and what the invariant gives -/

theorem Inv.step {is : ImageStore} (hi : Inv digestOf parse is) {op : Op}
    (ha : allowed is op = true) : Inv digestOf parse (step digestOf parse is op) := by
  cases op with
  | create config layerErr digestErr => exact hi.create config layerErr digestErr
  | setParent id parent => exact hi.setParent ha parent
  | delete id => exact hi.delete id

theorem inv_afterCalls (ops : List Op)
    (hops : Conforms (step digestOf parse) allowed ImageStore.empty ops = true) :
    Inv digestOf parse (afterCalls digestOf parse ops) :=
  foldl_preserved_of_conforms (step digestOf parse) (Inv digestOf parse) allowed
    (fun _ _ hi ha => hi.step ha) ops _ (inv_empty digestOf parse) hops

/-- On images, the children sets are the inverse of `GetParent`. -/
theorem Inv.mem_children_iff {is : ImageStore} (hi : Inv digestOf parse is) {x y : String}
    {ch : Finset String} (hx : (is.images x).isSome) (hy : is.images y = some ch) :
    x ∈ ch ↔ getParent digestOf is x = .ok y := by
  rw [hi.index.children y ch hy x]
  obtain ⟨c, -, -, hc, -, -⟩ := hi.valid x hx
  unfold getParent
  rw [fsGet_of_content (hi.digest x c hc) hc]
  cases is.parentFile x <;> simp [hx]

/-- `Get` reads every image. -/
theorem Inv.get_ok {is : ImageStore} (hi : Inv digestOf parse is) {x : String}
    (hx : (is.images x).isSome) : ∃ img, get digestOf parse is x = .ok img := by
  obtain ⟨c, img, ids, hc, hp, hr⟩ := hi.valid x hx
  refine ⟨⟨img, ((getParent digestOf is x).toOption).getD ""⟩, ?_⟩
  simp [get, fsGet_of_content (hi.digest x c hc) hc, hp, hr, bind, Except.bind]

/-- `Heads` returns the images without children. -/
theorem Inv.heads_isSome_iff {is : ImageStore} (hi : Inv digestOf parse is) (id : String) :
    (heads digestOf parse is id).isSome ↔ ∃ ch, is.images id = some ch ∧ ch = ∅ := by
  unfold heads imagesMap
  cases hid : is.images id with
  | none => simp
  | some ch =>
    obtain ⟨img, himg⟩ := hi.get_ok (by simp [hid] : (is.images id).isSome)
    by_cases hne : ch.Nonempty
    · simp [children, hid, Finset.card_pos.mpr hne, hne.ne_empty]
    · simp [children, hid, himg, Finset.not_nonempty_iff_eq_empty.mp hne, Except.toOption]

/-! ## 5. Why `SetParent` must name an image

`SetParent` puts `id` into the parent's children before `SetMetadata` finds that `id` has no
content; the call fails but the child stays.  Once `id` is created, it is listed as a child of a
parent that `GetParent` does not return. -/

theorem setParent_unknown_leaves_stale_child {is : ImageStore} (hi : Inv digestOf parse is)
    {id parent : String} {config : List UInt8} {img : ImageConfig} {ids : List String}
    (hid : is.images id = none) (hcont : is.content id = none) (hp : (is.images parent).isSome)
    (hd : digestOf config = id) (hparse : parse config = .ok img) (hr : img.rootFS = some ids)
    (hh : (img.history.filter (!·)).length ≤ ids.length) (hne : config ≠ []) :
    (setParent digestOf is id parent).1 = .error "no such file or directory" ∧
      id ∈ children (create digestOf parse (setParent digestOf is id parent).2 config none none).2
        parent ∧
      getParent digestOf (create digestOf parse (setParent digestOf is id parent).2 config none
        none).2 id = .error "no such file or directory" := by
  obtain ⟨ch, hch⟩ := Option.isSome_iff_exists.mp hp
  have hpid : parent ≠ id := by
    rintro rfl
    simp [hid] at hp
  have hpo : parentOf digestOf is id = none := by
    simp [parentOf, getParent, fsGet, hcont, Except.toOption]
  -- the failed call has already put `id` among the parent's children
  have hset : setParent digestOf is id parent =
      (.error "no such file or directory", { is with images := insertChild is.images parent id }) := by
    simp [setParent, hch, detach, hpo, fsGet, hcont]
  have hstale : insertChild is.images parent id id = none := by
    rw [insertChild, update_of_ne hpid.symm, hid]
  have hcreate : (create digestOf parse { is with images := insertChild is.images parent id } config
      none none).2 = ⟨update (insertChild is.images parent id) id (some ∅),
        update is.content id (some config), is.parentFile⟩ := by
    have hlen : ¬config.length = 0 := fun h => hne (List.length_eq_zero_iff.mp h)
    simp [create, hparse, hr, hd, hstale, hlen, Nat.not_lt.mpr hh]
  refine ⟨by rw [hset], ?_, ?_⟩
  · rw [hset, hcreate]
    simp [children, update_of_ne hpid, insertChild, hch]
  · rw [hset, hcreate]
    simp [getParent, fsGet, hd, hi.orphan id hid]

end Calls

theorem children_iff_getParent_and_heads (digestOf : List UInt8 → String)
    (parse : List UInt8 → Except String ImageConfig) (ops : List Op)
    (hops : Conforms (step digestOf parse) allowed ImageStore.empty ops = true) :
    (∀ x y ch, ((afterCalls digestOf parse ops).images x).isSome →
        (afterCalls digestOf parse ops).images y = some ch →
        (x ∈ ch ↔ getParent digestOf (afterCalls digestOf parse ops) x = .ok y)) ∧
      ∀ id, (heads digestOf parse (afterCalls digestOf parse ops) id).isSome ↔
        ∃ ch, (afterCalls digestOf parse ops).images id = some ch ∧ ch = ∅ := by
  have hi := inv_afterCalls ops hops
  exact ⟨fun x y ch hx hy => hi.mem_children_iff hx hy, hi.heads_isSome_iff⟩

/-- Two configs, named `a` and `b` by their digest, each with an empty `rootfs`. -/
def twoConfigsDigest (c : List UInt8) : String := if c = [1] then "a" else "b"

def emptyRootFS (_ : List UInt8) : Except String ImageConfig := .ok ⟨some [], []⟩

/-- Create `a` and `b`, make `a` the parent of `b`, and delete `a`. -/
def twoImagesCalls : List Op :=
  [.create [1] none none, .create [2] none none, .setParent "b" "a", .delete "a"]

theorem children_iff_getParent_and_heads_two_images :
    Conforms (step twoConfigsDigest emptyRootFS) allowed ImageStore.empty twoImagesCalls = true ∧
      (∀ x y ch, ((afterCalls twoConfigsDigest emptyRootFS twoImagesCalls).images x).isSome →
        (afterCalls twoConfigsDigest emptyRootFS twoImagesCalls).images y = some ch →
        (x ∈ ch ↔ getParent twoConfigsDigest
          (afterCalls twoConfigsDigest emptyRootFS twoImagesCalls) x = .ok y)) ∧
      ∀ id, (heads twoConfigsDigest emptyRootFS
          (afterCalls twoConfigsDigest emptyRootFS twoImagesCalls) id).isSome ↔
        ∃ ch, (afterCalls twoConfigsDigest emptyRootFS twoImagesCalls).images id = some ch ∧
          ch = ∅ :=
  have hops : Conforms (step twoConfigsDigest emptyRootFS) allowed ImageStore.empty
      twoImagesCalls = true := by decide
  ⟨hops, children_iff_getParent_and_heads twoConfigsDigest emptyRootFS twoImagesCalls hops⟩

/-- `a` is in the store; `SetParent("b", "a")` before `b` is created leaves `b` among `a`'s
children, where `Create` of `b` then finds it. -/
theorem setParent_unknown_leaves_stale_child_a_b :
    (setParent twoConfigsDigest (create twoConfigsDigest emptyRootFS ImageStore.empty [1] none none).2
        "b" "a").1 = .error "no such file or directory" ∧
      "b" ∈ children (create twoConfigsDigest emptyRootFS (setParent twoConfigsDigest
        (create twoConfigsDigest emptyRootFS ImageStore.empty [1] none none).2 "b" "a").2 [2] none
        none).2 "a" ∧
      getParent twoConfigsDigest (create twoConfigsDigest emptyRootFS (setParent twoConfigsDigest
        (create twoConfigsDigest emptyRootFS ImageStore.empty [1] none none).2 "b" "a").2 [2] none
        none).2 "b" = .error "no such file or directory" :=
  setParent_unknown_leaves_stale_child ((inv_empty twoConfigsDigest emptyRootFS).create [1] none none)
    (by decide) (by decide) (by decide) (by decide) rfl rfl (by decide) (by decide)

end Docker.Image
