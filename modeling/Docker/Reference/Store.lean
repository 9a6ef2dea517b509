import Mathlib
import Docker.Reasoning.NestedMap

/-!
# Store — the reference store of `reference/store.go`

The store keeps two maps of maps that describe one relation.  `Repositories` takes a repository
name and a reference string (`ref.String()`) to an image ID; `referencesByIDCache` takes an image
ID and a reference string back to the reference.  Every call runs under `store.mu`, so a call is
one step.  Writing the JSON file (`save`) and reading it back (`reload`) are left out: a call's
result is what it returns before `save`.

References are the values the package builds (`WithName`, `WithTag`, `WithDigest`,
`ParseNamed`).  What the reference grammar guarantees of their parts is a field of `Named`; it
makes `String()` injective (`Named.string_injective`), so a reference string determines its
repository.

In every state a run reaches, the cache is the reverse of the repositories (`Store.Consistent`),
no repository is empty, and a refused call changes nothing.  `Get` adds the default tag to a
name-only reference while `References` lists the stored, tagged form, so a name-only reference is
never among the references of the image it gets.
-/

set_option linter.dupNamespace false

namespace Docker.Reference

open Reasoning NestedMap

/-! ## 1. References -/

/-- The references `WithName`, `WithTag` and `WithDigest` build: `namedRef`, `taggedRef` and
`canonicalRef`. -/
inductive Reference where
  | named (name : List Char)
  | tagged (name tag : List Char)
  | canonical (name digest : List Char)
  deriving DecidableEq, Repr

namespace Reference

def name : Reference → List Char
  | named n | tagged n _ | canonical n _ => n

-- `String()`: `name:tag` and `name@digest`
def string : Reference → List Char
  | named n => n
  | tagged n t => n ++ ':' :: t
  | canonical n d => n ++ '@' :: d

-- the `Canonical` type assertion, and its `Digest()`
def digest? : Reference → Option (List Char)
  | canonical _ d => some d
  | _ => none

def isNameOnly : Reference → Bool
  | named _ => true
  | _ => false

def defaultTag : List Char := "latest".toList

def withDefaultTag (r : Reference) : Reference :=
  if r.isNameOnly then tagged r.name defaultTag else r

/-- The last path component of a name, reversed. -/
def lastComponent (n : List Char) : List Char :=
  n.reverse.takeWhile (· != '/')

/-- A name of the grammar has no `@`, and a `:` only in a hostname's port, before a `/`. -/
def nameOk (n : List Char) : Bool :=
  !n.contains '@' && !(lastComponent n).contains ':'

/-- What the reference grammar guarantees of the parts, as far as the store relies on it: a tag
has no `:`, `/` or `@`, and a digest no `@`. -/
def wellFormed : Reference → Bool
  | named n => nameOk n
  | tagged n t => nameOk n && !t.contains ':' && !t.contains '/' && !t.contains '@'
  | canonical n d => nameOk n && !d.contains '@'

theorem nameOk_iff {n : List Char} : nameOk n ↔ '@' ∉ n ∧ ':' ∉ lastComponent n := by
  simp [nameOk]

theorem wellFormed_withDefaultTag {r : Reference} (h : r.wellFormed) :
    r.withDefaultTag.wellFormed := by
  cases r with
  | named n =>
    simp only [wellFormed] at h
    simp only [withDefaultTag, isNameOnly, name, if_true, wellFormed, h]
    decide
  | tagged n t => exact h
  | canonical n d => exact h

/-- Cut at the last separator: the parts after it, free of the separator, are equal. -/
theorem append_cons_eq_iff {a : Char} {x₁ x₂ z₁ z₂ : List Char} (h₁ : a ∉ z₁) (h₂ : a ∉ z₂) :
    x₁ ++ a :: z₁ = x₂ ++ a :: z₂ ↔ x₁ = x₂ ∧ z₁ = z₂ := by
  constructor
  · intro h
    rcases List.append_eq_append_iff.mp h with ⟨c, hx, hc⟩ | ⟨c, hx, hc⟩
    · cases c with
      | nil => simp_all
      | cons b c =>
        -- a longer first part would put `a` into `z₁`
        rw [List.cons_append, List.cons.injEq] at hc
        exact absurd (hc.2 ▸ List.mem_append_right c List.mem_cons_self) h₁
    · cases c with
      | nil => simp_all
      | cons b c =>
        rw [List.cons_append, List.cons.injEq] at hc
        exact absurd (hc.2 ▸ List.mem_append_right c List.mem_cons_self) h₂
  · rintro ⟨rfl, rfl⟩
    rfl

/-- A `:` followed by no `/` lies in the last path component. -/
theorem mem_lastComponent {m t : List Char} (ht : '/' ∉ t) :
    ':' ∈ lastComponent (m ++ ':' :: t) := by
  have hpos : ∀ c ∈ t.reverse, (c != '/') = true := by
    intro c hc
    rw [List.mem_reverse] at hc
    have hne : c ≠ '/' := fun h => ht (h ▸ hc)
    simpa using hne
  rw [lastComponent, List.reverse_append, List.reverse_cons, List.append_assoc,
    List.takeWhile_append_of_pos hpos]
  simp

theorem at_not_mem_tagged {n t : List Char} (h : (tagged n t).wellFormed) :
    '@' ∉ n ++ ':' :: t := by
  simp only [wellFormed, Bool.and_eq_true, Bool.not_eq_true', List.contains_eq_mem,
    decide_eq_false_iff_not, nameOk_iff] at h
  simp only [List.mem_append, List.mem_cons, not_or]
  exact ⟨h.1.1.1.1, by decide, h.2⟩

theorem named_ne_tagged {n m t : List Char} (hn : (named n).wellFormed)
    (hm : (tagged m t).wellFormed) : n ≠ m ++ ':' :: t := by
  rintro rfl
  simp only [wellFormed, nameOk_iff] at hn
  simp only [wellFormed, Bool.and_eq_true, Bool.not_eq_true', List.contains_eq_mem,
    decide_eq_false_iff_not] at hm
  exact hn.2 (mem_lastComponent hm.1.2)

/-- Distinct well-formed references have distinct strings. -/
theorem string_injective {r s : Reference} (hr : r.wellFormed) (hs : s.wellFormed)
    (h : r.string = s.string) : r = s := by
  -- a `@` marks a digest, and a `:` in the last component a tag
  cases r with
  | named n =>
    cases s with
    | named m => rw [show n = m from h]
    | tagged m t => exact absurd h (named_ne_tagged hr hs)
    | canonical m d =>
      simp only [wellFormed, nameOk_iff] at hr
      have h : n = m ++ '@' :: d := h
      exact absurd (h ▸ List.mem_append_right m List.mem_cons_self) hr.1
  | tagged n t =>
    cases s with
    | named m => exact absurd h.symm (named_ne_tagged hs hr)
    | tagged m u =>
      simp only [wellFormed, Bool.and_eq_true, Bool.not_eq_true', List.contains_eq_mem,
        decide_eq_false_iff_not] at hr hs
      obtain ⟨rfl, rfl⟩ := (append_cons_eq_iff hr.1.1.2 hs.1.1.2).mp h
      rfl
    | canonical m d =>
      have h : n ++ ':' :: t = m ++ '@' :: d := h
      exact absurd (h ▸ List.mem_append_right m List.mem_cons_self) (at_not_mem_tagged hr)
  | canonical n d =>
    cases s with
    | named m =>
      simp only [wellFormed, nameOk_iff] at hs
      have h : n ++ '@' :: d = m := h
      exact absurd (h ▸ List.mem_append_right n List.mem_cons_self) hs.1
    | tagged m t =>
      have h : n ++ '@' :: d = m ++ ':' :: t := h
      exact absurd (h ▸ List.mem_append_right n List.mem_cons_self) (at_not_mem_tagged hs)
    | canonical m e =>
      simp only [wellFormed, Bool.and_eq_true, Bool.not_eq_true', List.contains_eq_mem,
        decide_eq_false_iff_not] at hr hs
      obtain ⟨rfl, rfl⟩ := (append_cons_eq_iff hr.2 hs.2).mp h
      rfl

end Reference

/-- A reference as the package hands it out: built through the grammar. -/
structure Named where
  ref : Reference
  wellFormed : ref.wellFormed
  deriving DecidableEq

/-- A reference that carries a digest (`Canonical`). -/
def Canonical := { r : Named // r.ref.digest?.isSome }

namespace Named

def name (r : Named) : List Char := r.ref.name

def string (r : Named) : List Char := r.ref.string

def withDefaultTag (r : Named) : Named :=
  ⟨r.ref.withDefaultTag, Reference.wellFormed_withDefaultTag r.wellFormed⟩

theorem string_injective {r s : Named} (h : r.string = s.string) : r = s := by
  obtain ⟨r, hr⟩ := r
  obtain ⟨s, hs⟩ := s
  obtain rfl := Reference.string_injective hr hs h
  rfl

theorem withDefaultTag_of_not_isNameOnly {r : Named} (h : r.ref.isNameOnly = false) :
    r.withDefaultTag = r := by
  obtain ⟨r, hr⟩ := r
  simp only [withDefaultTag, Reference.withDefaultTag, h, Bool.false_eq_true, if_false]

theorem isNameOnly_withDefaultTag (r : Named) : r.withDefaultTag.ref.isNameOnly = false := by
  obtain ⟨r, hr⟩ := r
  cases r <;> rfl

end Named

/-! ## 2. The store and its calls -/

abbrev ImageID := List Char

structure Store where
  repositories : NMap (List Char) (List Char) ImageID
  referencesByIDCache : NMap ImageID (List Char) Named

-- `NewReferenceStore` over a file that does not exist yet
def newReferenceStore : Store := ⟨∅, ∅⟩

inductive StoreError where
  | doesNotExist
  | tagWithDigest
  | ambiguousName
  | cannotOverwriteDigest (digest : List Char)
  | conflict (ref oldID : List Char)
  deriving DecidableEq, Repr

def StoreError.message : StoreError → List Char
  | .doesNotExist => "reference does not exist".toList
  | .tagWithDigest => "refusing to create a tag with a digest reference".toList
  | .ambiguousName => "refusing to create an ambiguous tag using digest algorithm as name".toList
  | .cannotOverwriteDigest d => "Cannot overwrite digest ".toList ++ d
  | .conflict r o =>
    "Conflict: Tag ".toList ++ r ++ " is already set to image ".toList ++ o ++
      ", if you want to replace it, please use -f option".toList

-- `digest.Canonical`
def digestCanonical : List Char := "sha256".toList

/-- The writes `addReference` makes once its checks pass: `repository[refStr] = id` (the inner
map `ensure` gave back, stored under the name) and `referencesByIDCache[id][refStr] = ref`. -/
def Store.putReference (s : Store) (repository : AList (fun _ : List Char => ImageID))
    (ref : Named) (id : ImageID) : Store :=
  { repositories := s.repositories.insert ref.name (repository.insert ref.string id)
    referencesByIDCache := set s.referencesByIDCache id ref.string ref }

def Store.addReference (s : Store) (ref : Named) (id : ImageID) (force : Bool) :
    Except StoreError Unit × Store :=
  if ref.name = digestCanonical then (.error .ambiguousName, s) else
  -- a missing repository is made and stored before the checks below
  let repository := (ensure s.repositories ref.name).1
  let s := { s with repositories := (ensure s.repositories ref.name).2 }
  match repository.lookup ref.string with
  | some oldID =>
    match ref.ref.digest? with
    | some d => (.error (.cannotOverwriteDigest d), s)
    | none =>
      if !force then (.error (.conflict ref.string oldID), s) else
      (.ok (), Store.putReference
        { s with referencesByIDCache := remove s.referencesByIDCache oldID ref.string }
        repository ref id)
  | none => (.ok (), s.putReference repository ref id)

def Store.addTag (s : Store) (ref : Named) (id : ImageID) (force : Bool) :
    Except StoreError Unit × Store :=
  match ref.ref.digest? with
  | some _ => (.error .tagWithDigest, s)
  | none => s.addReference ref.withDefaultTag id force

def Store.addDigest (s : Store) (ref : Canonical) (id : ImageID) (force : Bool) :
    Except StoreError Unit × Store :=
  s.addReference ref.1 id force

def Store.delete (s : Store) (ref : Named) : Except StoreError Bool × Store :=
  let ref := ref.withDefaultTag
  match s.repositories.lookup ref.name with
  | none => (.error .doesNotExist, s)
  | some repository =>
    match repository.lookup ref.string with
    | some id =>
      (.ok true, { repositories := remove s.repositories ref.name ref.string
                   referencesByIDCache := remove s.referencesByIDCache id ref.string })
    | none => (.error .doesNotExist, s)

def Store.get (s : Store) (ref : Named) : Except StoreError ImageID :=
  let ref := ref.withDefaultTag
  match s.repositories.lookup ref.name with
  | none => .error .doesNotExist
  | some repository =>
    match repository.lookup ref.string with
    | some id => .ok id
    | none => .error .doesNotExist

-- `sort.Sort(lexicalRefs(references))`: the strings of one image's references are distinct keys
def Store.references (s : Store) (id : ImageID) : List Named :=
  ((s.referencesByIDCache.lookup id).getD ∅).values.insertionSort
    fun a b => decide (a.string ≤ b.string)

inductive StoreOp where
  | addTag (ref : Named) (id : ImageID) (force : Bool)
  | addDigest (ref : Canonical) (id : ImageID) (force : Bool)
  | delete (ref : Named)

def Store.step (s : Store) : StoreOp → Store
  | .addTag ref id force => (s.addTag ref id force).2
  | .addDigest ref id force => (s.addDigest ref id force).2
  | .delete ref => (s.delete ref).2

def Store.run (s : Store) (ops : List StoreOp) : Store :=
  ops.foldl Store.step s

-- whether the call returns no error
def Store.stepOk (s : Store) : StoreOp → Bool
  | .addTag ref id force => (s.addTag ref id force).1.isOk
  | .addDigest ref id force => (s.addDigest ref id force).1.isOk
  | .delete ref => (s.delete ref).1.isOk

/-! ## 3. What each call does -/

/-- The cache once the entry of the image `name`/`refStr` was stored at is deleted. -/
def Store.uncache (s : Store) (name refStr : List Char) : NMap ImageID (List Char) Named :=
  (find s.repositories name refStr).elim s.referencesByIDCache
    fun oldID => remove s.referencesByIDCache oldID refStr

/-- A successful `addReference`: the reference stored, and cached at its new image only. -/
def Store.setReference (s : Store) (ref : Named) (id : ImageID) : Store :=
  ⟨set s.repositories ref.name ref.string id, set (s.uncache ref.name ref.string) id ref.string ref⟩

/-- A successful `Delete`: the reference taken out of its repository and of its image's cache. -/
def Store.removeReference (s : Store) (ref : Named) (id : ImageID) : Store :=
  ⟨remove s.repositories ref.name ref.string, remove s.referencesByIDCache id ref.string⟩

variable {s : Store} {ref r : Named} {id id' : ImageID} {force : Bool} {k : List Char}

theorem find_uncache (s : Store) (name refStr : List Char) (id : ImageID) (k : List Char) :
    find (s.uncache name refStr) id k =
      if find s.repositories name refStr = some id ∧ k = refStr then none
      else find s.referencesByIDCache id k := by
  unfold Store.uncache
  cases hf : find s.repositories name refStr with
  | none => simp
  | some oldID =>
    rw [Option.elim_some, find_remove]
    simp only [Option.some.injEq, eq_comm]

/-- Every call of `addReference` either fails and leaves the store as it was, or succeeds and
sets the reference. -/
theorem addReference_cases (s : Store) (ref : Named) (id : ImageID) (force : Bool) :
    ((s.addReference ref id force).1.isOk = false ∧ (s.addReference ref id force).2 = s) ∨
      ((s.addReference ref id force).1 = .ok () ∧
        (s.addReference ref id force).2 = s.setReference ref id) := by
  have hset := insert_ensure s.repositories ref.name ref.string id
  by_cases hname : ref.name = digestCanonical
  · left
    simp only [Store.addReference, if_pos hname]
    decide
  · cases hl : (ensure s.repositories ref.name).1.lookup ref.string with
    | none =>
      right
      have hnone := (lookup_ensure_fst s.repositories ref.name ref.string).symm.trans hl
      simp only [Store.addReference, if_neg hname, hl, Store.putReference, Store.setReference,
        Store.uncache, hset, hnone, Option.elim_none, and_self]
    | some oldID =>
      -- the repository held `ref.String()` already, so `ensure` stored nothing
      have hkeep := ensure_snd_of_lookup_fst hl
      have hold := (lookup_ensure_fst s.repositories ref.name ref.string).symm.trans hl
      cases hd : ref.ref.digest? with
      | some d =>
        left
        simp only [Store.addReference, if_neg hname, hl, hd, hkeep]
        exact ⟨rfl, trivial⟩
      | none =>
        cases force
        · left
          simp only [Store.addReference, if_neg hname, hl, hd, hkeep, Bool.not_false, if_true]
          exact ⟨rfl, trivial⟩
        · right
          simp only [Store.addReference, if_neg hname, hl, hd, Bool.not_true, Bool.false_eq_true,
            if_false, Store.putReference, Store.setReference, Store.uncache, hset, hold,
            Option.elim_some, and_self]

theorem addReference_error (h : (s.addReference ref id force).1.isOk = false) :
    (s.addReference ref id force).2 = s := by
  rcases addReference_cases s ref id force with ⟨-, hs⟩ | ⟨hok, -⟩
  · exact hs
  · rw [hok] at h
    cases h

theorem addReference_ok (h : (s.addReference ref id force).1.isOk) :
    (s.addReference ref id force).2 = s.setReference ref id := by
  rcases addReference_cases s ref id force with ⟨hfail, -⟩ | ⟨-, hs⟩
  · rw [hfail] at h
    cases h
  · exact hs

/-- When `addReference` succeeds: the name is not `sha256`, and the reference string is new or a
tag overwritten with `force`. -/
theorem addReference_isOk_iff :
    (s.addReference ref id force).1.isOk ↔ ref.name ≠ digestCanonical ∧
      (find s.repositories ref.name ref.string = none ∨ (ref.ref.digest? = none ∧ force)) := by
  by_cases hname : ref.name = digestCanonical
  · simp [Store.addReference, hname, Except.isOk, Except.toBool]
  · rw [← lookup_ensure_fst]
    cases hl : (ensure s.repositories ref.name).1.lookup ref.string with
    | none => simp [Store.addReference, hname, hl, Except.isOk, Except.toBool]
    | some oldID =>
      cases hd : ref.ref.digest? with
      | some d => simp [Store.addReference, hname, hl, hd, Except.isOk, Except.toBool]
      | none => cases force <;> simp [Store.addReference, hname, hl, hd, Except.isOk, Except.toBool]

theorem addTag_error (h : (s.addTag ref id force).1.isOk = false) : (s.addTag ref id force).2 = s := by
  cases hd : ref.ref.digest? with
  | some d => simp only [Store.addTag, hd]
  | none =>
    simp only [Store.addTag, hd] at h ⊢
    exact addReference_error h

theorem addTag_ok (h : (s.addTag ref id force).1.isOk) :
    ref.ref.digest? = none ∧ (s.addTag ref id force).2 = s.setReference ref.withDefaultTag id := by
  cases hd : ref.ref.digest? with
  | some d =>
    simp only [Store.addTag, hd] at h
    cases h
  | none =>
    refine ⟨rfl, ?_⟩
    simp only [Store.addTag, hd] at h ⊢
    exact addReference_ok h

theorem delete_error (h : (s.delete ref).1.isOk = false) : (s.delete ref).2 = s := by
  cases hrepo : s.repositories.lookup ref.withDefaultTag.name with
  | none => simp only [Store.delete, hrepo]
  | some repository =>
    cases hid : repository.lookup ref.withDefaultTag.string with
    | none => simp only [Store.delete, hrepo, hid]
    | some id =>
      simp only [Store.delete, hrepo, hid] at h
      cases h

theorem delete_ok (h : (s.delete ref).1.isOk) :
    ∃ id, find s.repositories ref.withDefaultTag.name ref.withDefaultTag.string = some id ∧
      (s.delete ref).2 = s.removeReference ref.withDefaultTag id := by
  cases hrepo : s.repositories.lookup ref.withDefaultTag.name with
  | none =>
    simp only [Store.delete, hrepo] at h
    cases h
  | some repository =>
    cases hid : repository.lookup ref.withDefaultTag.string with
    | none =>
      simp only [Store.delete, hrepo, hid] at h
      cases h
    | some id =>
      refine ⟨id, by rw [find_of_lookup hrepo, hid], ?_⟩
      simp only [Store.delete, hrepo, hid, Store.removeReference]

/-- A refused call changes neither map. -/
theorem step_of_not_stepOk {op : StoreOp} (h : s.stepOk op = false) : s.step op = s := by
  cases op with
  | addTag ref id force => exact addTag_error h
  | addDigest ref id force => exact addReference_error h
  | delete ref => exact delete_error h

theorem get_eq_ok_iff :
    s.get ref = .ok id ↔
      find s.repositories ref.withDefaultTag.name ref.withDefaultTag.string = some id := by
  unfold Store.get
  dsimp only
  split <;> rename_i hrepo
  · simp [find_eq_none_of_lookup hrepo]
  · rw [find_of_lookup hrepo]
    split <;> rename_i hid <;> simp [hid]

theorem mem_references_iff : r ∈ s.references id ↔ ∃ k, find s.referencesByIDCache id k = some r := by
  rw [Store.references, (List.perm_insertionSort _ _).mem_iff, AList.mem_values]
  cases hid : s.referencesByIDCache.lookup id with
  | none => simp [find_eq_none_of_lookup hid]
  | some m => simp only [Option.getD_some, find_of_lookup hid]

/-! ## 4. The cache is the reverse of the repositories -/

/-- The invariant of every reachable store: each cached reference is stored under its own string
at that image, each stored string is cached at its image, and no repository is empty. -/
structure Store.Consistent (s : Store) : Prop where
  cached : ∀ id k r, find s.referencesByIDCache id k = some r →
    r.string = k ∧ r.ref.isNameOnly = false ∧ find s.repositories r.name k = some id
  stored : ∀ name k id, find s.repositories name k = some id →
    ∃ r, r.name = name ∧ find s.referencesByIDCache id k = some r
  noEmpty : NoEmpty s.repositories

theorem consistent_newReferenceStore : newReferenceStore.Consistent where
  cached _ _ _ h := by
    rw [newReferenceStore, find_eq_none_of_lookup (AList.lookup_empty _)] at h
    cases h
  stored _ _ _ h := by
    rw [newReferenceStore, find_eq_none_of_lookup (AList.lookup_empty _)] at h
    cases h
  noEmpty := noEmpty_empty

/-- A cached reference is the reference with that string. -/
theorem Store.Consistent.eq_of_find (hc : s.Consistent)
    (h : find s.referencesByIDCache id k = some r) (hk : k = ref.string) : r = ref :=
  Named.string_injective ((hc.cached id k r h).1.trans hk)

theorem Store.Consistent.setReference (hc : s.Consistent) (hr : ref.ref.isNameOnly = false) :
    (s.setReference ref id).Consistent where
  cached id' k' r' h := by
    simp only [Store.setReference, find_set, find_uncache] at h ⊢
    split_ifs at h with hnew hold
    · obtain ⟨rfl, rfl⟩ := hnew
      cases h
      exact ⟨rfl, hr, by rw [if_pos ⟨rfl, rfl⟩]⟩
    · obtain ⟨hk, hn, hfind⟩ := hc.cached id' k' r' h
      refine ⟨hk, hn, ?_⟩
      -- the string `ref` overwrote was cached at its old image, which `uncache` dropped
      rw [if_neg fun hsame : r'.name = ref.name ∧ k' = ref.string =>
        hold ⟨hsame.1 ▸ hsame.2 ▸ hfind, hsame.2⟩, hfind]
  stored n' k' id'' h := by
    simp only [Store.setReference, find_set, find_uncache] at h ⊢
    split_ifs at h with hnew
    · obtain ⟨rfl, rfl⟩ := hnew
      cases h
      exact ⟨ref, rfl, by rw [if_pos ⟨rfl, rfl⟩]⟩
    · obtain ⟨r', hname, hfind⟩ := hc.stored n' k' id'' h
      refine ⟨r', hname, ?_⟩
      -- a cached reference at `ref`'s string would be `ref`, in `ref`'s repository
      have hother : k' = ref.string → n' = ref.name := fun hk =>
        hname ▸ congrArg Named.name (hc.eq_of_find hfind hk)
      rw [if_neg fun hsame => hnew ⟨hother hsame.2, hsame.2⟩,
        if_neg fun hsame => hnew ⟨hother hsame.2, hsame.2⟩, hfind]
  noEmpty := hc.noEmpty.set _ _ _

theorem Store.Consistent.removeReference (hc : s.Consistent)
    (hid : find s.repositories ref.name ref.string = some id) :
    (s.removeReference ref id).Consistent where
  cached id' k' r' h := by
    simp only [Store.removeReference, find_remove] at h ⊢
    split_ifs at h with hgone
    obtain ⟨hk, hn, hfind⟩ := hc.cached id' k' r' h
    refine ⟨hk, hn, ?_⟩
    -- the removed string was stored at `id`, and this cache entry is at another image
    rw [if_neg fun hsame => hgone ⟨by
      rw [hsame.1, hsame.2, hid] at hfind
      exact (Option.some.inj hfind).symm, hsame.2⟩, hfind]
  stored n' k' id'' h := by
    simp only [Store.removeReference, find_remove] at h ⊢
    split_ifs at h with hgone
    obtain ⟨r', hname, hfind⟩ := hc.stored n' k' id'' h
    refine ⟨r', hname, ?_⟩
    rw [if_neg fun hsame => hgone ⟨hname ▸ congrArg Named.name (hc.eq_of_find hfind hsame.2),
      hsame.2⟩, hfind]
  noEmpty := hc.noEmpty.remove _ _

theorem Store.Consistent.step (hc : s.Consistent) (op : StoreOp) : (s.step op).Consistent := by
  cases hok : s.stepOk op
  · rw [step_of_not_stepOk hok]
    exact hc
  · cases op with
    | addTag ref id force =>
      obtain ⟨-, hstep⟩ := addTag_ok hok
      rw [Store.step, hstep]
      exact hc.setReference (Named.isNameOnly_withDefaultTag ref)
    | addDigest ref id force =>
      rw [Store.step, Store.addDigest, addReference_ok hok]
      -- a canonical reference is not name-only
      obtain ⟨⟨_ | _ | _, _⟩, hcanon⟩ := ref
      · cases hcanon
      · cases hcanon
      · exact hc.setReference rfl
    | delete ref =>
      obtain ⟨id, hid, hstep⟩ := delete_ok hok
      rw [Store.step, hstep]
      exact hc.removeReference hid

theorem consistent_run (ops : List StoreOp) (hc : s.Consistent) : (s.run ops).Consistent := by
  induction ops generalizing s with
  | nil => exact hc
  | cons op ops ih => exact ih (hc.step op)

/-! ## 5. `References` and `Get` agree, up to the default tag -/

theorem Store.Consistent.mem_references_iff (hc : s.Consistent) :
    r ∈ s.references id ↔ r.ref.isNameOnly = false ∧ s.get r = .ok id := by
  rw [Docker.Reference.mem_references_iff]
  constructor
  · rintro ⟨k, hfind⟩
    obtain ⟨rfl, hn, hstored⟩ := hc.cached id k r hfind
    rw [get_eq_ok_iff, Named.withDefaultTag_of_not_isNameOnly hn]
    exact ⟨hn, hstored⟩
  · rintro ⟨hn, hget⟩
    rw [get_eq_ok_iff, Named.withDefaultTag_of_not_isNameOnly hn] at hget
    obtain ⟨r', -, hfind⟩ := hc.stored r.name r.string id hget
    exact ⟨r.string, hc.eq_of_find hfind rfl ▸ hfind⟩

theorem get_withDefaultTag (s : Store) (r : Named) : s.get r.withDefaultTag = s.get r := by
  rw [Store.get, Store.get, Named.withDefaultTag_of_not_isNameOnly (Named.isNameOnly_withDefaultTag r)]

theorem reference_store_consistent (ops : List StoreOp) :
    (∀ id r, r ∈ (newReferenceStore.run ops).references id ↔
      r.ref.isNameOnly = false ∧ (newReferenceStore.run ops).get r = .ok id) ∧
    (∀ id r, (newReferenceStore.run ops).get r = .ok id ↔
      r.withDefaultTag ∈ (newReferenceStore.run ops).references id) ∧
    NoEmpty (newReferenceStore.run ops).repositories ∧
    ∀ op, (newReferenceStore.run ops).stepOk op = false →
      (newReferenceStore.run ops).step op = newReferenceStore.run ops := by
  have hc := consistent_run ops consistent_newReferenceStore
  refine ⟨fun id r => hc.mem_references_iff, fun id r => ?_, hc.noEmpty,
    fun op => step_of_not_stepOk⟩
  rw [hc.mem_references_iff, get_withDefaultTag]
  exact ⟨fun h => ⟨Named.isNameOnly_withDefaultTag r, h⟩, fun h => h.2⟩

theorem get_name_only_not_in_references :
    (newReferenceStore.run [.addTag ⟨.named "foo".toList, by decide⟩ "sha256:1".toList false]).get
        ⟨.named "foo".toList, by decide⟩ = .ok "sha256:1".toList ∧
      (⟨.named "foo".toList, by decide⟩ : Named) ∉
        (newReferenceStore.run
          [.addTag ⟨.named "foo".toList, by decide⟩ "sha256:1".toList false]).references
          "sha256:1".toList := by
  decide

end Docker.Reference
