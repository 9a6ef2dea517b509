import Mathlib.Data.Finset.Card
import Mathlib.Data.List.Infix

/-!
# TruncIndex — ids by their unique prefixes

`pkg/truncindex/truncindex.go`.  The index keeps every id twice, in the map `ids` and in a
`patricia.Trie`.  `Get(s)` walks the trie's keys under `s` with `subTreeVisitFunc`, which keeps
the first key it sees and stops at the second with `ErrAmbiguousPrefix`.  A Go `string` is kept as
its characters.

The trie is vendored code that the model does not translate: it is a parameter, a state type with
the calls `TruncIndex` makes (`NewTrie`, `Insert`, `Delete`, and `VisitSubtree` as the keys it
visits in its order), and `PatriciaTrie.Spec` states what the index relies on.
-/

namespace Docker.Truncindex

/-- The errors of the package; the last three are the `fmt.Errorf` ones. -/
inductive TruncError where
  | emptyPrefix
  | illegalChar
  | notExist
  | ambiguousPrefix (pfx : List Char)
  | alreadyExists (id : List Char)
  | failedInsert (id : List Char)
  | noSuchId (id : List Char)
  deriving DecidableEq, Repr

/-- `err.Error()`. -/
def TruncError.error : TruncError → String
  | .emptyPrefix => "Prefix can't be empty"
  | .illegalChar => "illegal character: ' '"
  | .notExist => "ID does not exist"
  | .ambiguousPrefix pfx => "Multiple IDs found with provided prefix: " ++ String.ofList pfx
  | .alreadyExists id => "id already exists: '" ++ String.ofList id ++ "'"
  | .failedInsert id => "failed to insert id: " ++ String.ofList id
  | .noSuchId id => "no such id: '" ++ String.ofList id ++ "'"

/-- The calls `TruncIndex` makes on its `*patricia.Trie`: `NewTrie`, `Insert` and `Delete` with
their `bool` results, and the keys `VisitSubtree(prefix, visitor)` hands to the visitor, in the
order it does. -/
structure PatriciaTrie (τ : Type) where
  newTrie : τ
  insert : τ → List Char → τ × Bool
  delete : τ → List Char → τ × Bool
  visitSubtree : τ → List Char → List (List Char)

/-- What the index relies on of the trie: it holds a set of keys `keys t`; `Insert` adds a key
and reports whether it was new; `Delete` of a stored key removes it and reports it; and
`VisitSubtree(s)` visits every stored key that has `s` as a prefix, each once.

`Delete` is asked for stored keys only, which is all `TruncIndex.Delete` asks for.  The vendored
`Delete` finds its node with `findSubtree` and does not look at whether the search found it: on a
key that is not stored, with a stored key `p` a prefix of it and no child to go on to, it clears
`p` and returns `true`. -/
structure PatriciaTrie.Spec {τ : Type} (trie : PatriciaTrie τ) (keys : τ → Finset (List Char)) :
    Prop where
  keys_newTrie : keys trie.newTrie = ∅
  keys_insert : ∀ t k, keys (trie.insert t k).1 = Insert.insert k (keys t)
  insert_inserted : ∀ t k, (trie.insert t k).2 = decide (k ∉ keys t)
  keys_delete : ∀ t k, k ∈ keys t → keys (trie.delete t k).1 = (keys t).erase k
  delete_deleted : ∀ t k, k ∈ keys t → (trie.delete t k).2 = true
  mem_visitSubtree : ∀ t s k, k ∈ trie.visitSubtree t s ↔ k ∈ keys t ∧ s <+: k
  nodup_visitSubtree : ∀ t s, (trie.visitSubtree t s).Nodup

/-- `TruncIndex`, without its lock. -/
structure TruncIndex (τ : Type) where
  trie : τ
  ids : Finset (List Char)

/-- `subTreeVisitFunc` on the key `pfx`, with the `id` it has captured so far. -/
def subTreeVisitFunc (id pfx : List Char) : List Char × Option TruncError :=
  if id ≠ [] then
    -- we haven't found the ID if there are two or more IDs
    ([], some (.ambiguousPrefix pfx))
  else (pfx, none)

/-- `VisitSubtree` handing the keys to a visitor with state `σ`, stopping at its first error. -/
def visitKeys {σ ε : Type} (visitor : σ → List Char → σ × Option ε) :
    σ → List (List Char) → σ × Option ε
  | st, [] => (st, none)
  | st, k :: ks =>
    match visitor st k with
    | (st, some e) => (st, some e)
    | (st, none) => visitKeys visitor st ks

section Calls

variable {τ : Type} (trie : PatriciaTrie τ)

/-- `idx.addID(id)`: the error it returns and the index it leaves. -/
def TruncIndex.addID (idx : TruncIndex τ) (id : List Char) :
    Except TruncError Unit × TruncIndex τ :=
  if ' ' ∈ id then (.error .illegalChar, idx)
  else if id = [] then (.error .emptyPrefix, idx)
  else if id ∈ idx.ids then (.error (.alreadyExists id), idx)
  else
    let idx := { idx with ids := insert id idx.ids }
    match trie.insert idx.trie id with
    | (t, false) => (.error (.failedInsert id), { idx with trie := t })
    | (t, true) => (.ok (), { idx with trie := t })

/-- `idx.Add(id)`. -/
def TruncIndex.add (idx : TruncIndex τ) (id : List Char) : Except TruncError Unit × TruncIndex τ :=
  idx.addID trie id

/-- `idx.Delete(id)`. -/
def TruncIndex.delete (idx : TruncIndex τ) (id : List Char) :
    Except TruncError Unit × TruncIndex τ :=
  if id ∉ idx.ids ∨ id = [] then (.error (.noSuchId id), idx)
  else
    let idx := { idx with ids := idx.ids.erase id }
    match trie.delete idx.trie id with
    | (t, false) => (.error (.noSuchId id), { idx with trie := t })
    | (t, true) => (.ok (), { idx with trie := t })

/-- `idx.Get(s)`. -/
def TruncIndex.get (idx : TruncIndex τ) (s : List Char) : Except TruncError (List Char) :=
  if s = [] then .error .emptyPrefix
  else
    match visitKeys subTreeVisitFunc [] (trie.visitSubtree idx.trie s) with
    | (_, some e) => .error e
    | (id, none) => if id ≠ [] then .ok id else .error .notExist

/-- `NewTruncIndex(ids)`: `addID` of each id, its errors dropped. -/
def newTruncIndex (ids : List (List Char)) : TruncIndex τ :=
  ids.foldl (fun idx id => (idx.addID trie id).2) { trie := trie.newTrie, ids := ∅ }

end Calls

/-- The calls that change the index. -/
inductive TruncOp where
  | add (id : List Char)
  | delete (id : List Char)

/-- One `Add` or `Delete` under the lock; `Get` and `Iterate` change nothing. -/
def TruncIndex.step {τ : Type} (trie : PatriciaTrie τ) (idx : TruncIndex τ) : TruncOp → TruncIndex τ
  | .add id => (idx.add trie id).2
  | .delete id => (idx.delete trie id).2

end Docker.Truncindex
