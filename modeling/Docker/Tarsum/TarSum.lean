import Mathlib
import Docker.Reasoning.GoSort
import Docker.Reasoning.Hex
import Docker.Reasoning.LexPath

/-!
# TarSum — `pkg/tarsum`

`tarSum.Read` passes a tar archive through and hashes each entry on the way: the headers its
version selects, then the body.  When `tar.Reader` reports the end of an entry, the hash becomes a
`fileInfoSum` (cleaned name, hex sum, position) and is reset.  `Sum` sorts these sums with
`bySum.Less` and hashes them in that order.

The model follows the hashing side of `Read`.  The tar stream that `Read` writes back out, through
`tar.Writer` and gzip, is left out.  A hash is the function from what was written to it since its
last `Reset` to its digest.

However the archive is read, the sums are those of its entries in order (`sums_of_finished`),
and reads of at least one byte finish it (`finished_runReads`).  Permuting the entries permutes the
sums (`perm_nameSums_sum`).  With pairwise distinct names the checksum stays the same
(`sum_eq_of_perm_of_nodup`).  Once a name occurs twice, `bySum.Less` orders the entries of that name
by position and every other pair by sum.  That is no strict weak order, and insertion sort then
leaves the order of the input visible in the checksum.
-/

namespace Docker.Tarsum

open Reasoning Hex GoSort LexPath

/-! ## 1. Headers and versions -/

/-- The fields of a `tar.Header` that the header selectors read. -/
structure Header where
  name : List Char
  mode : Int
  uid : Int
  gid : Int
  size : Int
  -- `ModTime.UTC().Unix()`
  modTime : Int
  typeflag : UInt8
  linkname : List Char
  uname : List Char
  gname : List Char
  devmajor : Int
  devminor : Int
  xattrs : AList (fun _ : List Char => List Char)

inductive Version where
  | version0
  | version1
  | versionDev
  deriving DecidableEq, Repr

/-- `Version.String`, from `tarSumVersions`. -/
def Version.string : Version → List Char
  | .version0 => "tarsum".toList
  | .version1 => "tarsum.v1".toList
  | .versionDev => "tarsum.dev".toList

/-- `strconv.FormatInt(n, 10)`. -/
def formatInt (n : Int) : List Char :=
  (toString n).toList

/-- `v0TarHeaderSelect`: each header's name and value, the value as the bytes of its string. -/
def v0TarHeaderSelect (h : Header) : List (List Char × List UInt8) :=
  [("name".toList, utf8 h.name),
   ("mode".toList, utf8 (formatInt h.mode)),
   ("uid".toList, utf8 (formatInt h.uid)),
   ("gid".toList, utf8 (formatInt h.gid)),
   ("size".toList, utf8 (formatInt h.size)),
   ("mtime".toList, utf8 (formatInt h.modTime)),
   ("typeflag".toList, [h.typeflag]),
   ("linkname".toList, utf8 h.linkname),
   ("uname".toList, utf8 h.uname),
   ("gname".toList, utf8 h.gname),
   ("devmajor".toList, utf8 (formatInt h.devmajor)),
   ("devminor".toList, utf8 (formatInt h.devminor))]

/-- `v1TarHeaderSelect`: the v0 headers but `mtime`, then the extended attributes by key.
`xAttrKeys` is made with `len(h.Xattrs)` empty strings before the keys are appended, and
`sort.Strings` puts those first. -/
def v1TarHeaderSelect (h : Header) : List (List Char × List UInt8) :=
  let xAttrKeys := insertionSort (fun a b => decide (a < b))
    (List.replicate h.xattrs.keys.length [] ++ h.xattrs.keys)
  let v0headers := v0TarHeaderSelect h
  v0headers.take 5 ++ v0headers.drop 6 ++
    xAttrKeys.map fun k => (k, utf8 ((h.xattrs.lookup k).getD []))

/-- `registeredHeaderSelectors`. -/
def Version.selectHeaders : Version → Header → List (List Char × List UInt8)
  | .version0 => v0TarHeaderSelect
  | .version1 | .versionDev => v1TarHeaderSelect

/-- `encodeHeader`: what the hash is given for a header, `elem[0] + elem[1]` for each element. -/
def encodeHeader (v : Version) (h : Header) : List UInt8 :=
  (v.selectHeaders h).flatMap fun elem => utf8 elem.1 ++ elem.2

/-- A `THash`: its name, and the digest of its `hash.Hash` as a function of what was written to
it since its last `Reset`. -/
structure THash where
  name : List Char
  digest : List UInt8 → List UInt8

/-! ## 2. The archive and `Read` -/

/-- An entry of the archive: the header `tar.Reader.Next` returns, and the body it then reads. -/
structure Entry where
  header : Header
  body : List UInt8

/-- What `tar.Reader` has left: the unread body of the current entry (`none` before the first
`Next`), and the entries after it. -/
structure TarReader where
  curr : Option (List UInt8)
  rest : List Entry

/-- `tr.Read(b)` with `len(b) = space`: up to `space` bytes of the current entry, or `io.EOF`
(`true`) at its end and before the first `Next`. -/
def TarReader.read (space : Nat) (tr : TarReader) : List UInt8 × Bool × TarReader :=
  match tr.curr with
  | none | some [] => ([], true, tr)
  | some body => (body.take space, false, { tr with curr := some (body.drop space) })

/-- `tr.Next()`: the next header, or `io.EOF` (`none`). -/
def TarReader.next (tr : TarReader) : Option (Header × TarReader) :=
  match tr.rest with
  | [] => none
  | e :: es => some (e.header, ⟨some e.body, es⟩)

structure FileInfoSum where
  name : List Char
  sum : List Char
  pos : Nat
  deriving DecidableEq, Repr

/-- The fields of `tarSum` that hashing reads and writes; `h` is what was written to `ts.h` since
its last `Reset`. -/
structure TarSum where
  tarR : TarReader
  h : List UInt8
  tHash : THash
  sums : List FileInfoSum
  fileCounter : Nat
  currentFile : List Char
  finished : Bool
  first : Bool
  tarSumVersion : Version

/-- `NewTarSumHash` with `initTarSum`. -/
def newTarSumHash (entries : List Entry) (v : Version) (tHash : THash) : TarSum :=
  { tarR := ⟨none, entries⟩, h := [], tHash, sums := [], fileCounter := 0, currentFile := [],
    finished := false, first := true, tarSumVersion := v }

/-- The first half of the `io.EOF` branch of `Read`: the last bytes go to the hash, whose sum is
kept unless no entry was open yet. -/
def TarSum.keepSum (ts : TarSum) (n : List UInt8) : TarSum :=
  if !ts.first then
    { ts with
      sums := ts.sums ++ [⟨ts.currentFile, encodeToString (ts.tHash.digest (ts.h ++ n)),
        ts.fileCounter⟩]
      fileCounter := ts.fileCounter + 1
      h := [] }
  else { ts with h := ts.h ++ n, first := false }

/-- The second half: `Next`, whose header is hashed, or the end of the archive. -/
def TarSum.nextEntry (ts : TarSum) (tarR : TarReader) : TarSum :=
  match tarR.next with
  | none => { ts with tarR, finished := true }
  | some (hdr, tarR) =>
    { ts with tarR, currentFile := clean hdr.name, h := ts.h ++ encodeHeader ts.tarSumVersion hdr }

/-- `Read(buf)` with `len(buf) = space`, on the hashing side.  Once finished it only drains the
output buffer. -/
def TarSum.read (ts : TarSum) (space : Nat) : TarSum :=
  if ts.finished then ts else
  match ts.tarR.read space with
  | (n, true, tarR) => (ts.keepSum n).nextEntry tarR
  | (n, false, tarR) => { ts with tarR, h := ts.h ++ n }

/-- `Read` called with buffers of the given sizes, one after the other. -/
def TarSum.runReads (ts : TarSum) (sizes : List Nat) : TarSum :=
  sizes.foldl TarSum.read ts

/-! ## 3. `Sum` -/

def getDuplicatePathsFrom (seen : List (List Char)) : List FileInfoSum → List FileInfoSum
  | [] => []
  | f :: fs =>
    if seen.contains f.name then f :: getDuplicatePathsFrom seen fs
    else getDuplicatePathsFrom (f.name :: seen) fs

/-- `GetDuplicatePaths`: every entry whose name an earlier entry has. -/
def getDuplicatePaths (fis : List FileInfoSum) : List FileInfoSum :=
  getDuplicatePathsFrom [] fis

/-- `bySum.Less`. -/
def bySumLess (dups : List FileInfoSum) (a b : FileInfoSum) : Bool :=
  if !dups.isEmpty && a.name == b.name then decide (a.pos < b.pos) else decide (a.sum < b.sum)

/-- `SortBySums`, with `sort.Sort` as insertion sort. -/
def sortBySums (fis : List FileInfoSum) : List FileInfoSum :=
  insertionSort (bySumLess (getDuplicatePaths fis)) fis

/-- `Sum(extra)`: the checksum, and the state with its sums sorted in place. -/
def TarSum.sum (ts : TarSum) (extra : List UInt8) : List Char × TarSum :=
  let sums := sortBySums ts.sums
  let input := extra ++ (sums.map fun fis => utf8 fis.sum).flatten
  (ts.tarSumVersion.string ++ '+' :: ts.tHash.name ++ ':' :: encodeToString (ts.tHash.digest input),
    { ts with sums })

/-! ## 4. What `Read` computes -/

/-- The sum `Read` keeps for an entry: the digest of its selected headers, then its body. -/
def fileSum (tHash : THash) (v : Version) (e : Entry) : List Char :=
  encodeToString (tHash.digest (encodeHeader v e.header ++ e.body))

/-- The sums `Read` keeps for the entries `es`, the first at position `k`. -/
def fileInfoSums (tHash : THash) (v : Version) : List Entry → Nat → List FileInfoSum
  | [], _ => []
  | e :: es, k => ⟨clean e.header.name, fileSum tHash v e, k⟩ :: fileInfoSums tHash v es (k + 1)

/-- `Read` inside the entry `e`: `pre` of its body read and hashed after its header, `rem` still
to read, the entries `done` before it summed and `rest` after it. -/
def atEntry (tHash : THash) (v : Version) (done : List Entry) (e : Entry) (pre rem : List UInt8)
    (rest : List Entry) : TarSum :=
  { tarR := ⟨some rem, rest⟩, h := encodeHeader v e.header ++ pre, tHash,
    sums := fileInfoSums tHash v done 0, fileCounter := done.length,
    currentFile := clean e.header.name, finished := false, first := false, tarSumVersion := v }

/-- Where `Read` stands in the archive `all`: before the first entry, inside one, or at the end
with every sum kept. -/
inductive Reading (tHash : THash) (v : Version) (all : List Entry) : TarSum → Prop
  | start : Reading tHash v all (newTarSumHash all v tHash)
  | entry (done : List Entry) (e : Entry) (pre rem : List UInt8) (rest : List Entry) :
      all = done ++ e :: rest → e.body = pre ++ rem →
      Reading tHash v all (atEntry tHash v done e pre rem rest)
  | finished (ts : TarSum) : ts.finished = true → ts.sums = fileInfoSums tHash v all 0 →
      ts.tHash = tHash → ts.tarSumVersion = v → Reading tHash v all ts

section Reading

variable {tHash : THash} {v : Version} {all : List Entry}

theorem fileInfoSums_append_singleton (tHash : THash) (v : Version) (es : List Entry) (e : Entry)
    (k : Nat) : fileInfoSums tHash v (es ++ [e]) k =
      fileInfoSums tHash v es k ++ [⟨clean e.header.name, fileSum tHash v e, k + es.length⟩] := by
  induction es generalizing k with
  | nil => rfl
  | cons e' es ih =>
    have hk : k + 1 + es.length = k + (es.length + 1) := by omega
    rw [List.cons_append, fileInfoSums, fileInfoSums, ih, List.length_cons, hk, List.cons_append]

theorem read_of_finished {ts : TarSum} (h : ts.finished = true) (space : Nat) :
    ts.read space = ts := by
  rw [TarSum.read, if_pos h]

/-- After the sums of `done` are kept, `Next` opens the entry after them or ends the archive. -/
theorem reading_nextEntry (done rest : List Entry) (hall : all = done ++ rest) (tarR₀ : TarReader)
    (cf : List Char) (c : Option (List UInt8)) :
    Reading tHash v all
      ((⟨tarR₀, [], tHash, fileInfoSums tHash v done 0, done.length, cf, false, false, v⟩ :
        TarSum).nextEntry ⟨c, rest⟩) := by
  cases rest with
  | nil =>
    rw [List.append_nil] at hall
    subst hall
    exact .finished _ rfl rfl rfl rfl
  | cons e rest =>
    have h : (⟨tarR₀, [], tHash, fileInfoSums tHash v done 0, done.length, cf, false, false, v⟩ :
        TarSum).nextEntry ⟨c, e :: rest⟩ = atEntry tHash v done e [] e.body rest := by
      rw [atEntry, List.append_nil]
      rfl
    rw [h]
    exact .entry done e [] e.body rest hall rfl

/-- The step lemma: every `Read` keeps its place in the archive. -/
theorem Reading.read {ts : TarSum} (hts : Reading tHash v all ts) (space : Nat) :
    Reading tHash v all (ts.read space) := by
  cases hts with
  | start =>
    -- the first `Read` meets `io.EOF` before any entry is open
    exact reading_nextEntry [] all rfl ⟨none, all⟩ [] none
  | entry done e pre rem rest hall hbody =>
    cases rem with
    | nil =>
      -- the end of `e`: its sum is kept at position `done.length`
      have hsums : fileInfoSums tHash v done 0 ++ [⟨clean e.header.name,
          encodeToString (tHash.digest (encodeHeader v e.header ++ pre ++ [])), done.length⟩] =
          fileInfoSums tHash v (done ++ [e]) 0 := by
        rw [fileInfoSums_append_singleton, Nat.zero_add, fileSum, hbody, List.append_nil,
          List.append_nil]
      have hkeep : (atEntry tHash v done e pre [] rest).keepSum [] =
          ⟨⟨some [], rest⟩, [], tHash, fileInfoSums tHash v (done ++ [e]) 0, (done ++ [e]).length,
            clean e.header.name, false, false, v⟩ := by
        rw [← hsums, List.length_append]
        rfl
      have hread : (atEntry tHash v done e pre [] rest).read space =
          ((atEntry tHash v done e pre [] rest).keepSum []).nextEntry ⟨some [], rest⟩ := rfl
      rw [hread, hkeep]
      exact reading_nextEntry (done ++ [e]) rest (by rw [hall, List.append_assoc]; rfl) _ _ _
    | cons b bs =>
      -- inside `e`: the bytes read go to the hash
      have hread : (atEntry tHash v done e pre (b :: bs) rest).read space =
          atEntry tHash v done e (pre ++ (b :: bs).take space) ((b :: bs).drop space) rest := by
        unfold atEntry
        rw [← List.append_assoc]
        rfl
      rw [hread]
      exact .entry done e _ _ rest hall (by rw [hbody, List.append_assoc, List.take_append_drop])
  | finished ts hf hs hh hv =>
    rw [read_of_finished hf]
    exact .finished ts hf hs hh hv

/-- The run lemma. -/
theorem Reading.runReads {ts : TarSum} (hts : Reading tHash v all ts) (sizes : List Nat) :
    Reading tHash v all (ts.runReads sizes) := by
  induction sizes generalizing ts with
  | nil => exact hts
  | cons k ks ih => exact ih (hts.read k)

theorem Reading.of_finished {ts : TarSum} (hts : Reading tHash v all ts) (hf : ts.finished = true) :
    ts.sums = fileInfoSums tHash v all 0 ∧ ts.tHash = tHash ∧ ts.tarSumVersion = v := by
  cases hts with
  | start => cases hf
  | entry => cases hf
  | finished _ _ hs hh hv => exact ⟨hs, hh, hv⟩

end Reading

/-- However the archive is read, once `Read` has met its end the sums are those of its entries,
in order. -/
theorem sums_of_finished (all : List Entry) (v : Version) (tHash : THash) (sizes : List Nat)
    (hf : ((newTarSumHash all v tHash).runReads sizes).finished = true) :
    ((newTarSumHash all v tHash).runReads sizes).sums = fileInfoSums tHash v all 0 ∧
      ((newTarSumHash all v tHash).runReads sizes).tHash = tHash ∧
      ((newTarSumHash all v tHash).runReads sizes).tarSumVersion = v :=
  (Reading.start.runReads sizes).of_finished hf

/-! ## 5. Reading finishes -/

/-- A bound on the `Read` calls still needed: one for each byte left, and one `io.EOF` for each
entry left and for the end of the archive. -/
def TarSum.work (ts : TarSum) : Nat :=
  if ts.finished then 0
  else (ts.tarR.curr.getD []).length + (ts.tarR.rest.map fun e => e.body.length + 1).sum + 1

theorem keepSum_finished (ts : TarSum) (n : List UInt8) : (ts.keepSum n).finished = ts.finished := by
  unfold TarSum.keepSum
  split <;> rfl

theorem work_nextEntry {ts : TarSum} (hf : ts.finished = false) (c : Option (List UInt8))
    (rest : List Entry) :
    (ts.nextEntry ⟨c, rest⟩).work < (rest.map fun e => e.body.length + 1).sum + 1 := by
  cases rest with
  | nil => simp [TarSum.nextEntry, TarReader.next, TarSum.work]
  | cons e es =>
    simp only [TarSum.nextEntry, TarReader.next, TarSum.work, hf, Option.getD_some, List.map_cons,
      List.sum_cons, Bool.false_eq_true, if_false]
    omega

theorem work_read {ts : TarSum} (hf : ts.finished = false) {space : Nat} (hk : 0 < space) :
    (ts.read space).work < ts.work := by
  have hwork : ts.work =
      (ts.tarR.curr.getD []).length + (ts.tarR.rest.map fun e => e.body.length + 1).sum + 1 := by
    rw [TarSum.work, hf, if_neg Bool.false_ne_true]
  have hnext : ((ts.keepSum []).nextEntry ts.tarR).work <
      (ts.tarR.rest.map fun e => e.body.length + 1).sum + 1 :=
    work_nextEntry (by rw [keepSum_finished, hf]) ts.tarR.curr ts.tarR.rest
  rw [hwork]
  -- `io.EOF` moves on to the next entry; otherwise at least one byte is read
  rcases hc : ts.tarR.curr with _ | _ | ⟨b, bs⟩
  · have hread : ts.read space = (ts.keepSum []).nextEntry ts.tarR := by
      simp only [TarSum.read, hf, TarReader.read, hc, Bool.false_eq_true, if_false]
    rw [hread, Option.getD_none, List.length_nil, Nat.zero_add]
    exact hnext
  · have hread : ts.read space = (ts.keepSum []).nextEntry ts.tarR := by
      simp only [TarSum.read, hf, TarReader.read, hc, Bool.false_eq_true, if_false]
    rw [hread, Option.getD_some, List.length_nil, Nat.zero_add]
    exact hnext
  · have hread : ts.read space = { ts with
        tarR := ⟨some ((b :: bs).drop space), ts.tarR.rest⟩, h := ts.h ++ (b :: bs).take space } := by
      simp only [TarSum.read, hf, TarReader.read, hc, Bool.false_eq_true, if_false]
    rw [hread]
    simp only [TarSum.work, hf, Bool.false_eq_true, if_false, Option.getD_some, List.length_drop,
      List.length_cons]
    omega

theorem runReads_of_finished {ts : TarSum} (hf : ts.finished = true) (sizes : List Nat) :
    ts.runReads sizes = ts := by
  induction sizes with
  | nil => rfl
  | cons k ks ih =>
    change (ts.read k).runReads ks = ts
    rw [read_of_finished hf, ih]

/-- Reads of at least one byte, as many as the bound, finish the archive. -/
theorem finished_runReads {ts : TarSum} {sizes : List Nat} (hpos : ∀ k ∈ sizes, 0 < k)
    (hwork : ts.work ≤ sizes.length) : (ts.runReads sizes).finished = true := by
  induction sizes generalizing ts with
  | nil =>
    cases hf : ts.finished
    · simp [TarSum.work, hf] at hwork
    · exact hf
  | cons k ks ih =>
    cases hf : ts.finished
    · have hlt := work_read hf (hpos k List.mem_cons_self)
      rw [List.length_cons] at hwork
      exact ih (fun k' hk' => hpos k' (List.mem_cons_of_mem k hk')) (by omega)
    · rw [runReads_of_finished hf]
      exact hf

theorem work_newTarSumHash (all : List Entry) (v : Version) (tHash : THash) :
    (newTarSumHash all v tHash).work = (all.map fun e => e.body.length + 1).sum + 1 := by
  simp [TarSum.work, newTarSumHash]

/-- The sums do not depend on how the archive is cut into reads: every sequence of reads of at
least one byte that is long enough gives the sums of the entries in order. -/
theorem sums_runReads (all : List Entry) (v : Version) (tHash : THash) {sizes : List Nat}
    (hpos : ∀ k ∈ sizes, 0 < k)
    (hlen : (all.map fun e => e.body.length + 1).sum + 1 ≤ sizes.length) :
    ((newTarSumHash all v tHash).runReads sizes).sums = fileInfoSums tHash v all 0 :=
  (sums_of_finished all v tHash sizes
    (finished_runReads hpos ((work_newTarSumHash all v tHash).trans_le hlen))).1

/-! ## 6. `Sum` over a permutation of the archive -/

section Sum

variable {tHash : THash} {v : Version}

theorem map_fileInfoSums (es : List Entry) (k : Nat) :
    (fileInfoSums tHash v es k).map (fun f => (f.name, f.sum)) =
      es.map fun e => (clean e.header.name, fileSum tHash v e) := by
  induction es generalizing k with
  | nil => rfl
  | cons e es ih => rw [fileInfoSums, List.map_cons, ih, List.map_cons]

theorem map_name_fileInfoSums (es : List Entry) (k : Nat) :
    (fileInfoSums tHash v es k).map FileInfoSum.name = es.map fun e => clean e.header.name := by
  have h := congrArg (List.map Prod.fst) (@map_fileInfoSums tHash v es k)
  simpa only [List.map_map, Function.comp_def] using h

theorem map_sum_fileInfoSums (es : List Entry) (k : Nat) :
    (fileInfoSums tHash v es k).map FileInfoSum.sum = es.map (fileSum tHash v) := by
  have h := congrArg (List.map Prod.snd) (@map_fileInfoSums tHash v es k)
  simpa only [List.map_map, Function.comp_def] using h

theorem sum_fst (ts : TarSum) (extra : List UInt8) :
    (ts.sum extra).1 = ts.tarSumVersion.string ++ '+' :: ts.tHash.name ++ ':' ::
      encodeToString (ts.tHash.digest
        (extra ++ ((sortBySums ts.sums).map fun fis => utf8 fis.sum).flatten)) := rfl

theorem sums_sum (ts : TarSum) (extra : List UInt8) :
    (ts.sum extra).2.sums = sortBySums ts.sums := rfl

/-- A permutation of the archive has the same sums name for name, before `Sum` sorts them and
after. -/
theorem perm_nameSums_sum {T T' : List Entry} (hperm : T.Perm T') {sizes sizes' : List Nat}
    (hf : ((newTarSumHash T v tHash).runReads sizes).finished = true)
    (hf' : ((newTarSumHash T' v tHash).runReads sizes').finished = true)
    (extra extra' : List UInt8) :
    ((((newTarSumHash T v tHash).runReads sizes).sum extra).2.sums.map
      fun f => (f.name, f.sum)).Perm
      ((((newTarSumHash T' v tHash).runReads sizes').sum extra').2.sums.map
        fun f => (f.name, f.sum)) := by
  rw [sums_sum, sums_sum, (sums_of_finished T v tHash sizes hf).1,
    (sums_of_finished T' v tHash sizes' hf').1]
  refine (((perm_insertionSort _ _).map _).trans ?_).trans ((perm_insertionSort _ _).map _).symm
  rw [map_fileInfoSums, map_fileInfoSums]
  exact hperm.map _

theorem getDuplicatePathsFrom_eq_nil {seen : List (List Char)} {fis : List FileInfoSum}
    (hnd : (fis.map FileInfoSum.name).Nodup) (hseen : ∀ f ∈ fis, f.name ∉ seen) :
    getDuplicatePathsFrom seen fis = [] := by
  induction fis generalizing seen with
  | nil => rfl
  | cons f fs ih =>
    rw [List.map_cons, List.nodup_cons] at hnd
    have hnew : seen.contains f.name = false := by simpa using hseen f List.mem_cons_self
    rw [getDuplicatePathsFrom, hnew, if_neg Bool.false_ne_true]
    refine ih hnd.2 fun g hg hmem => ?_
    rcases List.mem_cons.mp hmem with heq | hmem
    · exact hnd.1 (heq ▸ List.mem_map_of_mem hg)
    · exact hseen g (List.mem_cons_of_mem f hg) hmem

theorem bySumLess_nil (a b : FileInfoSum) : bySumLess [] a b = true ↔ a.sum < b.sum := by
  simp [bySumLess]

/-- With no name twice, `SortBySums` orders by sum alone. -/
theorem sortBySums_of_nodup {fis : List FileInfoSum} (hnd : (fis.map FileInfoSum.name).Nodup) :
    sortBySums fis = insertionSort (bySumLess []) fis := by
  rw [sortBySums, getDuplicatePaths, getDuplicatePathsFrom_eq_nil hnd fun _ _ h => by cases h]

/-- With pairwise distinct names, the checksum does not depend on the order of the entries. -/
theorem sum_eq_of_perm_of_nodup {T T' : List Entry} (hperm : T.Perm T')
    (hnd : (T.map fun e => clean e.header.name).Nodup) {sizes sizes' : List Nat}
    (hf : ((newTarSumHash T v tHash).runReads sizes).finished = true)
    (hf' : ((newTarSumHash T' v tHash).runReads sizes').finished = true) (extra : List UInt8) :
    (((newTarSumHash T v tHash).runReads sizes).sum extra).1 =
      (((newTarSumHash T' v tHash).runReads sizes').sum extra).1 := by
  obtain ⟨hs, hh, hv⟩ := sums_of_finished T v tHash sizes hf
  obtain ⟨hs', hh', hv'⟩ := sums_of_finished T' v tHash sizes' hf'
  have hnd' : (T'.map fun e => clean e.header.name).Nodup := (hperm.map _).nodup_iff.mp hnd
  -- the sorted sums are the same list, whatever order the entries had
  have hsorted : (sortBySums (fileInfoSums tHash v T 0)).map FileInfoSum.sum =
      (sortBySums (fileInfoSums tHash v T' 0)).map FileInfoSum.sum := by
    rw [sortBySums_of_nodup (by rw [map_name_fileInfoSums]; exact hnd),
      sortBySums_of_nodup (by rw [map_name_fileInfoSums]; exact hnd')]
    refine map_insertionSort_eq_of_perm _ FileInfoSum.sum bySumLess_nil ?_
    rw [map_sum_fileInfoSums, map_sum_fileInfoSums]
    exact hperm.map _
  have hinput : ∀ l : List FileInfoSum,
      l.map (fun fis => utf8 fis.sum) = (l.map FileInfoSum.sum).map utf8 := fun l => by
    rw [List.map_map]
    rfl
  rw [sum_fst, sum_fst, hs, hh, hv, hs', hh', hv', hinput, hinput, hsorted]

end Sum

/-! ## 7. A name twice -/

/-- A regular file (`TypeReg`, mode 0644) with its other header fields zero. -/
def regularFile (name : List Char) (body : List UInt8) : Entry :=
  ⟨⟨name, 0o644, 0, 0, body.length, 0, 48, [], [], [], 0, 0, ∅⟩, body⟩

/-- With an injective digest, equal checksums of one version and hash come from equal input. -/
theorem input_eq_of_checksum_eq {tHash : THash} (hinj : Function.Injective tHash.digest)
    {v : Version} {a b : List UInt8}
    (h : v.string ++ '+' :: tHash.name ++ ':' :: encodeToString (tHash.digest a) =
      v.string ++ '+' :: tHash.name ++ ':' :: encodeToString (tHash.digest b)) : a = b :=
  hinj (encodeToString_injective (List.cons.inj (List.append_cancel_left h)).2)

/-- Two entries `x` and `y` of one name, and `z` of another whose sum lies between theirs.  The
archive `x, y, z` and its permutation `z, x, y`, which keeps `x` before `y`, are both left as
they are by `SortBySums`: in each, no entry is `Less` than its left neighbour.  So their sums are
hashed in two orders, and with an injective digest of fixed size the checksums differ. -/
theorem sum_depends_on_entry_order (tHash : THash) (v : Version) (extra : List UInt8)
    (x y z : Entry) (hinj : Function.Injective tHash.digest)
    (hxy : clean y.header.name = clean x.header.name)
    (hxz : clean z.header.name ≠ clean x.header.name)
    (hlen : (tHash.digest (encodeHeader v z.header ++ z.body)).length =
      (tHash.digest (encodeHeader v x.header ++ x.body)).length)
    (hyz : fileSum tHash v y < fileSum tHash v z) (hzx : fileSum tHash v z < fileSum tHash v x)
    (sizes sizes' : List Nat)
    (hf : ((newTarSumHash [x, y, z] v tHash).runReads sizes).finished = true)
    (hf' : ((newTarSumHash [z, x, y] v tHash).runReads sizes').finished = true) :
    (((newTarSumHash [x, y, z] v tHash).runReads sizes).sum extra).1 ≠
      (((newTarSumHash [z, x, y] v tHash).runReads sizes').sum extra).1 := by
  obtain ⟨hs, hh, hv⟩ := sums_of_finished [x, y, z] v tHash sizes hf
  obtain ⟨hs', hh', hv'⟩ := sums_of_finished [z, x, y] v tHash sizes' hf'
  have hsort : sortBySums (fileInfoSums tHash v [x, y, z] 0) = fileInfoSums tHash v [x, y, z] 0 := by
    apply insertionSort_eq_self
    simp [fileInfoSums, bySumLess, getDuplicatePaths, getDuplicatePathsFrom, hxy, hyz.le]
  have hsort' : sortBySums (fileInfoSums tHash v [z, x, y] 0) = fileInfoSums tHash v [z, x, y] 0 := by
    apply insertionSort_eq_self
    simp [fileInfoSums, bySumLess, getDuplicatePaths, getDuplicatePathsFrom, hxy, Ne.symm hxz,
      hzx.le]
  rw [sum_fst, sum_fst, hs, hh, hv, hs', hh', hv', hsort, hsort']
  intro h
  -- the two inputs are `extra` and the sums in the orders `x y z` and `z x y`
  have hcat : utf8 (fileSum tHash v x) ++ (utf8 (fileSum tHash v y) ++ utf8 (fileSum tHash v z)) =
      utf8 (fileSum tHash v z) ++ (utf8 (fileSum tHash v x) ++ utf8 (fileSum tHash v y)) := by
    have hin := List.append_cancel_left (input_eq_of_checksum_eq hinj h)
    simpa only [fileInfoSums, List.map_cons, List.map_nil, List.flatten_cons, List.flatten_nil,
      List.append_nil] using hin
  have hlen' : (utf8 (fileSum tHash v x)).length = (utf8 (fileSum tHash v z)).length := by
    rw [fileSum, fileSum, length_utf8_encodeToString, length_utf8_encodeToString, hlen]
  have hsame : fileSum tHash v x = fileSum tHash v z := utf8_injective (List.append_inj hcat hlen').1
  rw [hsame] at hzx
  exact lt_irrefl _ hzx

/-- Two files `a` and one `b`, hashed by a digest that reverses its input. -/
theorem sum_depends_on_entry_order_aab :
    (((newTarSumHash [regularFile ['a'] [3], regularFile ['a'] [1], regularFile ['b'] [2]]
        .version0 ⟨['r'], List.reverse⟩).runReads (List.replicate 7 1)).sum []).1 ≠
      (((newTarSumHash [regularFile ['b'] [2], regularFile ['a'] [3], regularFile ['a'] [1]]
        .version0 ⟨['r'], List.reverse⟩).runReads (List.replicate 7 1)).sum []).1 :=
  sum_depends_on_entry_order ⟨['r'], List.reverse⟩ .version0 [] (regularFile ['a'] [3])
    (regularFile ['a'] [1]) (regularFile ['b'] [2]) List.reverse_injective rfl (by decide)
    (by decide +kernel) (by decide +kernel) (by decide +kernel) _ _ (by decide +kernel)
    (by decide +kernel)

/-! ## 8. What a header gives the per-file hash -/

/-- The linkname element of the selected headers: the eighth for v0, and the seventh for v1,
which leaves `mtime` out. -/
theorem selectHeaders_linkname (v : Version) (h : Header) :
    (v.selectHeaders h)[if v = .version0 then 7 else 6]? =
      some ("linkname".toList, utf8 h.linkname) := by
  cases v <;> rfl

/-- `encodeHeader` writes each key and value with no separator, so text moved from the end of the
link name to the start of the user name gives the same bytes.  The two headers' selected lists
differ in their link names. -/
theorem encodeHeader_linkname_uname_collide (v : Version) (h : Header) :
    v.selectHeaders { h with linkname := h.linkname ++ "uname".toList } ≠
      v.selectHeaders { h with uname := "uname".toList ++ h.uname } ∧
    encodeHeader v { h with linkname := h.linkname ++ "uname".toList } =
      encodeHeader v { h with uname := "uname".toList ++ h.uname } := by
  constructor
  · intro heq
    have hl := congrArg (fun l => l[if v = .version0 then 7 else 6]?) heq
    simp only [selectHeaders_linkname, Option.some.injEq, Prod.mk.injEq, true_and,
      utf8_append] at hl
    -- the first link name is longer by the bytes of `uname`
    have hnil : utf8 "uname".toList = [] := List.append_right_eq_self.mp hl
    exact absurd hnil (by decide)
  · -- both sides unfold to the same bytes, the moved text standing between the two keys
    cases v <;>
      simp [encodeHeader, Version.selectHeaders, v0TarHeaderSelect, v1TarHeaderSelect, utf8]

/-- A link to `uname` owned by nobody, and a link to nothing owned by `uname`: different headers,
the same bytes. -/
theorem encodeHeader_collide_uname :
    Version.version1.selectHeaders { (regularFile ['a'] [1]).header with linkname := "uname".toList } ≠
      Version.version1.selectHeaders { (regularFile ['a'] [1]).header with uname := "uname".toList } ∧
    encodeHeader .version1 { (regularFile ['a'] [1]).header with linkname := "uname".toList } =
      encodeHeader .version1 { (regularFile ['a'] [1]).header with uname := "uname".toList } :=
  encodeHeader_linkname_uname_collide .version1 (regularFile ['a'] [1]).header

/-- Two headers whose selected lists have the same keys and differ in one value only give the
per-file hash different bytes: what stands before the value is the same, and so is what
follows it. -/
theorem encodeHeader_ne_of_one_value (v : Version) {h₁ h₂ : Header}
    {before after : List (List Char × List UInt8)} {key : List Char} {x y : List UInt8}
    (h₁s : v.selectHeaders h₁ = before ++ (key, x) :: after)
    (h₂s : v.selectHeaders h₂ = before ++ (key, y) :: after) (hxy : x ≠ y) :
    encodeHeader v h₁ ≠ encodeHeader v h₂ := by
  intro heq
  simp only [encodeHeader, h₁s, h₂s, List.flatMap_append, List.flatMap_cons,
    List.append_assoc] at heq
  -- cancel the elements before, then the key, then the elements after
  have hmid := List.append_cancel_left (List.append_cancel_left heq)
  exact hxy (List.append_cancel_right hmid)

/-- Two headers with one link name each, empty and `b`. -/
theorem encodeHeader_ne_of_linkname_b :
    Version.version1.selectHeaders (regularFile ['a'] [1]).header =
      (Version.version1.selectHeaders (regularFile ['a'] [1]).header).take 6 ++
        ("linkname".toList, []) :: (Version.version1.selectHeaders (regularFile ['a'] [1]).header).drop 7 ∧
    Version.version1.selectHeaders { (regularFile ['a'] [1]).header with linkname := ['b'] } =
      (Version.version1.selectHeaders (regularFile ['a'] [1]).header).take 6 ++
        ("linkname".toList, utf8 ['b']) ::
          (Version.version1.selectHeaders (regularFile ['a'] [1]).header).drop 7 ∧
    ([] : List UInt8) ≠ utf8 ['b'] ∧
    encodeHeader .version1 (regularFile ['a'] [1]).header ≠
      encodeHeader .version1 { (regularFile ['a'] [1]).header with linkname := ['b'] } := by
  refine ⟨?a, ?b, ?c, encodeHeader_ne_of_one_value .version1 ?a ?b ?c⟩
  all_goals decide

end Docker.Tarsum
