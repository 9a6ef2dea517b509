import Mathlib
import Docker.Reasoning.Reach

/-!
# MultiReader — `MultiReadSeeker` of `pkg/ioutils/multireader.go`

A `multiReadSeeker` reads its readers one after another, as if they were one.  It keeps a
position `pos` (a reader and an offset in it), but reads from each reader at that reader's own
position, so the readers' positions are part of its state.  The readers here are in-memory
`bytes.Reader`s, distinct from each other, and the reference is one `bytes.Reader` over the
concatenation of their contents.

Two paths lose the position.  `Seek(off, SEEK_CUR)` with `off ≠ 0` goes through
`getReaderForOffset`, whose loop assigns its own `rdr` and so always returns a nil reader: the
position becomes reader 0 at an offset computed from `getOffsetToReader` (which sums the size of
the reader asked about, not of the readers before it), and no reader is moved.  `Read(b)` copies
up to `cap(b)` bytes out of the readers but returns only `len(b)` of them.  Both make a later
`Read` differ from the reference (`multi_read_seeker_diverges`).  With `len(b) = cap(b)` and seeks
by `SEEK_SET`, `SEEK_END` or `SEEK_CUR` with offset 0 to a position inside the content, the multi
reader gives the same answers as the reference on every run (`multiReadSeeker_refines`).
-/

namespace Docker.Ioutils

open Reasoning.Reach

/-- `os.SEEK_SET`, `os.SEEK_CUR`, `os.SEEK_END`. -/
inductive Whence
  | seekSet
  | seekCur
  | seekEnd
  deriving DecidableEq, Repr

/-- A `bytes.Reader`: its content and its position, which a seek may put past the end. -/
structure BytesReader where
  s : List UInt8
  i : Nat
  deriving DecidableEq, Repr

namespace BytesReader

-- `bytes.NewReader(s)`
def new (s : List UInt8) : BytesReader := ⟨s, 0⟩

/-- `r.Read(b)` with `len(b) = n`. -/
def read (r : BytesReader) (n : Nat) : List UInt8 × BytesReader :=
  if r.s.length ≤ r.i then ([], r)
  else
    let b := (r.s.drop r.i).take n
    (b, { r with i := r.i + b.length })

/-- `r.Seek(offset, whence)`. -/
def seek (r : BytesReader) (offset : Int) (whence : Whence) : Except String (Int × BytesReader) :=
  let abs : Int := match whence with
    | .seekSet => offset
    | .seekCur => r.i + offset
    | .seekEnd => r.s.length + offset
  if abs < 0 then .error "bytes.Reader.Seek: negative position"
  else .ok (abs, { r with i := abs.toNat })

/-- The reader after a `Seek` whose results the caller drops. -/
def seekDropped (r : BytesReader) (offset : Int) (whence : Whence) : BytesReader :=
  match r.seek offset whence with
  | .ok (_, r) => r
  | .error _ => r

end BytesReader

/-- `io.CopyN(buf, rdr, n)` from a `bytes.Reader`: its next `n` bytes, or all it has left. -/
def copyN (rdr : BytesReader) (n : Nat) : List UInt8 × BytesReader :=
  let b := (rdr.s.drop rdr.i).take n
  (b, { rdr with i := rdr.i + b.length })

/-- `getReadSeekerSize(rdr)`: for a `bytes.Reader` its three seeks cannot fail, and the last puts
the position back. -/
def getReadSeekerSize (rdr : BytesReader) : Int := rdr.s.length

/-- `pos`. -/
structure Pos where
  idx : Nat
  offset : Int
  deriving DecidableEq, Repr

/-- `multiReadSeeker`.  Readers are named by their number, which is what `posIdx` maps each to. -/
structure MultiReadSeeker where
  readers : List BytesReader
  pos : Option Pos
  deriving DecidableEq, Repr

-- `MultiReadSeeker(readers...)` for two readers or more (one reader is returned as it is)
def multiReadSeeker (readers : List BytesReader) : MultiReadSeeker := ⟨readers, none⟩

/-- `r.posIdx[rdr]`: a nil reader is not in the map, which gives the zero value. -/
def posIdx (rdr : Option Nat) : Nat := rdr.getD 0

/-- The panic of `r.readers[i-1]` at `i = 0`. -/
def errIndexMinusOne : String := "index out of range [-1]"

/-- The panic of a method call on a nil `io.ReadSeeker`. -/
def errNilReader : String := "invalid memory address or nil pointer dereference"

/-- The error `Seek` ends with when no reader returned. -/
def errSeeking (whence : Nat) (offset : Int) : String :=
  s!"Error seeking for whence: {whence}, offset: {offset}"

namespace MultiReadSeeker

/-! ## 1. `Seek` -/

/-- The `SEEK_SET` loop of `Seek` from reader `i` on, with `tmpOffset` the size of the readers
before it and `last` the number of the last reader: the position it sets (`none` when the loop
ends without returning) and the readers it moved. -/
def seekSetLoop (offset : Int) (last : Nat) :
    Nat → Int → List BytesReader → Option (Except String Pos) × List BytesReader
  | _, _, [] => (none, [])
  | i, tmpOffset, rdr :: rest =>
    match rdr.seek 0 .seekEnd with
    | .error e => (some (.error e), rdr :: rest)
    | .ok (s, rdr) =>
      if offset > tmpOffset + s then
        if i = last then
          let rdrOffset := s + (offset - tmpOffset)
          match rdr.seek rdrOffset .seekSet with
          | .error e => (some (.error e), rdr :: rest)
          | .ok (_, rdr) => (some (.ok ⟨i, rdrOffset⟩), rdr :: rest)
        else
          let (res, rest) := seekSetLoop offset last (i + 1) (tmpOffset + s) rest
          (res, rdr :: rest)
      else
        let rdrOffset := offset - tmpOffset
        -- the reader found, and every one after it at 0
        let rdr := rdr.seekDropped rdrOffset .seekSet
        let rest := rest.map (·.seekDropped 0 .seekSet)
        if rdrOffset = s ∧ i ≠ last then (some (.ok ⟨i + 1, 0⟩), rdr :: rest)
        else (some (.ok ⟨i, rdrOffset⟩), rdr :: rest)

/-- `r.Seek(offset, os.SEEK_SET)`. -/
def seekSet (m : MultiReadSeeker) (offset : Int) : Except String Int × MultiReadSeeker :=
  let (res, readers) := seekSetLoop offset (m.readers.length - 1) 0 0 m.readers
  match res with
  | some (.ok p) => (.ok offset, ⟨readers, some p⟩)
  | some (.error e) => (.error e, ⟨readers, m.pos⟩)
  | none => (.error (errSeeking 0 offset), ⟨readers, m.pos⟩)

/-- The `SEEK_END` loop: every reader moved to its end, and the sum of their sizes. -/
def seekEndLoop : List BytesReader → Except String Int × List BytesReader
  | [] => (.ok 0, [])
  | rdr :: rest =>
    match rdr.seek 0 .seekEnd with
    | .error e => (.error e, rdr :: rest)
    | .ok (s, rdr) =>
      let (tmpOffset, rest) := seekEndLoop rest
      (tmpOffset.map (s + ·), rdr :: rest)

/-- The loop of `getCurOffset` over `r.readers[:r.pos.idx+1]` from reader `j` on. -/
def getCurOffsetLoop (p : Pos) : Nat → List BytesReader → Int
  | _, [] => 0
  | j, rdr :: rest =>
    if j = p.idx then p.offset else getReadSeekerSize rdr + getCurOffsetLoop p (j + 1) rest

-- `r.getCurOffset()`
def getCurOffset (m : MultiReadSeeker) (p : Pos) : Int :=
  getCurOffsetLoop p 0 (m.readers.take (p.idx + 1))

/-- The loop of `getOffsetToReader(rdr)` for reader `j`: it adds the size of `rdr` itself, `size`,
once for every reader before it. -/
def getOffsetToReaderLoop (size : Int) (j : Nat) : Nat → List BytesReader → Int
  | _, [] => 0
  | k, _ :: rest => if k = j then 0 else size + getOffsetToReaderLoop size j (k + 1) rest

-- `r.getOffsetToReader(r.readers[j])`
def getOffsetToReader (m : MultiReadSeeker) (j : Nat) : Int :=
  getOffsetToReaderLoop ((m.readers[j]?.map getReadSeekerSize).getD 0) j 0 m.readers

/-- The loop of `getReaderForOffset` from reader `i` on: the offset it computes.  The reader it
picks goes to the loop's own `rdr`, not to the one returned. -/
def getReaderForOffsetLoop (m : MultiReadSeeker) (offset : Int) :
    Nat → List BytesReader → Except String Int
  | _, [] => .ok 0
  | i, _ :: rest =>
    let offsetTo := getOffsetToReader m i
    if offsetTo > offset then
      if i = 0 then .error errIndexMinusOne else .ok (offsetTo - offset)
    else if i = m.readers.length - 1 then .ok (offsetTo + offset)
    else getReaderForOffsetLoop m offset (i + 1) rest

/-- `r.getReaderForOffset(offset)`: the reader, always nil, and the offset. -/
def getReaderForOffset (m : MultiReadSeeker) (offset : Int) : Except String (Option Nat × Int) :=
  (getReaderForOffsetLoop m offset 0 m.readers).map (fun o => (none, o))

/-- `r.Seek(offset, whence)`: what it returns, and the reader after it. -/
def seek (m : MultiReadSeeker) (offset : Int) : Whence → Except String Int × MultiReadSeeker
  | .seekSet => m.seekSet offset
  | .seekEnd =>
    match seekEndLoop m.readers with
    | (.error e, readers) => (.error e, { m with readers })
    | (.ok tmpOffset, readers) =>
      -- the result of the `SEEK_SET` is dropped
      (.ok (tmpOffset + offset), ({ m with readers } : MultiReadSeeker).seekSet (tmpOffset + offset) |>.2)
  | .seekCur =>
    match m.pos with
    | none => m.seekSet offset
    | some p =>
      if offset = 0 then (.ok (m.getCurOffset p), m)
      else
        let curOffset := m.getCurOffset p
        match m.getReaderForOffset (curOffset + offset) with
        | .error e => (.error e, m)
        | .ok (rdr, rdrOffset) =>
          (.ok (curOffset + offset), { m with pos := some ⟨posIdx rdr, rdrOffset⟩ })

/-! ## 2. `Read` -/

/-- The loop of `Read` from reader `j` on: `io.CopyN` from each reader until `cap(b)` bytes are
in.  The bytes, the readers, and the reader the loop ended at. -/
def readLoop (bCap : Nat) (j : Nat) :
    List BytesReader → List UInt8 × List BytesReader × Option (Nat × BytesReader)
  | [] => ([], [], none)
  | rdr :: rest =>
    let (bs, rdr) := copyN rdr bCap
    if bCap - bs.length = 0 then (bs, rdr :: rest, some (j, rdr))
    else
      let (bs', rest, last) := readLoop (bCap - bs.length) (j + 1) rest
      (bs ++ bs', rdr :: rest, some (last.getD (j, rdr)))

/-- `r.Read(b)` with `len(b) = len` and `cap(b) = cap`: the bytes `buf.Read(b)` copies into `b`. -/
def read (m : MultiReadSeeker) (len cap : Nat) : Except String (List UInt8) × MultiReadSeeker :=
  let p := m.pos.getD ⟨0, 0⟩
  let (buf, rest, last) := readLoop cap p.idx (m.readers.drop p.idx)
  let readers := m.readers.take p.idx ++ rest
  match last with
  | none => (.error errNilReader, ⟨readers, some p⟩)
  | some (j, rdr) =>
    match rdr.seek 0 .seekCur with
    | .error e => (.error e, ⟨readers, some p⟩)
    | .ok (rdrPos, _) => (.ok (buf.take len), ⟨readers, some ⟨j, rdrPos⟩⟩)

end MultiReadSeeker

/-! ## 3. Runs against the reference -/

/-- What a caller does. -/
inductive Op
  | read (len cap : Nat)
  | seek (offset : Int) (whence : Whence)
  deriving DecidableEq, Repr

/-- What a call returns: the bytes of a `Read`, the position of a `Seek`, or an error. -/
inductive Answer
  | bytes (b : List UInt8)
  | position (p : Int)
  | error (e : String)
  deriving DecidableEq, Repr

def MultiReadSeeker.step (m : MultiReadSeeker) : Op → Answer × MultiReadSeeker
  | .read len cap =>
    match m.read len cap with
    | (.ok b, m) => (.bytes b, m)
    | (.error e, m) => (.error e, m)
  | .seek offset whence =>
    match m.seek offset whence with
    | (.ok p, m) => (.position p, m)
    | (.error e, m) => (.error e, m)

def BytesReader.step (r : BytesReader) : Op → Answer × BytesReader
  | .read len _ => ((r.read len).1 |> .bytes, (r.read len).2)
  | .seek offset whence =>
    match r.seek offset whence with
    | .ok (p, r) => (.position p, r)
    | .error e => (.error e, r)

/-- Reading `"ab"` then `"cd"`: one byte, a seek one byte on, one byte; and a read into a slice
of length 1 and capacity 4, then one byte.  The multi reader answers `b` where the reference
answers `c`, and nothing where the reference answers `b`. -/
theorem multi_read_seeker_diverges :
    outputs MultiReadSeeker.step
        (multiReadSeeker [BytesReader.new [97, 98], BytesReader.new [99, 100]])
        [.read 1 1, .seek 1 .seekCur, .read 1 1] = [.bytes [97], .position 2, .bytes [98]] ∧
      outputs BytesReader.step (BytesReader.new [97, 98, 99, 100])
        [.read 1 1, .seek 1 .seekCur, .read 1 1] = [.bytes [97], .position 2, .bytes [99]] ∧
      outputs MultiReadSeeker.step
        (multiReadSeeker [BytesReader.new [97, 98], BytesReader.new [99, 100]])
        [.read 1 4, .read 1 1] = [.bytes [97], .bytes []] ∧
      outputs BytesReader.step (BytesReader.new [97, 98, 99, 100])
        [.read 1 4, .read 1 1] = [.bytes [97], .bytes [98]] := by
  decide

/-! ## 4. The loops, read as positions in the concatenation -/

namespace BytesReader

theorem read_eq (r : BytesReader) (n : Nat) :
    r.read n = ((r.s.drop r.i).take n, { r with i := r.i + ((r.s.drop r.i).take n).length }) := by
  unfold read
  split
  · rename_i h
    rw [List.drop_eq_nil_of_le h]
    simp
  · rfl

theorem seek_seekEnd_zero (r : BytesReader) :
    r.seek 0 .seekEnd = .ok (r.s.length, { r with i := r.s.length }) := by
  simp [seek]

theorem seek_seekSet {o : Int} (h : 0 ≤ o) (r : BytesReader) :
    r.seek o .seekSet = .ok (o, { r with i := o.toNat }) := by
  simp [seek, Int.not_lt.2 h]

theorem seekDropped_seekSet {o : Int} (h : 0 ≤ o) (r : BytesReader) :
    r.seekDropped o .seekSet = { r with i := o.toNat } := by
  simp [seekDropped, seek_seekSet h]

theorem seekDropped_zero_seekSet (r : BytesReader) : r.seekDropped 0 .seekSet = { r with i := 0 } := by
  simp [seekDropped, seek]

theorem seek_seekCur_zero (r : BytesReader) : r.seek 0 .seekCur = .ok (r.i, r) := by
  simp [seek]

end BytesReader

/-- The sizes of readers, summed. -/
def sizes (rs : List BytesReader) : Nat := (rs.map (·.s.length)).sum

@[simp] theorem sizes_nil : sizes [] = 0 := rfl

@[simp] theorem sizes_cons (r : BytesReader) (rs : List BytesReader) :
    sizes (r :: rs) = r.s.length + sizes rs := by
  simp [sizes]

@[simp] theorem sizes_append (rs rs' : List BytesReader) : sizes (rs ++ rs') = sizes rs + sizes rs' := by
  simp [sizes]

theorem length_flatten_contents (rs : List BytesReader) : (rs.map (·.s)).flatten.length = sizes rs := by
  induction rs with
  | nil => rfl
  | cons r rs ih => simp [ih]

/-- Readers standing at position `n` of their concatenation, as `p` says: the readers before
`p.idx` are passed, reader `p.idx` stands at `p.offset` inside its content, and every reader after
it is at 0. -/
def AtCursor (readers : List BytesReader) (p : Pos) (n : Nat) : Prop :=
  ∃ pre rd post, readers = pre ++ rd :: post ∧ p = ⟨pre.length, rd.i⟩ ∧ rd.i ≤ rd.s.length ∧
    (∀ q ∈ post, q.i = 0) ∧ n = sizes pre + rd.i

namespace MultiReadSeeker

/-- `Read`'s loop from a reader inside its content, with the readers after it at 0: it copies the
next `bCap` bytes of the concatenation and ends on a reader standing just after them. -/
theorem readLoop_spec : ∀ (post : List BytesReader) (bCap j : Nat) (rd : BytesReader)
    (buf : List UInt8) (rest : List BytesReader) (last : Option (Nat × BytesReader)),
    rd.i ≤ rd.s.length → (∀ q ∈ post, q.i = 0) →
    readLoop bCap j (rd :: post) = (buf, rest, last) →
    buf = (((rd :: post).map (·.s)).flatten.drop rd.i).take bCap ∧
    rest.map (·.s) = (rd :: post).map (·.s) ∧
    ∃ pre' rd' post', rest = pre' ++ rd' :: post' ∧ last = some (j + pre'.length, rd') ∧
      rd'.i ≤ rd'.s.length ∧ (∀ q ∈ post', q.i = 0) ∧ sizes pre' + rd'.i = rd.i + buf.length := by
  intro post
  induction post with
  | nil =>
    intro bCap j rd buf rest last hrd _ h
    -- the last reader: whether or not it gave all that was asked, the loop ends on it
    simp only [readLoop, copyN, List.append_nil, Option.getD_none, ite_self, Prod.mk.injEq] at h
    obtain ⟨rfl, rfl, rfl⟩ := h
    refine ⟨by simp, rfl, [], _, [], rfl, by simp, ?_, by simp, by simp⟩
    simp only [List.length_take, List.length_drop]
    omega
  | cons q post ih =>
    intro bCap j rd buf rest last hrd hpost h
    rw [readLoop] at h
    simp only [copyN] at h
    -- `bs`: what the first reader gives
    have hdrop : (((rd :: q :: post).map (·.s)).flatten.drop rd.i) =
        rd.s.drop rd.i ++ ((q :: post).map (·.s)).flatten := by
      simp only [List.map_cons, List.flatten_cons]
      exact List.drop_append_of_le_length hrd
    by_cases hc : bCap - ((rd.s.drop rd.i).take bCap).length = 0
    · -- it gave all `bCap` bytes: the loop stops at it
      simp only [hc, ↓reduceIte, Prod.mk.injEq] at h
      obtain ⟨rfl, rfl, rfl⟩ := h
      have hle : bCap ≤ (rd.s.drop rd.i).length := by
        simp only [List.length_take] at hc
        omega
      refine ⟨?_, rfl, [], _, q :: post, rfl, by simp, ?_, hpost, by simp⟩
      · rw [hdrop, List.take_append_of_le_length hle]
      · simp only [List.length_take, List.length_drop]
        omega
    · -- it gave all it had: the loop goes on with the next reader, which is at 0
      simp only [hc, ↓reduceIte] at h
      obtain ⟨⟨bs', rest', last'⟩, hrec⟩ : ∃ r, readLoop (bCap - ((rd.s.drop rd.i).take bCap).length)
          (j + 1) (q :: post) = r := ⟨_, rfl⟩
      rw [hrec] at h
      simp only [Prod.mk.injEq] at h
      obtain ⟨rfl, rfl, rfl⟩ := h
      have hq : q.i = 0 := hpost q List.mem_cons_self
      obtain ⟨hbuf, hcont, pre', rd', post', hrest, hlast, hrd', hpost', hsum⟩ :=
        ih _ _ q bs' rest' last' (by omega) (fun q' hq' => hpost q' (List.mem_cons_of_mem q hq')) hrec
      have hall : (rd.s.drop rd.i).take bCap = rd.s.drop rd.i := by
        apply List.take_of_length_le
        simp only [List.length_take] at hc
        omega
      refine ⟨?_, ?_, { rd with i := rd.i + ((rd.s.drop rd.i).take bCap).length } :: pre', rd',
        post', by rw [hrest]; rfl, ?_, hrd', hpost', ?_⟩
      · rw [hdrop, List.take_append, hbuf, hq, List.drop_zero, hall]
      · simp only [List.map_cons, List.cons.injEq, true_and]
        exact hcont
      · rw [hlast]
        simp only [Option.getD_some, List.length_cons]
        congr 2
        omega
      · have hbs : ((rd.s.drop rd.i).take bCap).length = rd.s.length - rd.i := by
          rw [hall, List.length_drop]
        simp only [sizes_cons, List.length_append, hbs]
        omega

/-- `Seek`'s `SEEK_SET` loop from reader `i` on, for an offset inside the readers left: it stands
them at that offset. -/
theorem seekSetLoop_spec (offset : Int) (last : Nat) :
    ∀ (rs : List BytesReader) (i : Nat) (tmpOffset : Int), rs ≠ [] →
    last + 1 = i + rs.length → tmpOffset ≤ offset → offset ≤ tmpOffset + sizes rs →
    ∃ p rs', seekSetLoop offset last i tmpOffset rs = (some (.ok p), rs') ∧
      rs'.map (·.s) = rs.map (·.s) ∧
      ∃ pre rd post, rs' = pre ++ rd :: post ∧ p = ⟨i + pre.length, rd.i⟩ ∧ rd.i ≤ rd.s.length ∧
        (∀ q ∈ post, q.i = 0) ∧ offset = tmpOffset + sizes pre + rd.i
  | [], _, _, h, _, _, _ => absurd rfl h
  | rdr :: rest, i, tmpOffset, _, hlast, hlo, hhi => by
    simp only [sizes_cons, List.length_cons] at hlast hhi
    push_cast at hhi
    rw [seekSetLoop, BytesReader.seek_seekEnd_zero]
    dsimp only
    by_cases hgt : offset > tmpOffset + rdr.s.length
    · -- past this reader: on to the next one, which exists
      have hrest : rest ≠ [] := by
        rintro rfl
        simp only [sizes_nil] at hhi
        omega
      have hi : i ≠ last := by
        intro h
        subst h
        cases rest with
        | nil => exact hrest rfl
        | cons _ _ => simp only [List.length_cons] at hlast; omega
      rw [if_pos hgt, if_neg hi]
      obtain ⟨p, rs', hloop, hcont, pre, rd, post, hrs, hp, hrd, hpost, hoff⟩ :=
        seekSetLoop_spec offset last rest (i + 1) (tmpOffset + rdr.s.length) hrest (by omega)
          (by omega) (by omega)
      rw [hloop]
      refine ⟨p, _, rfl, by simp [hcont], { rdr with i := rdr.s.length } :: pre, rd, post,
        by rw [hrs]; rfl, ?_, hrd, hpost, ?_⟩
      · rw [hp, List.length_cons]
        congr 1
        omega
      · rw [hoff, sizes_cons]
        push_cast
        omega
    · -- this reader: it stands at the offset, and every one after it at 0
      have h0 : 0 ≤ offset - tmpOffset := by omega
      rw [if_neg hgt]
      simp only [BytesReader.seekDropped_seekSet h0, BytesReader.seekDropped_zero_seekSet]
      have hfresh : ∀ q ∈ rest.map (fun q : BytesReader => { q with i := 0 }), q.i = 0 := by
        simp
      by_cases hend : offset - tmpOffset = rdr.s.length ∧ i ≠ last
      · -- at its very end: the position names the next reader, at 0
        rw [if_pos hend]
        obtain ⟨q, post, rfl⟩ : ∃ q post, rest = q :: post := by
          cases rest with
          | nil => exact absurd (by simp only [List.length_nil] at hlast; omega) hend.2
          | cons q post => exact ⟨q, post, rfl⟩
        refine ⟨_, _, rfl, by simp, [{ rdr with i := (offset - tmpOffset).toNat }],
          { q with i := 0 }, _, rfl, by simp, by simp, ?_, ?_⟩
        · intro q' hq'
          simp only [List.map_cons] at hfresh
          exact hfresh q' (List.mem_cons_of_mem _ hq')
        · simp only [sizes_cons, sizes_nil]
          omega
      · rw [if_neg hend]
        refine ⟨_, _, rfl, by simp, [], { rdr with i := (offset - tmpOffset).toNat }, _, rfl,
          by simp; omega, by simp; omega, hfresh, by simp; omega⟩

theorem seekEndLoop_eq : ∀ rs : List BytesReader,
    seekEndLoop rs = (.ok (sizes rs : Int), rs.map (fun r => { r with i := r.s.length }))
  | [] => rfl
  | r :: rs => by
    rw [seekEndLoop, BytesReader.seek_seekEnd_zero]
    dsimp only
    rw [seekEndLoop_eq rs]
    simp only [Except.map, sizes_cons, List.map_cons]
    push_cast
    rfl

theorem getCurOffsetLoop_eq (p : Pos) (rd : BytesReader) :
    ∀ (pre : List BytesReader) (j : Nat), j + pre.length = p.idx →
      getCurOffsetLoop p j (pre ++ [rd]) = sizes pre + p.offset
  | [], j, h => by
    simp only [List.length_nil, Nat.add_zero] at h
    simp [getCurOffsetLoop, h]
  | q :: pre, j, h => by
    simp only [List.length_cons] at h
    rw [List.cons_append, getCurOffsetLoop, if_neg (by omega),
      getCurOffsetLoop_eq p rd pre (j + 1) (by omega), getReadSeekerSize, sizes_cons]
    push_cast
    omega

/-- At a cursor, `getCurOffset` is the position in the concatenation. -/
theorem getCurOffset_of_atCursor {m : MultiReadSeeker} {p : Pos} {n : Nat}
    (h : AtCursor m.readers p n) : m.getCurOffset p = n := by
  obtain ⟨pre, rd, post, hrs, rfl, -, -, rfl⟩ := h
  rw [getCurOffset, hrs, List.take_length_add_append, List.take_succ_cons, List.take_zero,
    getCurOffsetLoop_eq _ rd pre 0 (by simp)]
  push_cast
  rfl

/-- `SEEK_SET` to an offset inside the content stands the readers at it. -/
theorem seekSet_atCursor {m : MultiReadSeeker} (hne : m.readers ≠ []) {o : Int} (h0 : 0 ≤ o)
    (hle : o ≤ sizes m.readers) :
    (m.seekSet o).1 = .ok o ∧ (m.seekSet o).2.readers.map (·.s) = m.readers.map (·.s) ∧
      AtCursor (m.seekSet o).2.readers ((m.seekSet o).2.pos.getD ⟨0, 0⟩) o.toNat := by
  have hlen : m.readers.length - 1 + 1 = 0 + m.readers.length := by
    have : m.readers.length ≠ 0 := fun h => hne (List.eq_nil_of_length_eq_zero h)
    omega
  obtain ⟨p, rs', hloop, hcont, pre, rd, post, hrs, hp, hrd, hpost, hoff⟩ :=
    seekSetLoop_spec o (m.readers.length - 1) m.readers 0 0 hne hlen (by omega) (by omega)
  simp only [seekSet, hloop, true_and]
  refine ⟨hcont, pre, rd, post, hrs, by simpa using hp, hrd, hpost, ?_⟩
  omega

end MultiReadSeeker

/-! ## 5. The multi reader refines the reference -/

/-- The calls the refinement holds for, judged at the reference: reads into a slice whose length
is its capacity, and seeks to a position inside the content by `SEEK_SET`, by `SEEK_END`, or by
`SEEK_CUR` with offset 0. -/
def Op.Supported (r : BytesReader) : Op → Bool
  | .read len cap => len == cap
  | .seek offset .seekSet => 0 ≤ offset && offset ≤ r.s.length
  | .seek offset .seekEnd => 0 ≤ r.s.length + offset && offset ≤ 0
  | .seek offset .seekCur => offset == 0

/-- The multi reader stands where the reference does, over the same content. -/
structure Sim (m : MultiReadSeeker) (r : BytesReader) : Prop where
  content : r.s = (m.readers.map (·.s)).flatten
  cursor : AtCursor m.readers (m.pos.getD ⟨0, 0⟩) r.i

theorem Sim.readers_ne_nil {m : MultiReadSeeker} {r : BytesReader} (h : Sim m r) :
    m.readers ≠ [] := by
  obtain ⟨pre, rd, post, hrs, -⟩ := h.cursor
  rw [hrs]
  simp

theorem Sim.size_eq {m : MultiReadSeeker} {r : BytesReader} (h : Sim m r) :
    r.s.length = sizes m.readers := by
  rw [h.content, length_flatten_contents]

theorem sim_init {contents : List (List UInt8)} (hk : contents ≠ []) :
    Sim (multiReadSeeker (contents.map BytesReader.new)) (BytesReader.new contents.flatten) := by
  obtain ⟨c, cs, rfl⟩ : ∃ c cs, contents = c :: cs := by
    cases contents with
    | nil => exact absurd rfl hk
    | cons c cs => exact ⟨c, cs, rfl⟩
  refine ⟨by simp [multiReadSeeker, BytesReader.new, Function.comp_def], [], BytesReader.new c,
    cs.map BytesReader.new, rfl, rfl, by simp [BytesReader.new], ?_, rfl⟩
  simp [BytesReader.new]

/-- A seek the contract allows stands both readers at the same place. -/
theorem sim_seekSet {m : MultiReadSeeker} {r : BytesReader} (h : Sim m r) {o : Int} (h0 : 0 ≤ o)
    (hle : o ≤ r.s.length) :
    (m.seekSet o).1 = .ok o ∧ Sim (m.seekSet o).2 { r with i := o.toNat } := by
  obtain ⟨hres, hcont, hcur⟩ := MultiReadSeeker.seekSet_atCursor h.readers_ne_nil h0 (h.size_eq ▸ hle)
  exact ⟨hres, ⟨by rw [hcont]; exact h.content, hcur⟩⟩

theorem sim_read {m : MultiReadSeeker} {r : BytesReader} (h : Sim m r) (len : Nat) :
    (m.step (.read len len)).1 = (r.step (.read len len)).1 ∧
      Sim (m.step (.read len len)).2 (r.step (.read len len)).2 := by
  obtain ⟨pre, rd, post, hrs, hp, hrd, hpost, hn⟩ := h.cursor
  obtain ⟨⟨buf, rest, last⟩, hloop⟩ :
      ∃ x, MultiReadSeeker.readLoop len pre.length (rd :: post) = x := ⟨_, rfl⟩
  obtain ⟨hbuf, hcont, pre', rd', post', hrest, hlast, hrd', hpost', hsum⟩ :=
    MultiReadSeeker.readLoop_spec post len pre.length rd buf rest last hrd hpost hloop
  -- the reference reads on from the same place in the same content
  have hdrop : r.s.drop r.i = ((rd :: post).map (·.s)).flatten.drop rd.i := by
    rw [h.content, hrs, hn, List.map_append, List.flatten_append,
      ← length_flatten_contents pre, List.drop_length_add_append]
  have hbuf_len : buf.take len = buf := List.take_of_length_le (by rw [hbuf]; exact List.length_take_le _ _)
  have hmulti : m.read len len = (.ok buf, ⟨pre ++ (pre' ++ rd' :: post'),
      some ⟨pre.length + pre'.length, rd'.i⟩⟩) := by
    rw [MultiReadSeeker.read, hp]
    dsimp only
    rw [hrs, List.drop_left' rfl, hloop]
    dsimp only
    rw [hlast]
    dsimp only
    rw [BytesReader.seek_seekCur_zero]
    dsimp only
    rw [List.take_left' rfl, hrest, hbuf_len]
  have href : (r.s.drop r.i).take len = buf := by rw [hdrop, hbuf]
  have hcontent : r.s = ((pre ++ (pre' ++ rd' :: post')).map (·.s)).flatten := by
    rw [h.content, hrs, ← hrest, List.map_append, List.map_append, hcont]
  simp only [MultiReadSeeker.step, hmulti, BytesReader.step, BytesReader.read_eq, href]
  refine ⟨trivial, hcontent, pre ++ pre', rd', post', by simp, by simp, hrd', hpost', ?_⟩
  rw [sizes_append, hn]
  dsimp only
  omega

theorem sim_seekEnd {m : MultiReadSeeker} {r : BytesReader} (h : Sim m r) {offset : Int}
    (h0 : 0 ≤ r.s.length + offset) (hle : offset ≤ 0) :
    (m.step (.seek offset .seekEnd)).1 = (r.step (.seek offset .seekEnd)).1 ∧
      Sim (m.step (.seek offset .seekEnd)).2 (r.step (.seek offset .seekEnd)).2 := by
  -- every reader goes to its end, then `SEEK_SET` stands them at the offset from the end
  let m' : MultiReadSeeker :=
    { m with readers := m.readers.map (fun r => { r with i := r.s.length }) }
  have hne : m'.readers ≠ [] := by simpa [m'] using h.readers_ne_nil
  have hsizes : sizes m'.readers = sizes m.readers := by simp [m', sizes, Function.comp_def]
  obtain ⟨-, hcont, hcur⟩ :=
    MultiReadSeeker.seekSet_atCursor hne h0 (by rw [hsizes, ← h.size_eq]; omega)
  have hseek : m.seek offset .seekEnd =
      (.ok (r.s.length + offset), (m'.seekSet (r.s.length + offset)).2) := by
    simp only [MultiReadSeeker.seek, MultiReadSeeker.seekEndLoop_eq, h.size_eq]
    rfl
  have href : r.seek offset .seekEnd =
      .ok (r.s.length + offset, { r with i := (r.s.length + offset).toNat }) := by
    simp [BytesReader.seek, Int.not_lt.2 h0]
  simp only [MultiReadSeeker.step, hseek, BytesReader.step, href]
  refine ⟨trivial, ⟨?_, hcur⟩⟩
  rw [hcont]
  simp [m', h.content, Function.comp_def]

theorem sim_seekCur_zero {m : MultiReadSeeker} {r : BytesReader} (h : Sim m r) :
    (m.step (.seek 0 .seekCur)).1 = (r.step (.seek 0 .seekCur)).1 ∧
      Sim (m.step (.seek 0 .seekCur)).2 (r.step (.seek 0 .seekCur)).2 := by
  have href : r.step (.seek 0 .seekCur) = (.position r.i, r) := by
    simp [BytesReader.step, BytesReader.seek_seekCur_zero]
  rw [href]
  cases hpos : m.pos with
  | none =>
    -- no position yet: a `SEEK_SET` to 0, where the reference stands
    have hi : r.i = 0 := by
      obtain ⟨pre, rd, post, -, hp, -, -, hn⟩ := h.cursor
      rw [hpos] at hp
      simp only [Option.getD_none, Pos.mk.injEq] at hp
      rw [hn, List.eq_nil_of_length_eq_zero hp.1.symm]
      simp only [sizes_nil]
      omega
    obtain ⟨hres, hs⟩ := sim_seekSet h (Int.le_refl 0) (by omega)
    have hseek : m.seek 0 .seekCur = (.ok 0, (m.seekSet 0).2) := by
      simp only [MultiReadSeeker.seek, hpos]
      exact Prod.ext hres rfl
    simp only [MultiReadSeeker.step, hseek, hi, Int.natCast_zero]
    refine ⟨trivial, ?_⟩
    have hr : ({ r with i := (0 : Int).toNat } : BytesReader) = r := by
      cases r
      simp only [BytesReader.mk.injEq, true_and]
      simpa using hi.symm
    rwa [hr] at hs
  | some p =>
    -- the position is read back from the readers passed and the offset in the current one
    have hcur : m.getCurOffset p = r.i :=
      MultiReadSeeker.getCurOffset_of_atCursor (by simpa [hpos] using h.cursor)
    have hseek : m.seek 0 .seekCur = (.ok (m.getCurOffset p), m) := by
      simp [MultiReadSeeker.seek, hpos]
    simp only [MultiReadSeeker.step, hseek, hcur]
    exact ⟨trivial, h⟩

/-- Every call the contract allows leaves the multi reader where the reference stands, with the
same answer. -/
theorem sim_step {m : MultiReadSeeker} {r : BytesReader} (h : Sim m r) {op : Op}
    (hop : op.Supported r = true) :
    (m.step op).1 = (r.step op).1 ∧ Sim (m.step op).2 (r.step op).2 := by
  cases op with
  | read len cap =>
    have hc : len = cap := by simpa [Op.Supported] using hop
    subst hc
    exact sim_read h len
  | seek offset whence =>
    cases whence with
    | seekSet =>
      simp only [Op.Supported, Bool.and_eq_true, decide_eq_true_eq] at hop
      obtain ⟨hres, hs⟩ := sim_seekSet h hop.1 hop.2
      have hseek : m.seek offset .seekSet = (.ok offset, (m.seekSet offset).2) :=
        Prod.ext hres rfl
      simp only [MultiReadSeeker.step, hseek, BytesReader.step, BytesReader.seek_seekSet hop.1]
      exact ⟨trivial, hs⟩
    | seekEnd =>
      simp only [Op.Supported, Bool.and_eq_true, decide_eq_true_eq] at hop
      exact sim_seekEnd h hop.1 hop.2
    | seekCur =>
      have h0 : offset = 0 := by simpa [Op.Supported] using hop
      subst h0
      exact sim_seekCur_zero h

/-- Over readers with contents `c₁ … cₖ` (`k ≥ 1`), every run of whole-slice reads and of seeks
inside the content by `SEEK_SET`, `SEEK_END` or `SEEK_CUR` 0 gets the answers one `bytes.Reader`
over `c₁ ++ … ++ cₖ` gives. -/
theorem multiReadSeeker_refines (contents : List (List UInt8)) (hk : contents ≠ [])
    (ops : List Op)
    (hops : Conforms (fun r op => (BytesReader.step r op).2) Op.Supported
      (BytesReader.new contents.flatten) ops = true) :
    outputs MultiReadSeeker.step (multiReadSeeker (contents.map BytesReader.new)) ops =
      outputs BytesReader.step (BytesReader.new contents.flatten) ops :=
  outputs_eq_of_simulation MultiReadSeeker.step BytesReader.step Sim Op.Supported
    (fun _ _ _ h hop => sim_step h hop) ops _ _ (sim_init hk) hops

example :
    outputs MultiReadSeeker.step (multiReadSeeker [BytesReader.new [97, 98], BytesReader.new [99, 100]])
      [.seek (-3) .seekEnd, .read 2 2, .seek 0 .seekCur, .read 4 4] =
      [.position 1, .bytes [98, 99], .position 3, .bytes [100]] := by
  decide

end Docker.Ioutils


