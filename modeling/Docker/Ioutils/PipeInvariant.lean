import Mathlib
import Docker.Ioutils.BytesPipe
import Docker.Reasoning.Reach

/-!
# PipeInvariant — `BytesPipe` is a lossless FIFO

Between critical sections the pipe keeps a shape (`PipeShape`): `bufLen` is the sum of the
buffers' `Len()`, every buffer but the last is full and holds unread bytes, and a buffer that has
been read from still holds some.  A waiting writer's last buffer is full.  The bytes the reads
returned, followed by the unread bytes of the buffers, are the bytes the writes put in.  Each
critical section of `Write` and `Read` keeps all of this (`writeLoop_spec`, `readLoop_spec`), so
every run of `step` from `NewBytesPipe()` does, and none of them indexes an empty `bp.buf`.
-/

namespace Docker.Ioutils

/-- The unread bytes of the pipe, front first. -/
def BytesPipe.contents (bp : BytesPipe) : List UInt8 :=
  bp.buf.flatMap FixedBuffer.unread

/-- What the pipe's code keeps of its buffers between critical sections. -/
structure PipeShape (bp : BytesPipe) : Prop where
  bufLen : bp.bufLen = (bp.buf.map FixedBuffer.len).sum
  full : ∀ b ∈ bp.buf.dropLast, b.buf.length = b.cap
  nonempty : ∀ b ∈ bp.buf.dropLast, 0 < b.len
  capPos : ∀ b ∈ bp.buf, 0 < b.cap
  readNonempty : ∀ b ∈ bp.buf, 0 < b.lastRead → 0 < b.len

/-- A waiting writer's last buffer is the one it filled. -/
def LastFull (bp : BytesPipe) : Prop :=
  ∀ b ∈ bp.buf.getLast?, b.buf.length = b.cap

/-- The writer's last buffer has room. -/
def LastRoom (bp : BytesPipe) : Prop :=
  ∀ b ∈ bp.buf.getLast?, b.buf.length < b.cap

/-! ## 1. Buffers -/

theorem FixedBuffer.len_pos_of_full {b : FixedBuffer} (hc : 0 < b.cap)
    (hr : 0 < b.lastRead → 0 < b.len) (hf : b.buf.length = b.cap) : 0 < b.len := by
  by_cases h0 : b.lastRead = 0
  · unfold FixedBuffer.len
    omega
  · exact hr (Nat.pos_of_ne_zero h0)

theorem FixedBuffer.len_write (b : FixedBuffer) (p : List UInt8) :
    (b.write p).1.len = b.len + (b.write p).2.1 := by
  obtain ⟨hbuf, hlast, -⟩ := FixedBuffer.write_spec b p
  have hle := b.lastRead_le
  have hn : (p.take (b.write p).2.1).length = (b.write p).2.1 := by
    obtain ⟨-, -, -, hmin, -⟩ := FixedBuffer.write_spec b p
    rw [List.length_take, hmin]
    omega
  simp only [FixedBuffer.len, hbuf, hlast, List.length_append, hn]
  omega

/-- A member of a list is in its `dropLast` or is its last. -/
theorem mem_dropLast_or_getLast? {α : Type} {l : List α} {b : α} (h : b ∈ l) :
    b ∈ l.dropLast ∨ b ∈ l.getLast? := by
  rcases List.eq_nil_or_concat l with rfl | ⟨ys, y, rfl⟩
  · cases h
  rw [List.concat_eq_append] at h ⊢
  rw [List.dropLast_concat, List.getLast?_concat]
  rcases List.mem_append.mp h with h | h
  · exact .inl h
  · rw [List.mem_singleton.mp h]
    exact .inr rfl

theorem mem_dropLast_cons_of_mem_dropLast {α : Type} {l : List α} {a b : α}
    (h : b ∈ l.dropLast) : b ∈ (a :: l).dropLast := by
  cases l with
  | nil => cases h
  | cons c l =>
    rw [List.dropLast_cons_cons]
    exact List.mem_cons_of_mem a h

theorem mem_getLast?_cons_of_mem_getLast? {α : Type} {l : List α} {a b : α}
    (h : b ∈ l.getLast?) : b ∈ (a :: l).getLast? := by
  rw [List.getLast?_cons, Option.mem_def.mp h]
  rfl

theorem FixedBuffer.read_split {b b' : FixedBuffer} {want : Nat} {d : List UInt8}
    (hr : b.read want = (b', d)) :
    b.unread = d ++ b'.unread ∧ b'.len = b.len - d.length ∧ d.length = min want b.len ∧
      b'.buf = b.buf ∧ b'.cap = b.cap := by
  obtain ⟨hd, hun, hbuf, hcap⟩ := FixedBuffer.read_spec b want
  rw [hr] at hd hun hbuf hcap
  dsimp only at hd hun hbuf hcap
  have hlen : d.length = min want b.len := by
    rw [hd, List.length_take, FixedBuffer.len_eq_length_unread]
  refine ⟨by rw [hd, hun, List.take_append_drop], ?_, hlen, hbuf, hcap⟩
  rw [FixedBuffer.len_eq_length_unread, FixedBuffer.len_eq_length_unread, hun,
    List.length_drop, hlen, FixedBuffer.len_eq_length_unread]
  omega

/-! ## 2. The pipe's own steps -/

section Shape

variable {bp : BytesPipe}

theorem contents_addBuffer (bp : BytesPipe) (size : Nat) :
    (bp.addBuffer size).contents = bp.contents := by
  simp [BytesPipe.contents, BytesPipe.addBuffer, FixedBuffer.unread, getBuffer]

/-- Appending a fresh buffer behind a full one keeps the shape. -/
theorem PipeShape.addBuffer (h : PipeShape bp) {size : Nat} (hsize : 0 < size)
    (hlast : LastFull bp) : PipeShape (bp.addBuffer size) := by
  -- every old buffer is now in `dropLast`: the old last one is full, so it holds bytes
  have hold : ∀ b ∈ bp.buf, b.buf.length = b.cap ∧ 0 < b.len := by
    intro b hb
    rcases mem_dropLast_or_getLast? hb with hd | hl
    · exact ⟨h.full b hd, h.nonempty b hd⟩
    · have hf := hlast b hl
      exact ⟨hf, FixedBuffer.len_pos_of_full (h.capPos b hb) (h.readNonempty b hb) hf⟩
  refine ⟨?_, ?_, ?_, ?_, ?_⟩
  · simp [BytesPipe.addBuffer, h.bufLen, FixedBuffer.len, getBuffer]
  · intro b hb
    rw [BytesPipe.addBuffer, List.dropLast_concat] at hb
    exact (hold b hb).1
  · intro b hb
    rw [BytesPipe.addBuffer, List.dropLast_concat] at hb
    exact (hold b hb).2
  · intro b hb
    rcases List.mem_append.mp hb with hb | hb
    · exact h.capPos b hb
    · rw [List.mem_singleton.mp hb]
      exact hsize
  · intro b hb hr
    rcases List.mem_append.mp hb with hb | hb
    · exact h.readNonempty b hb hr
    · rw [List.mem_singleton.mp hb] at hr
      cases hr

theorem lastRoom_addBuffer (bp : BytesPipe) {size : Nat} (hsize : 0 < size) :
    LastRoom (bp.addBuffer size) := by
  intro b hb
  rw [BytesPipe.addBuffer, List.getLast?_concat, Option.mem_def, Option.some.injEq] at hb
  rw [← hb]
  exact hsize

/-- Writing into the last buffer keeps the shape, and the pipe holds what it held and then the
bytes written. -/
theorem PipeShape.writeLast (h : PipeShape bp) {ys : List FixedBuffer} {b b' : FixedBuffer}
    {p : List UInt8} {n : Nat} {err : Option String} (hys : bp.buf = ys ++ [b])
    (hw : b.write p = (b', n, err)) :
    PipeShape { bp with buf := ys ++ [b'], bufLen := bp.bufLen + n } ∧
      BytesPipe.contents { bp with buf := ys ++ [b'], bufLen := bp.bufLen + n } =
        bp.contents ++ p.take n := by
  have hlen := FixedBuffer.len_write b p
  have hun := FixedBuffer.unread_write b p
  obtain ⟨-, hlast, hcap, -⟩ := FixedBuffer.write_spec b p
  rw [hw] at hlen hun hlast hcap
  dsimp only at hlen hun hlast hcap
  have hb : b ∈ bp.buf := by simp [hys]
  have hdrop : bp.buf.dropLast = ys := by rw [hys, List.dropLast_concat]
  refine ⟨⟨?_, ?_, ?_, ?_, ?_⟩, ?_⟩
  · have := h.bufLen
    rw [hys] at this
    simp only [List.map_append, List.sum_append, List.map_cons, List.map_nil, List.sum_cons,
      List.sum_nil] at this ⊢
    omega
  · rw [List.dropLast_concat, ← hdrop]
    exact h.full
  · rw [List.dropLast_concat, ← hdrop]
    exact h.nonempty
  · intro x hx
    rcases List.mem_append.mp hx with hx | hx
    · exact h.capPos x (by rw [hys]; exact List.mem_append_left _ hx)
    · rw [List.mem_singleton.mp hx, hcap]
      exact h.capPos b hb
  · intro x hx hr
    rcases List.mem_append.mp hx with hx | hx
    · exact h.readNonempty x (by rw [hys]; exact List.mem_append_left _ hx) hr
    · rw [List.mem_singleton.mp hx] at hr ⊢
      rw [hlast] at hr
      have := h.readNonempty b hb hr
      omega
  · simp only [BytesPipe.contents, hys, List.flatMap_append, List.flatMap_cons, List.flatMap_nil,
      List.append_nil, hun, List.append_assoc]

/-- `if len(bp.buf) == 0 { bp.buf = append(bp.buf, getBuffer(64)) }` keeps the shape and the
bytes, and leaves a last buffer, one with room if the last one had room. -/
theorem PipeShape.ensureLast (h : PipeShape bp) {bp₁ : BytesPipe}
    (hbp₁ : (if bp.buf.length = 0 then bp.addBuffer 64 else bp) = bp₁) :
    PipeShape bp₁ ∧ bp₁.contents = bp.contents ∧ bp₁.buf ≠ [] ∧ (LastRoom bp → LastRoom bp₁) := by
  by_cases hnil : bp.buf.length = 0
  · rw [if_pos hnil] at hbp₁
    subst hbp₁
    have hlast : LastFull bp := by
      simp [LastFull, List.eq_nil_of_length_eq_zero hnil]
    exact ⟨h.addBuffer (by decide) hlast, contents_addBuffer bp 64,
      by simp [BytesPipe.addBuffer], fun _ => lastRoom_addBuffer bp (by decide)⟩
  · rw [if_neg hnil] at hbp₁
    subst hbp₁
    exact ⟨h, rfl, fun hb => hnil (by rw [hb]; rfl), id⟩

end Shape

theorem nextCap_pos {c : Nat} (hc : 0 < c) : 0 < nextCap c := by
  unfold nextCap maxCap
  omega

/-! ## 3. Write -/

/-- What a stretch of `Write` that started on `bp` with `p` left and `written` written keeps
when it leaves the lock at `stop` with the pipe `bp'`: the shape, the bytes it put in behind the
others, and a full last buffer if it waits. -/
structure WriteOk (bp : BytesPipe) (p : List UInt8) (written : Nat) (stop : WriteStop)
    (bp' : BytesPipe) : Prop where
  shape : PipeShape bp'
  contents : bp'.contents = bp.contents ++ p.take (stop.written - written)
  written_le : written ≤ stop.written
  waiting : ∀ q w c, stop = .waiting q w c → 0 < c ∧ LastFull bp'

theorem WriteOk.returned {bp : BytesPipe} (h : PipeShape bp) (p : List UInt8) (written : Nat)
    (err : Option String) : WriteOk bp p written (.returned written err) bp where
  shape := h
  contents := by simp [WriteStop.written]
  written_le := Nat.le_refl _
  waiting := by
    intro q w c hs
    cases hs

theorem writeLoop_closed {bp : BytesPipe} {e : String} (hc : bp.closeErr = some e)
    (fuel : Nat) (p : List UInt8) (written : Nat) :
    writeLoop (fuel + 1) bp p written = .ok (.returned written (some errClosed), bp) := by
  rw [writeLoop, hc]

/-- `loop0` of `Write`, with a turn for every byte and one more, or one for every byte when the
last buffer has room: it leaves the lock having put in the bytes it counts. -/
theorem writeLoop_spec (fuel : Nat) : ∀ (bp : BytesPipe) (p : List UInt8) (written : Nat),
    PipeShape bp → (p.length < fuel ∧ LastRoom bp ∨ p.length + 1 < fuel) →
    ∃ stop bp', writeLoop fuel bp p written = .ok (stop, bp') ∧ WriteOk bp p written stop bp' := by
  induction fuel with
  | zero =>
    intro bp p written _ hfuel
    omega
  | succ fuel ih =>
    intro bp p written h hfuel
    cases hc : bp.closeErr with
    | some e => exact ⟨_, _, writeLoop_closed hc fuel p written, .returned h p written _⟩
    | none =>
      obtain ⟨h₁, hcont₁, hne₁, hroom₁⟩ := h.ensureLast rfl
      rw [writeLoop, hc]
      dsimp only
      generalize (if bp.buf.length = 0 then bp.addBuffer 64 else bp) = bp₁ at h₁ hcont₁ hne₁ hroom₁ ⊢
      obtain ⟨ys, b, hys⟩ : ∃ ys b, bp₁.buf = ys ++ [b] :=
        ⟨_, _, (List.dropLast_append_getLast hne₁).symm⟩
      rw [hys, List.getLast?_concat, List.dropLast_concat]
      dsimp only
      rcases hw : b.write p with ⟨b', n, err⟩
      dsimp only
      obtain ⟨h₂, hcont₂⟩ := h₁.writeLast hys hw
      obtain ⟨-, -, hcap, hmin, herr⟩ := FixedBuffer.write_spec b p
      rw [hw] at hcap hmin herr
      dsimp only at hcap hmin herr
      have hcap₀ : 0 < b.cap := h₁.capPos b (by simp [hys])
      have hnot : ¬(err.isSome = true ∧ err ≠ some errBufferFull) := by
        rcases herr with ⟨rfl, -⟩ | ⟨rfl, -⟩ <;> simp
      rw [if_neg hnot]
      by_cases hall : p.length = n
      · -- `len(p) == n`: all of `p` went into the last buffer
        rw [if_pos hall]
        refine ⟨_, _, rfl, h₂, ?_, by simp [WriteStop.written], by rintro _ _ _ ⟨⟩⟩
        rw [hcont₂, hcont₁]
        simp [WriteStop.written]
      rw [if_neg hall]
      -- the buffer is full: the rest of `p` goes into a new one, maybe after a wait
      obtain ⟨-, hn, hfull⟩ := herr.resolve_left (fun h => hall h.2.symm)
      have hlast₂ : LastFull { bp₁ with buf := ys ++ [b'], bufLen := bp₁.bufLen + n } := by
        intro x hx
        simp only [List.getLast?_concat, Option.mem_def, Option.some.injEq] at hx
        rw [← hx, hfull, hcap]
      by_cases hblock : blockThreshold ≤ bp₁.bufLen + n
      · rw [if_pos hblock]
        refine ⟨_, _, rfl, h₂, ?_, by simp [WriteStop.written], ?_⟩
        · rw [hcont₂, hcont₁]
          simp [WriteStop.written]
        · rintro _ _ _ ⟨⟩
          exact ⟨hcap₀, hlast₂⟩
      rw [if_neg hblock]
      have hfuel' : (p.drop n).length < fuel := by
        rw [List.length_drop]
        rcases hfuel with ⟨hlt, hroom⟩ | hlt
        · have := hroom₁ hroom b (by rw [hys, List.getLast?_concat]; rfl)
          omega
        · omega
      have hnext := nextCap_pos hcap₀
      obtain ⟨stop, bp', hrun, hok⟩ := ih _ (p.drop n) (written + n) (h₂.addBuffer hnext hlast₂)
        (.inl ⟨hfuel', lastRoom_addBuffer _ hnext⟩)
      refine ⟨stop, bp', hrun, hok.shape, ?_, by have := hok.written_le; omega, hok.waiting⟩
      -- what this turn wrote, then what the later turns wrote
      have hsplit : stop.written - written = n + (stop.written - (written + n)) := by
        have := hok.written_le
        omega
      rw [hok.contents, contents_addBuffer, hcont₂, hcont₁, hsplit, List.take_add,
        List.append_assoc]

theorem writeStart_spec {bp : BytesPipe} (h : PipeShape bp) (p : List UInt8) :
    ∃ stop bp', writeStart bp p = .ok (stop, bp') ∧ WriteOk bp p 0 stop bp' :=
  writeLoop_spec _ bp p 0 h (.inr (by omega))

/-- After `bp.wait.Wait()`: the writer that waits has filled the last buffer. -/
theorem writeResume_spec {bp : BytesPipe} (h : PipeShape bp) (hlast : LastFull bp)
    (p : List UInt8) (written : Nat) {lastCap : Nat} (hc : 0 < lastCap) :
    ∃ stop bp', writeResume bp p written lastCap = .ok (stop, bp') ∧
      WriteOk bp p written stop bp' := by
  unfold writeResume
  cases hclose : bp.closeErr with
  | some e => exact ⟨_, _, writeLoop_closed hclose _ p written, .returned h p written _⟩
  | none =>
    dsimp only
    by_cases hblock : blockThreshold ≤ bp.bufLen
    · rw [if_pos hblock]
      refine ⟨_, _, rfl, h, by simp [WriteStop.written], Nat.le_refl _, ?_⟩
      rintro _ _ _ ⟨⟩
      exact ⟨hc, hlast⟩
    · rw [if_neg hblock]
      have hnext := nextCap_pos hc
      obtain ⟨stop, bp', hrun, hok⟩ := writeLoop_spec (p.length + 1) _ p written
        (h.addBuffer hnext hlast)
        (.inl ⟨by omega, lastRoom_addBuffer _ hnext⟩)
      exact ⟨stop, bp', hrun, hok.shape, by rw [hok.contents, contents_addBuffer],
        hok.written_le, hok.waiting⟩


/-! ## 4. Read -/

/-- What a stretch of `Read` keeps when it leaves the lock having copied `data` and left the
pipe `bp'`: the shape, the bytes in their order, and a writer's full last buffer. -/
structure ReadOk (bp : BytesPipe) (data : List UInt8) (bp' : BytesPipe) : Prop where
  shape : PipeShape bp'
  contents : data ++ bp'.contents = bp.contents
  lastFull : LastFull bp → LastFull bp'

theorem ReadOk.refl {bp : BytesPipe} (h : PipeShape bp) : ReadOk bp [] bp :=
  ⟨h, rfl, id⟩

section Front

variable {bp : BytesPipe} {b b' : FixedBuffer} {bs : List FixedBuffer} {want : Nat}
  {d : List UInt8}

/-- `bp.buf = bp.buf[1:]` after `b.Read(p)` emptied the front buffer. -/
theorem PipeShape.dropFront (h : PipeShape bp) (hbuf : bp.buf = b :: bs)
    (hr : b.read want = (b', d)) (hl : b'.len = 0) :
    ReadOk bp d { bp with buf := bs, bufLen := bp.bufLen - d.length } := by
  obtain ⟨hun, hlen, -, -, -⟩ := FixedBuffer.read_split hr
  have hmem : ∀ x ∈ bs, x ∈ bp.buf := fun x hx => by rw [hbuf]; exact List.mem_cons_of_mem b hx
  refine ⟨⟨?_, ?_, ?_, ?_, ?_⟩, ?_, ?_⟩
  · have := h.bufLen
    have hd : d.length ≤ b.len := by
      rw [FixedBuffer.len_eq_length_unread, hun, List.length_append]
      omega
    rw [hbuf, List.map_cons, List.sum_cons] at this
    dsimp only
    omega
  · intro x hx
    exact h.full x (by rw [hbuf]; exact mem_dropLast_cons_of_mem_dropLast hx)
  · intro x hx
    exact h.nonempty x (by rw [hbuf]; exact mem_dropLast_cons_of_mem_dropLast hx)
  · exact fun x hx => h.capPos x (hmem x hx)
  · exact fun x hx => h.readNonempty x (hmem x hx)
  · have hnil : b'.unread = [] := by
      rw [← List.length_eq_zero_iff, ← FixedBuffer.len_eq_length_unread, hl]
    simp only [BytesPipe.contents, hbuf, List.flatMap_cons, hun, hnil, List.append_nil]
  · intro hlast x hx
    exact hlast x (by rw [hbuf]; exact mem_getLast?_cons_of_mem_getLast? hx)

/-- `b.Read(p)` that left bytes in the front buffer: the buffer stays. -/
theorem PipeShape.keepFront (h : PipeShape bp) (hbuf : bp.buf = b :: bs)
    (hr : b.read want = (b', d)) (hl : b'.len ≠ 0) :
    ReadOk bp d { bp with buf := b' :: bs, bufLen := bp.bufLen - d.length } := by
  obtain ⟨hun, hlen, -, hbuf', hcap'⟩ := FixedBuffer.read_split hr
  have hb : b ∈ bp.buf := by rw [hbuf]; exact List.mem_cons_self
  have hmem : ∀ x ∈ bs, x ∈ bp.buf := fun x hx => by rw [hbuf]; exact List.mem_cons_of_mem b hx
  -- `b'` is `b` with a later `lastRead`: it is full where `b` was
  have hfull' : b.buf.length = b.cap → b'.buf.length = b'.cap := by
    intro hf
    rw [hbuf', hcap', hf]
  refine ⟨⟨?_, ?_, ?_, ?_, ?_⟩, ?_, ?_⟩
  · have := h.bufLen
    rw [hbuf, List.map_cons, List.sum_cons] at this
    dsimp only
    rw [List.map_cons, List.sum_cons]
    omega
  · intro x hx
    cases bs with
    | nil => cases hx
    | cons c cs =>
      rw [List.dropLast_cons_cons] at hx
      rcases List.mem_cons.mp hx with rfl | hx
      · exact hfull' (h.full b (by rw [hbuf, List.dropLast_cons_cons]; exact List.mem_cons_self))
      · exact h.full x (by rw [hbuf]; exact mem_dropLast_cons_of_mem_dropLast hx)
  · intro x hx
    cases bs with
    | nil => cases hx
    | cons c cs =>
      rw [List.dropLast_cons_cons] at hx
      rcases List.mem_cons.mp hx with rfl | hx
      · exact Nat.pos_of_ne_zero hl
      · exact h.nonempty x (by rw [hbuf]; exact mem_dropLast_cons_of_mem_dropLast hx)
  · intro x hx
    rcases List.mem_cons.mp hx with rfl | hx
    · rw [hcap']
      exact h.capPos b hb
    · exact h.capPos x (hmem x hx)
  · intro x hx
    rcases List.mem_cons.mp hx with rfl | hx
    · exact fun _ => Nat.pos_of_ne_zero hl
    · exact h.readNonempty x (hmem x hx)
  · simp only [BytesPipe.contents, hbuf, List.flatMap_cons, hun, List.append_assoc]
  · intro hlast x hx
    cases bs with
    | nil =>
      rw [List.getLast?_singleton, Option.mem_def, Option.some.injEq] at hx
      subst hx
      exact hfull' (hlast b (by rw [hbuf]; rfl))
    | cons c cs =>
      rw [List.getLast?_cons_cons] at hx
      exact hlast x (by rw [hbuf, List.getLast?_cons_cons]; exact hx)

end Front

/-- `for bp.bufLen > 0 { ... }` with a turn for every buffer and one more: every turn but the
last drops the front buffer. -/
theorem readLoop_spec (fuel : Nat) : ∀ (bp : BytesPipe) (want : Nat) (got : List UInt8),
    PipeShape bp → bp.buf.length < fuel →
    ∃ got' bp', readLoop fuel bp want got = .ok (got', bp') ∧
      ∃ d, got' = got ++ d ∧ ReadOk bp d bp' := by
  induction fuel with
  | zero =>
    intro bp want got _ hfuel
    omega
  | succ fuel ih =>
    intro bp want got h hfuel
    rw [readLoop]
    by_cases hpos : 0 < bp.bufLen
    swap
    · rw [if_neg hpos]
      exact ⟨got, bp, rfl, [], by simp, .refl h⟩
    rw [if_pos hpos]
    -- `bufLen > 0`, so `bp.buf[0]` exists
    obtain ⟨b, bs, hbuf⟩ : ∃ b bs, bp.buf = b :: bs := by
      cases hb : bp.buf with
      | nil =>
        have := h.bufLen
        rw [hb] at this
        simp only [List.map_nil, List.sum_nil] at this
        omega
      | cons b bs => exact ⟨b, bs, rfl⟩
    rw [hbuf]
    dsimp only
    rcases hr : b.read want with ⟨b', d⟩
    dsimp only
    obtain ⟨-, hlen, hmin, -, -⟩ := FixedBuffer.read_split hr
    by_cases hl : b'.len = 0
    · rw [if_pos hl]
      have hok := h.dropFront hbuf hr hl
      by_cases hw : want = d.length
      · rw [if_pos hw]
        exact ⟨_, _, rfl, d, rfl, hok⟩
      rw [if_neg hw]
      have hfuel' : bs.length < fuel := by
        rw [hbuf, List.length_cons] at hfuel
        omega
      obtain ⟨got', bp', hrun, d', hgot, hok'⟩ := ih _ (want - d.length) (got ++ d) hok.shape hfuel'
      refine ⟨got', bp', hrun, d ++ d', by rw [hgot, List.append_assoc], hok'.shape, ?_,
        fun hlast => hok'.lastFull (hok.lastFull hlast)⟩
      rw [List.append_assoc, hok'.contents, hok.contents]
    · -- bytes are left in the front buffer only when `p` is full
      have hw : want = d.length := by omega
      rw [if_neg hl, if_pos hw]
      exact ⟨_, _, rfl, d, rfl, h.keepFront hbuf hr hl⟩

theorem readRest_spec {bp : BytesPipe} (h : PipeShape bp) (want : Nat) :
    ∃ data bp', readRest bp want = .ok (.returned data none, bp') ∧ ReadOk bp data bp' := by
  obtain ⟨got', bp', hrun, d, hgot, hok⟩ := readLoop_spec _ bp want [] h (Nat.lt_succ_self _)
  rw [List.nil_append] at hgot
  subst hgot
  exact ⟨got', bp', by rw [readRest, hrun]; rfl, hok⟩

/-- What `Read` returned, `[]` while it waits. -/
def ReadStop.data : ReadStop → List UInt8
  | .returned data _ => data
  | .waiting => []

theorem readStart_spec {bp : BytesPipe} (h : PipeShape bp) (want : Nat) :
    ∃ stop bp', readStart bp want = .ok (stop, bp') ∧ ReadOk bp stop.data bp' := by
  unfold readStart
  by_cases h0 : bp.bufLen = 0
  · rw [if_pos h0]
    cases bp.closeErr with
    | some e => exact ⟨_, _, rfl, .refl h⟩
    | none => exact ⟨_, _, rfl, .refl h⟩
  · rw [if_neg h0]
    obtain ⟨data, bp', hrun, hok⟩ := readRest_spec h want
    exact ⟨_, _, hrun, hok⟩

theorem readResume_spec {bp : BytesPipe} (h : PipeShape bp) (want : Nat) :
    ∃ stop bp', readResume bp want = .ok (stop, bp') ∧ ReadOk bp stop.data bp' := by
  obtain ⟨data, bp', hrun, hok⟩ := readRest_spec h want
  unfold readResume
  cases bp.closeErr with
  | some e =>
    dsimp only
    by_cases h0 : bp.bufLen = 0
    · rw [if_pos h0]
      exact ⟨_, _, rfl, .refl h⟩
    · rw [if_neg h0]
      exact ⟨_, _, hrun, hok⟩
  | none => exact ⟨_, _, hrun, hok⟩

/-! ## 5. One writer and one reader -/

/-- The shape is about the buffers and `bufLen` only. -/
theorem PipeShape.closeWithError {bp : BytesPipe} (h : PipeShape bp) (err : Option String) :
    PipeShape (closeWithError bp err) :=
  ⟨h.bufLen, h.full, h.nonempty, h.capPos, h.readNonempty⟩

/-- The invariant of the system: the pipe's shape, the bytes read and then the bytes in the pipe
are the bytes written, and a waiting writer has filled the last buffer. -/
structure PipeInv (s : PipeSystem) : Prop where
  shape : PipeShape s.pipe
  fifo : s.delivered ++ s.pipe.contents = s.accepted
  writer : ∀ p w c, s.writer = .waiting p w c → 0 < c ∧ LastFull s.pipe

section System

variable {s : PipeSystem}

theorem PipeInv.afterWrite (hi : PipeInv s) {p : List UInt8} {written : Nat} {stop : WriteStop}
    {bp' : BytesPipe} (hok : WriteOk s.pipe p written stop bp') :
    PipeInv (s.afterWrite p written (stop, bp')) where
  shape := hok.shape
  fifo := by
    simp only [PipeSystem.afterWrite]
    rw [hok.contents, ← List.append_assoc, hi.fifo]
  writer := by
    intro q w c hw
    cases stop with
    | returned => cases hw
    | waiting q' w' c' =>
      simp only [PipeSystem.afterWrite, WriteStop.toPc, WriterPc.waiting.injEq] at hw
      obtain ⟨-, -, rfl⟩ := hw
      exact hok.waiting q' w' c' rfl

theorem PipeInv.afterRead (hi : PipeInv s) (want : Nat) {stop : ReadStop} {bp' : BytesPipe}
    (hok : ReadOk s.pipe stop.data bp') : PipeInv (s.afterRead want (stop, bp')) := by
  have hwriter : ∀ p w c, s.writer = .waiting p w c → 0 < c ∧ LastFull bp' := by
    intro p w c hw
    obtain ⟨hc, hlast⟩ := hi.writer p w c hw
    exact ⟨hc, hok.lastFull hlast⟩
  cases stop with
  | returned data e =>
    have hc : data ++ bp'.contents = s.pipe.contents := hok.contents
    refine ⟨hok.shape, ?_, hwriter⟩
    simp only [PipeSystem.afterRead]
    rw [List.append_assoc, hc, hi.fifo]
  | waiting =>
    refine ⟨hok.shape, ?_, hwriter⟩
    simp only [PipeSystem.afterRead]
    rw [← hi.fifo, ← hok.contents]
    rfl

/-- Every step succeeds and keeps the invariant. -/
theorem PipeInv.step (hi : PipeInv s) (op : PipeOp) : ∃ s', step s op = .ok s' ∧ PipeInv s' := by
  cases op with
  | write p =>
    cases hw : s.writer with
    | idle =>
      obtain ⟨stop, bp', hrun, hok⟩ := writeStart_spec hi.shape p
      exact ⟨_, by rw [Ioutils.step, hw, hrun]; rfl, hi.afterWrite hok⟩
    | waiting => exact ⟨s, by rw [Ioutils.step, hw], hi⟩
  | wakeWriter =>
    cases hw : s.writer with
    | idle => exact ⟨s, by rw [Ioutils.step, hw], hi⟩
    | waiting p written lastCap =>
      obtain ⟨hc, hlast⟩ := hi.writer p written lastCap hw
      obtain ⟨stop, bp', hrun, hok⟩ := writeResume_spec hi.shape hlast p written hc
      refine ⟨_, ?_, hi.afterWrite hok⟩
      rw [Ioutils.step, hw]
      dsimp only
      rw [hrun]
      rfl
  | read want =>
    cases hr : s.reader with
    | idle =>
      obtain ⟨stop, bp', hrun, hok⟩ := readStart_spec hi.shape want
      exact ⟨_, by rw [Ioutils.step, hr, hrun]; rfl, hi.afterRead want hok⟩
    | waiting => exact ⟨s, by rw [Ioutils.step, hr], hi⟩
  | wakeReader =>
    cases hr : s.reader with
    | idle => exact ⟨s, by rw [Ioutils.step, hr], hi⟩
    | waiting want =>
      obtain ⟨stop, bp', hrun, hok⟩ := readResume_spec hi.shape want
      refine ⟨_, ?_, hi.afterRead want hok⟩
      rw [Ioutils.step, hr]
      dsimp only
      rw [hrun]
      rfl
  | closeWithError err =>
    -- closing touches neither the buffers nor `bufLen`
    exact ⟨_, rfl, hi.shape.closeWithError err, hi.fifo, hi.writer⟩

end System

theorem pipeInv_init : PipeInv PipeSystem.init where
  shape :=
    { bufLen := rfl
      full := by simp [PipeSystem.init, newBytesPipe]
      nonempty := by simp [PipeSystem.init, newBytesPipe]
      capPos := by simp [PipeSystem.init, newBytesPipe, getBuffer, minCap]
      readNonempty := by simp [PipeSystem.init, newBytesPipe, getBuffer] }
  fifo := rfl
  writer := by
    intro p w c hw
    cases hw

theorem pipeInv_preserved : Reasoning.Reach.Preserved PipeInv step :=
  fun _ op hi => hi.step op

/-- Every run from `NewBytesPipe()` succeeds and keeps the invariant. -/
theorem pipeInv_run (ops : List PipeOp) :
    ∃ s, Reasoning.Reach.runSteps step PipeSystem.init ops = .ok s ∧ PipeInv s :=
  Reasoning.Reach.runSteps_preserved PipeInv pipeInv_preserved _ ops pipeInv_init

theorem bytesPipe_lossless_fifo (ops : List PipeOp) :
    ∃ s, Reasoning.Reach.runSteps step PipeSystem.init ops = .ok s ∧
      s.pipe.bufLen = (s.pipe.buf.map FixedBuffer.len).sum ∧
      (∀ b ∈ s.pipe.buf.dropLast, b.buf.length = b.cap) ∧
      (∀ b ∈ s.pipe.buf.dropLast, 0 < b.len) ∧
      s.delivered ++ s.pipe.contents = s.accepted ∧
      s.delivered = s.accepted.take s.delivered.length := by
  obtain ⟨s, hrun, hi⟩ := pipeInv_run ops
  refine ⟨s, hrun, hi.shape.bufLen, hi.shape.full, hi.shape.nonempty, hi.fifo, ?_⟩
  rw [← hi.fifo, List.take_left]

end Docker.Ioutils
