import Mathlib.Data.List.Basic

/-!
# FixedBuffer — the byte slices of `BytesPipe`

`pkg/ioutils/buffer.go`: a `fixedBuffer` is a slice of fixed capacity written at `pos` and read
at `lastRead`.  The model keeps `buf[:pos]`, so `pos` is its length, and the structure carries
`lastRead ≤ pos ≤ cap`, which every operation keeps.
-/

namespace Docker.Ioutils

/-- `errBufferFull`. -/
def errBufferFull : String := "buffer is full"

/-- `io.ErrShortWrite`. -/
def errShortWrite : String := "short write"

/-- `fixedBuffer`: `buf[:pos]`, `lastRead` and `cap(buf)`. -/
structure FixedBuffer where
  buf : List UInt8
  lastRead : Nat
  cap : Nat
  lastRead_le : lastRead ≤ buf.length
  pos_le : buf.length ≤ cap

namespace FixedBuffer

/-- `b.Len()`. -/
def len (b : FixedBuffer) : Nat :=
  b.buf.length - b.lastRead

/-- The bytes not read yet, `buf[lastRead:pos]`. -/
def unread (b : FixedBuffer) : List UInt8 :=
  b.buf.drop b.lastRead

/-- `b.Write(p)`: copy into `buf[pos:cap]`; the buffer, the count and the error. -/
def write (b : FixedBuffer) (p : List UInt8) : FixedBuffer × Nat × Option String :=
  let n := min p.length (b.cap - b.buf.length)
  let b' : FixedBuffer :=
    { buf := b.buf ++ p.take n, lastRead := b.lastRead, cap := b.cap,
      lastRead_le := by simp only [List.length_append]; have := b.lastRead_le; omega,
      pos_le := by
        simp only [List.length_append, List.length_take]
        have := b.pos_le
        omega }
  if n < p.length then
    if b'.buf.length = b.cap then (b', n, some errBufferFull) else (b', n, some errShortWrite)
  else (b', n, none)

/-- `b.Read(p)` into a slice of length `want`: the buffer and the bytes copied. -/
def read (b : FixedBuffer) (want : Nat) : FixedBuffer × List UInt8 :=
  let n := min want (b.buf.length - b.lastRead)
  ({ buf := b.buf, lastRead := b.lastRead + n, cap := b.cap,
     lastRead_le := by have := b.lastRead_le; omega, pos_le := b.pos_le },
    (b.buf.drop b.lastRead).take n)

end FixedBuffer

/-- `getBuffer(size)`: a buffer of the pool for `size`, as `Reset` leaves it. -/
def getBuffer (size : Nat) : FixedBuffer :=
  { buf := [], lastRead := 0, cap := size, lastRead_le := Nat.le_refl 0,
    pos_le := Nat.zero_le size }

namespace FixedBuffer

/-! ## What the operations do -/

theorem len_eq_length_unread (b : FixedBuffer) : b.len = b.unread.length := by
  simp [len, unread]

-- a write never comes short of the capacity: either it takes all of `p`, or the buffer is full
theorem write_spec (b : FixedBuffer) (p : List UInt8) :
    (b.write p).1.buf = b.buf ++ p.take (b.write p).2.1 ∧
      (b.write p).1.lastRead = b.lastRead ∧ (b.write p).1.cap = b.cap ∧
      (b.write p).2.1 = min p.length (b.cap - b.buf.length) ∧
      ((b.write p).2.2 = none ∧ (b.write p).2.1 = p.length ∨
        (b.write p).2.2 = some errBufferFull ∧ (b.write p).2.1 < p.length ∧
          (b.write p).1.buf.length = b.cap) := by
  have hpos := b.pos_le
  unfold write
  dsimp only
  by_cases hn : min p.length (b.cap - b.buf.length) < p.length
  · have hfull : (b.buf ++ p.take (min p.length (b.cap - b.buf.length))).length = b.cap := by
      simp only [List.length_append, List.length_take]
      omega
    rw [if_pos hn, if_pos hfull]
    exact ⟨rfl, rfl, rfl, rfl, .inr ⟨rfl, hn, hfull⟩⟩
  · rw [if_neg hn]
    refine ⟨rfl, rfl, rfl, rfl, .inl ⟨rfl, ?_⟩⟩
    show min p.length (b.cap - b.buf.length) = p.length
    omega

theorem unread_write (b : FixedBuffer) (p : List UInt8) :
    (b.write p).1.unread = b.unread ++ p.take (b.write p).2.1 := by
  obtain ⟨hbuf, hlast, -⟩ := write_spec b p
  simp only [unread, hbuf, hlast]
  exact List.drop_append_of_le_length b.lastRead_le

theorem read_spec (b : FixedBuffer) (want : Nat) :
    (b.read want).2 = b.unread.take want ∧ (b.read want).1.unread = b.unread.drop want ∧
      (b.read want).1.buf = b.buf ∧ (b.read want).1.cap = b.cap := by
  refine ⟨?_, ?_, rfl, rfl⟩
  · simp only [read, unread]
    rw [List.take_eq_take_iff, List.length_drop]
    omega
  · simp only [read, unread, List.drop_drop]
    rw [List.drop_eq_drop_iff]
    omega

end FixedBuffer

end Docker.Ioutils
