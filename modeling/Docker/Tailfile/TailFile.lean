import Mathlib
import Docker.Ioutils.MultiReader
import Docker.Reasoning.Lines

/-!
# TailFile — the last `n` lines of a `ReadSeeker`

`TailFile` reads blocks of 1024 bytes backwards from the end, prepending each to `data`, and
counts their newlines; it stops when it has seen more than `n`, or reads the short first block
and stops there.  It then splits `data` at the newlines and keeps the last `n` pieces but the
last one.

Over a `bytes.Reader` of `c`, `data` is always a suffix of `c`: all of `c`, or one with more than
`n` newlines (`tailLoop_bytesReader`).  Either way its last `n` complete lines are those of `c`,
so `TailFile` returns the last `min(n, L)` complete lines of `c` (`tailFile_bytesReader`).
The reader is Go 1.6's, whose `Read` into an empty buffer returns `(0, nil)`; that read happens
when `c` is empty, or a multiple of the block size long.
-/

namespace Docker.Ioutils.BytesReader

/-- `r.Read(b)` with `b := make([]byte, n)`: the buffer after the call, whatever count `Read`
returns, or its error. -/
def readInto (r : BytesReader) (n : Nat) : Except String (List UInt8 × BytesReader) :=
  -- Go 1.6: `if len(b) == 0 { return 0, nil }`
  if n = 0 then .ok ([], r)
  else if r.s.length ≤ r.i then .error "EOF"
  else
    let (b, r) := r.read n
    .ok (b ++ List.replicate (n - b.length) 0, r)

end Docker.Ioutils.BytesReader

namespace Docker.Tailfile

open Docker.Ioutils Reasoning.Lines

/-- `blockSize`. -/
def blockSize : Int := 1024

/-- An `io.ReadSeeker` over states `σ`: `Seek`, and `Read` into a fresh buffer of the given
length. -/
structure ReadSeeker (σ : Type) where
  seek : σ → Int → Whence → Except String (Int × σ)
  read : σ → Nat → Except String (List UInt8 × σ)

/-- A `bytes.Reader` as an `io.ReadSeeker`. -/
def bytesReader : ReadSeeker BytesReader where
  seek := BytesReader.seek
  read := BytesReader.readInto

section Model

variable {σ : Type} (rs : ReadSeeker σ)

/-- The `for` loop of `TailFile` at `block`, with `data` and `cnt`; `size` is what the first
`Seek` returned.  Each turn moves one block back, so the `size / 1024 + 2` turns `TailFile`
allows are never all used. -/
def tailLoop (size n : Int) : Nat → Int → List UInt8 → Nat → σ → Except String (List UInt8)
  | 0, _, _, _, _ => .error "tailfile: out of fuel"
  | fuel + 1, block, data, cnt, f =>
    let step := block * blockSize
    let left := size + step -- how many bytes to beginning
    if left < 0 then do
      let (_, f) ← rs.seek f 0 .seekSet
      let (b, _) ← rs.read f (blockSize + left).toNat
      pure (b ++ data)
    else do
      let (_, f) ← rs.seek f step .seekEnd
      let (b, f) ← rs.read f blockSize.toNat
      let data := b ++ data
      let cnt := cnt + b.count 10
      if n < cnt then pure data
      else tailLoop size n fuel (block - 1) data cnt f

/-- `TailFile(f, n)`. -/
def tailFile (f : σ) (n : Int) : Except String (List (List UInt8)) :=
  if n ≤ 0 then .error "The number of lines to extract from the file must be positive" else do
  let (size, f) ← rs.seek f 0 .seekEnd
  let data ← tailLoop rs size n (size.toNat / 1024 + 2) (-1) [] 0 f
  let lines := data.splitOn 10
  if n < lines.length then pure ((lines.drop (lines.length - n.toNat - 1)).take n.toNat)
  else pure (lines.take (lines.length - 1))

end Model

/-! ## 1. A `bytes.Reader` -/

theorem ok_bind {α β ε : Type} (a : α) (f : α → Except ε β) : (Except.ok a >>= f) = f a := rfl

theorem pure_eq_ok {α ε : Type} (a : α) : (pure a : Except ε α) = .ok a := rfl

section BytesReader

variable (c : List UInt8)

theorem seek_seekSet_zero (i : Nat) : bytesReader.seek ⟨c, i⟩ 0 .seekSet = .ok (0, ⟨c, 0⟩) :=
  rfl

theorem seek_seekEnd {off : Int} (i : Nat) (h : 0 ≤ (c.length : Int) + off) :
    bytesReader.seek ⟨c, i⟩ off .seekEnd =
      .ok (c.length + off, ⟨c, ((c.length : Int) + off).toNat⟩) := by
  unfold bytesReader BytesReader.seek
  dsimp only
  rw [if_neg (not_lt.mpr h)]

/-- A read that the rest of `c` can fill returns the next `r` bytes. -/
theorem read_take {i r : Nat} (h : i + r ≤ c.length) :
    bytesReader.read ⟨c, i⟩ r = .ok ((c.drop i).take r, ⟨c, i + r⟩) := by
  show BytesReader.readInto _ _ = _
  unfold BytesReader.readInto
  by_cases hr : r = 0
  · subst hr
    rfl
  · have hlen : ((c.drop i).take r).length = r := by
      rw [List.length_take, List.length_drop]
      omega
    rw [if_neg hr, if_neg (by show ¬c.length ≤ i; omega)]
    simp only [BytesReader.read, if_neg (show ¬c.length ≤ i by omega), hlen, Nat.sub_self,
      List.replicate_zero, List.append_nil]

end BytesReader

/-! ## 2. The loop over a `bytes.Reader` -/

/-- `left < 0` at `block = -(k + 1)`, in whole numbers. -/
theorem left_neg_iff (L k : Nat) :
    (L : Int) + -((k : Int) + 1) * blockSize < 0 ↔ L < (k + 1) * 1024 := by
  simp only [blockSize]
  omega

theorem toNat_blockSize_add_left {L k : Nat} (hlt : L < (k + 1) * 1024) (hk : k * 1024 ≤ L) :
    (blockSize + ((L : Int) + -((k : Int) + 1) * blockSize)).toNat = L - k * 1024 := by
  simp only [blockSize]
  omega

theorem toNat_left {L k : Nat} (hle : (k + 1) * 1024 ≤ L) :
    ((L : Int) + -((k : Int) + 1) * blockSize).toNat = L - (k + 1) * 1024 := by
  simp only [blockSize]
  omega

/-- With the last `k` blocks read, the loop ends with a suffix of `c` that is all of `c` or
holds more than `n` newlines. -/
theorem tailLoop_bytesReader (c : List UInt8) (n : Int) :
    ∀ (fuel k i : Nat), k * 1024 ≤ c.length → c.length / 1024 + 1 ≤ k + fuel →
      ∃ p, tailLoop bytesReader c.length n fuel (-((k : Int) + 1))
          (c.drop (c.length - k * 1024)) ((c.drop (c.length - k * 1024)).count 10)
          ⟨c, i⟩ = .ok (c.drop p) ∧ (p = 0 ∨ n < (c.drop p).count 10) := by
  intro fuel
  induction fuel with
  | zero =>
    intro k i hk hfuel
    omega
  | succ fuel ih =>
    intro k i hk hfuel
    rw [tailLoop]
    dsimp only
    by_cases hlt : c.length < (k + 1) * 1024
    · -- the short first block: `data` becomes all of `c`
      rw [if_pos ((left_neg_iff _ _).mpr hlt)]
      refine ⟨0, ?_, Or.inl rfl⟩
      rw [seek_seekSet_zero, ok_bind, toNat_blockSize_add_left hlt hk,
        read_take c (show 0 + (c.length - k * 1024) ≤ c.length by omega), ok_bind,
        pure_eq_ok, List.drop_zero]
      exact congrArg Except.ok (List.take_append_drop _ c)
    · -- a whole block, at `q`: `data` grows to the suffix of `c` from `q`
      have hle : (k + 1) * 1024 ≤ c.length := Nat.le_of_not_lt hlt
      have hq : 0 ≤ (c.length : Int) + -((k : Int) + 1) * blockSize :=
        not_lt.mp (fun h => hlt ((left_neg_iff _ _).mp h))
      rw [if_neg (not_lt.mpr hq), seek_seekEnd c i hq, ok_bind]
      dsimp only
      rw [toNat_left hle, show blockSize.toNat = 1024 from rfl,
        read_take c (show c.length - (k + 1) * 1024 + 1024 ≤ c.length by omega), ok_bind]
      dsimp only
      have hdata : (c.drop (c.length - (k + 1) * 1024)).take 1024 ++
          c.drop (c.length - k * 1024) = c.drop (c.length - (k + 1) * 1024) := by
        rw [show c.length - k * 1024 = c.length - (k + 1) * 1024 + 1024 by omega,
          ← List.drop_drop, List.take_append_drop]
      have hcnt : (c.drop (c.length - k * 1024)).count 10 +
          ((c.drop (c.length - (k + 1) * 1024)).take 1024).count 10 =
            (c.drop (c.length - (k + 1) * 1024)).count 10 := by
        conv_rhs => rw [← hdata]
        rw [List.count_append, Nat.add_comm]
      rw [hdata, hcnt]
      split
      · rename_i hn
        exact ⟨_, rfl, Or.inr hn⟩
      · -- not yet more than `n` newlines: one block further back
        have hblock : -((k : Int) + 1) - 1 = -(((k + 1 : Nat) : Int) + 1) := by
          push_cast
          ring
        rw [hblock]
        exact ih (k + 1) _ hle (by omega)

/-! ## 3. `TailFile` over a `bytes.Reader` -/

/-- The pieces `TailFile` returns are the last `n` complete lines of `data`. -/
theorem slice_eq_lastLines (data : List UInt8) (n : Int) (hn : 1 ≤ n) :
    (if n < ((data.splitOn 10).length : Int) then
        pure (((data.splitOn 10).drop ((data.splitOn 10).length - n.toNat - 1)).take n.toNat)
      else pure ((data.splitOn 10).take ((data.splitOn 10).length - 1)) :
        Except String (List (List UInt8))) =
      .ok (lastLines 10 n.toNat data) := by
  have hslice := slice_eq_drop_dropLast (data.splitOn 10) n.toNat
  rw [lastLines, completeLines, ← hslice]
  by_cases h : n.toNat < (data.splitOn 10).length
  · rw [if_pos (by omega), if_pos h]
    rfl
  · rw [if_neg (by omega), if_neg h]
    rfl

/-- Over a `bytes.Reader` of `c` and for `n ≥ 1`, `TailFile` returns the last `min(n, L)`
complete lines of `c`, where `L`, the number of complete lines, is the number of newlines of
`c`. -/
theorem tailFile_bytesReader (c : List UInt8) (n : Int) (hn : 1 ≤ n) :
    tailFile bytesReader (BytesReader.new c) n =
        .ok ((completeLines 10 c).drop ((completeLines 10 c).length - n.toNat)) ∧
      (completeLines 10 c).length = c.count 10 := by
  refine ⟨?_, length_completeLines 10 c⟩
  -- the loop from the last block ends with a suffix of `c`
  obtain ⟨p, hloop, hp⟩ :=
    tailLoop_bytesReader c n (c.length / 1024 + 2) 0 c.length (Nat.zero_le _) (by omega)
  rw [Nat.zero_mul, Nat.sub_zero, List.drop_length, List.count_nil, Int.natCast_zero,
    zero_add] at hloop
  unfold tailFile
  rw [if_neg (by omega), BytesReader.new, seek_seekEnd c 0 (by omega), ok_bind]
  dsimp only
  rw [Int.add_zero, Int.toNat_natCast, hloop, ok_bind, slice_eq_lastLines _ n hn]
  -- its last `n` complete lines are those of `c`
  rcases hp with rfl | hmore
  · rw [List.drop_zero]
    rfl
  · have hmore' : n.toNat < (c.drop p).count 10 := by omega
    rw [← lastLines_append 10 (c.take p) (c.drop p) hmore', List.take_append_drop]
    rfl

theorem tailFile_bytesReader_two_of_three :
    tailFile bytesReader (BytesReader.new [97, 10, 98, 10, 99, 10]) 2 =
        .ok ((completeLines 10 [97, 10, 98, 10, 99, 10]).drop
          ((completeLines 10 [97, 10, 98, 10, 99, 10]).length - (2 : Int).toNat)) ∧
      (completeLines 10 [97, 10, 98, 10, 99, 10]).length = [97, 10, 98, 10, 99, 10].count 10 :=
  tailFile_bytesReader _ 2 (by decide)

example : tailFile bytesReader (BytesReader.new [97, 10, 98, 10, 99]) 5 = .ok [[97], [98]] := by
  decide

end Docker.Tailfile
