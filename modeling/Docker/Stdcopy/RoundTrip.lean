import Docker.Stdcopy.StdCopy

/-!
# RoundTrip — `StdCopy` reads back what `stdWriter` wrote

The stream of a run of writes is its frames, one for each non-nil payload.  Whatever prefix of
that stream the source delivers, cut into reads however it likes, `StdCopy` passes on the
payloads of the frames lying whole in the prefix, `Stdin` and `Stdout` ones to `dstout` and
`Stderr` ones to `dsterr`, and stops without an error at the end, provided every frame's length
and one byte more fit Go's `int` (`Fits`).  `written` is an `int64`: it is the payloads' total
length wrapped to 64 bits.  With a 32-bit `int` the header of a frame of 2^31 - 9 bytes or more
is enough to make `StdCopy` panic (`stdCopy_header_panics`).

The proof follows the two loops of `StdCopy`: a read loop fills the buffer up to what it wants
or to the end of the stream (`fillLoop_ofChunks`), and each round of the outer loop consumes one
frame (`copyLoop_frames`, by induction on the frames).
-/

namespace Docker.Stdcopy

open ChunkReader

/-! ## 1. The frames of a stream -/

/-- A frame: the stream it belongs to and its payload. -/
abbrev Frame := StdType × List UInt8

/-- The frames a run of writes puts on the stream: a nil payload writes nothing. -/
def frames (ws : List (StdType × Option (List UInt8))) : List Frame :=
  ws.filterMap fun w => w.2.map (w.1, ·)

/-- The bytes of one frame. -/
def frameBytes (f : Frame) : List UInt8 :=
  (stdWriterWrite f.1.toByte (some f.2)).1

/-- The frames lying whole in the first `k` bytes of their stream. -/
def completeFrames : Nat → List Frame → List Frame
  | _, [] => []
  | k, f :: fs =>
    if (frameBytes f).length ≤ k then f :: completeFrames (k - (frameBytes f).length) fs
    else []

/-- The payloads for `dstout`: `Stdin` and `Stdout` frames. -/
def toStdout (fs : List Frame) : List UInt8 :=
  (fs.filter fun f => f.1 ≠ .stderr).flatMap Prod.snd

/-- The payloads for `dsterr`. -/
def toStderr (fs : List Frame) : List UInt8 :=
  (fs.filter fun f => f.1 = .stderr).flatMap Prod.snd

/-- The total length of the payloads. -/
def payloadTotal (fs : List Frame) : Nat :=
  (fs.map fun f => f.2.length).sum

theorem frameBytes_eq (f : Frame) :
    frameBytes f = [f.1.toByte, 0, 0, 0] ++ BigEndian.putUint32 (f.2.length % 2 ^ 32) ++ f.2 :=
  rfl

@[simp] theorem length_frameBytes (f : Frame) : (frameBytes f).length = f.2.length + 8 := by
  rw [frameBytes_eq]
  simp only [List.length_append, List.length_cons, List.length_nil, BigEndian.length_putUint32]
  omega

/-- The stream of a run of writes is the bytes of its frames. -/
theorem writeAll_eq (ws : List (StdType × Option (List UInt8))) :
    writeAll ws = (frames ws).flatMap frameBytes := by
  induction ws with
  | nil => rfl
  | cons w ws ih =>
    obtain ⟨t, p⟩ := w
    cases p with
    | none => simpa [writeAll, frames, stdWriterWrite] using ih
    | some p => simpa [writeAll, frames, frameBytes] using ih

@[simp] theorem toStdout_cons (f : Frame) (fs : List Frame) :
    toStdout (f :: fs) = (if f.1 = .stderr then [] else f.2) ++ toStdout fs := by
  by_cases h : f.1 = .stderr <;> simp [toStdout, h]

@[simp] theorem toStderr_cons (f : Frame) (fs : List Frame) :
    toStderr (f :: fs) = (if f.1 = .stderr then f.2 else []) ++ toStderr fs := by
  by_cases h : f.1 = .stderr <;> simp [toStderr, h]

@[simp] theorem payloadTotal_cons (f : Frame) (fs : List Frame) :
    payloadTotal (f :: fs) = f.2.length + payloadTotal fs := by
  simp [payloadTotal]

theorem StdType.ofByte_toByte (t : StdType) : StdType.ofByte t.toByte = some t := by
  cases t <;> rfl

/-! ## 2. The read loops -/

/-- A read loop on a failure-free source, with a round for each read the source can take and
room in the buffer for what it wants, ends with the buffer holding what it wants, or the whole
stream at `io.EOF`; what is in the buffer followed by what is left is the stream. -/
theorem fillLoop_ofChunks (want : Nat) :
    ∀ (fuel : Nat) (s : CopyState) (cs : List (List UInt8)), s.src = ofChunks cs →
      s.buf.length ≤ s.bufLen → want ≤ s.bufLen →
      size (ofChunks cs : Source String UInt8) < fuel →
      ∃ buf cs', fillLoop fuel want s =
          some (if want ≤ buf.length then .full { s with buf := buf, src := ofChunks cs' }
            else .eof { s with buf := buf, src := ofChunks cs' }) ∧
        buf ++ cs'.flatten = s.buf ++ cs.flatten ∧ buf.length ≤ s.bufLen ∧
        (buf.length < want → cs' = [])
  | 0, _, _, _, _, _, hfuel => absurd hfuel (Nat.not_lt_zero _)
  | fuel + 1, s, cs, hsrc, hbuf, hwant, hfuel => by
    unfold fillLoop
    by_cases hlt : s.buf.length < want
    · rw [if_pos hlt, hsrc]
      cases cs with
      | nil =>
        refine ⟨s.buf, [], ?_, rfl, hbuf, fun _ => rfl⟩
        rw [read_ofChunks_nil, if_neg (Nat.not_le.mpr hlt)]
        rw [← hsrc]
      | cons c cs =>
        -- one read, then the loop goes on from the grown buffer
        obtain ⟨d, cs', hread, hcat, hd, hsize⟩ := read_ofChunks_cons (ε := String)
          (s.bufLen - s.buf.length) c cs
        rw [hread]
        obtain ⟨buf, cs'', hrun, hcat', hlen, hend⟩ := fillLoop_ofChunks want fuel
          { s with buf := s.buf ++ d, src := ofChunks cs' } cs' rfl
          (by simp only [List.length_append]; omega) hwant
          (by have := hsize (by omega); omega)
        refine ⟨buf, cs'', hrun, ?_, hlen, hend⟩
        rw [hcat', List.append_assoc, hcat]
    · rw [if_neg hlt]
      refine ⟨s.buf, cs, ?_, rfl, hbuf, fun h => absurd h hlt⟩
      rw [if_pos (Nat.not_lt.mp hlt), ← hsrc]

/-- A read loop through `fill`. -/
theorem fill_ofChunks {want : Nat} {s : CopyState} {cs : List (List UInt8)}
    (hsrc : s.src = ofChunks cs) (hbuf : s.buf.length ≤ s.bufLen) (hwant : want ≤ s.bufLen) :
    ∃ buf cs', fill want s =
        some (if want ≤ buf.length then .full { s with buf := buf, src := ofChunks cs' }
          else .eof { s with buf := buf, src := ofChunks cs' }) ∧
      buf ++ cs'.flatten = s.buf ++ cs.flatten ∧ buf.length ≤ s.bufLen ∧
      (buf.length < want → cs' = []) := by
  unfold fill
  rw [hsrc]
  exact fillLoop_ofChunks want _ s cs hsrc hbuf hwant (Nat.lt_succ_self _)

/-! ## 3. What the buffer holds -/

/-- The start of a buffer that begins the prefix `L.take k` is the start of `L`. -/
theorem take_of_append_eq_take {buf rest L : List UInt8} {k n : Nat}
    (h : buf ++ rest = L.take k) (hn : n ≤ buf.length) : buf.take n = L.take n := by
  have hb : buf = (L.take k).take buf.length := by
    rw [← h, List.take_left]
  have hk : buf.length ≤ k := by
    have := congrArg List.length h
    simp only [List.length_append, List.length_take] at this
    omega
  rw [hb, List.take_take, List.take_take]
  congr 1
  omega

/-- Past a whole first part `A`, the buffer and what is left begin the prefix of the rest. -/
theorem drop_of_append_eq_take {buf rest A B : List UInt8} {k : Nat}
    (h : buf ++ rest = (A ++ B).take k) (hA : A.length ≤ buf.length) :
    buf.drop A.length ++ rest = B.take (k - A.length) := by
  have := congrArg (List.drop A.length) h
  rw [List.drop_append_of_le_length hA] at this
  rw [this, List.drop_take, List.drop_left]

/-- A buffer holding a frame's header reads back its stream and its payload's length. -/
theorem header_of_take {f : Frame} {tail buf rest : List UInt8} {k : Nat}
    (hf : f.2.length < 2 ^ 32) (h : buf ++ rest = (frameBytes f ++ tail).take k)
    (h8 : stdWriterPrefixLen ≤ buf.length) :
    buf.getD stdWriterFdIndex 0 = f.1.toByte ∧
      BigEndian.uint32 (buf.drop stdWriterSizeIndex) = f.2.length := by
  have hhead : buf.take 8 = [f.1.toByte, 0, 0, 0] ++ BigEndian.putUint32 (f.2.length % 2 ^ 32) := by
    rw [take_of_append_eq_take h (show 8 ≤ buf.length from h8),
      List.take_append_of_le_length (by simp), frameBytes_eq, List.take_left' (by simp)]
  have hsplit := List.take_append_drop 8 buf
  rw [hhead] at hsplit
  constructor
  · rw [← hsplit]
    rfl
  · rw [← hsplit]
    simp only [stdWriterSizeIndex, List.cons_append, List.nil_append, List.drop_succ_cons,
      List.drop_zero]
    rw [BigEndian.uint32_putUint32_append, Nat.mod_mod, Nat.mod_eq_of_lt hf]

/-- A buffer holding a whole frame holds its payload right after the header. -/
theorem payload_of_take {f : Frame} {tail buf rest : List UInt8} {k : Nat}
    (h : buf ++ rest = (frameBytes f ++ tail).take k) (hlen : (frameBytes f).length ≤ buf.length) :
    (buf.take (f.2.length + stdWriterPrefixLen)).drop stdWriterPrefixLen = f.2 := by
  have hframe : buf.take (f.2.length + 8) = frameBytes f := by
    rw [take_of_append_eq_take h (by simpa using hlen), List.take_append_of_le_length (by simp)]
    exact List.take_of_length_le (by simp)
  rw [show stdWriterPrefixLen = 8 from rfl, hframe, frameBytes_eq, List.append_assoc]
  simp only [List.cons_append, List.drop_succ_cons, List.nil_append]
  exact List.drop_left' (BigEndian.length_putUint32 _)

/-! ## 4. One round of the outer loop -/

/-- A payload length that a frame header holds and that `StdCopy`'s `int` sums hold: the
frame's length, and one more for the grown buffer, stay below the largest `int`. -/
def Fits (sz : IntSize) (n : Nat) : Prop :=
  n < 2 ^ 32 ∧ (n : Int) + stdWriterPrefixLen < sz.maxInt

instance (sz : IntSize) (n : Nat) : Decidable (Fits sz n) :=
  inferInstanceAs (Decidable (_ ∧ _))

section Round

variable (s : CopyState)

/-- Below the largest `int`, `grow` does not panic: it only makes room, for the frame too. -/
theorem grow_ok (sz : IntSize) {want : Int} (hmax : want < sz.maxInt) :
    ∃ bufLen, s.grow sz want = .ok { s with bufLen := bufLen } ∧ s.bufLen ≤ bufLen ∧
      want ≤ bufLen := by
  unfold CopyState.grow
  split_ifs with hgt hpanic
  · omega
  · exact ⟨_, rfl, by omega, by omega⟩
  · exact ⟨s.bufLen, rfl, le_rfl, by omega⟩

theorem deliver_eq (t : StdType) (frame : List UInt8) :
    s.deliver t frame =
      { s with
        dstout := s.dstout ++ (if t = .stderr then [] else frame)
        dsterr := s.dsterr ++ (if t = .stderr then frame else []) } := by
  cases t <;> simp [CopyState.deliver]

end Round

/-- The `int`s of a frame that fits are its payload's length and its own length. -/
theorem wrap_frameSize {sz : IntSize} {n : Nat} (hn : Fits sz n) :
    sz.wrap n = n ∧ sz.wrap (n + stdWriterPrefixLen) = n + stdWriterPrefixLen := by
  have h₀ := sz.maxInt_nonneg
  have h₁ := hn.2
  exact ⟨IntSize.wrap_of_le (by omega) (by omega), IntSize.wrap_of_le (by omega) (by omega)⟩

/-- The header at the front of a buffer, as a round reads it: the frame's stream, and its
payload's length as `frameSize` and as `want` less the header. -/
theorem header_fields {sz : IntSize} {f : Frame} {tail buf rest : List UInt8} {k : Nat}
    (hf : Fits sz f.2.length) (h : buf ++ rest = (frameBytes f ++ tail).take k)
    (h8 : stdWriterPrefixLen ≤ buf.length) :
    StdType.ofByte (buf.getD stdWriterFdIndex 0) = some f.1 ∧
      sz.wrap (BigEndian.uint32 (buf.drop stdWriterSizeIndex)) = f.2.length ∧
      sz.wrap (f.2.length + stdWriterPrefixLen) = f.2.length + stdWriterPrefixLen := by
  obtain ⟨hfd, hsize⟩ := header_of_take hf.1 h h8
  obtain ⟨hw₁, hw₂⟩ := wrap_frameSize hf
  refine ⟨?_, ?_, hw₂⟩
  · rw [hfd, StdType.ofByte_toByte]
  · rw [hsize, hw₁]

theorem toNat_want (n : Nat) : ((n : Int) + stdWriterPrefixLen).toNat = n + stdWriterPrefixLen := by
  omega

/-- The second read loop of a round: `grow` makes room for the whole frame, and the loop then
runs on the same source. -/
theorem grow_fill {sz : IntSize} {n : Nat} (s : CopyState) {cs : List (List UInt8)}
    (hn : Fits sz n) (hsrc : s.src = ofChunks cs) (hbuf : s.buf.length ≤ s.bufLen) :
    ∃ bufLen buf cs', s.grow sz (n + stdWriterPrefixLen) = .ok { s with bufLen := bufLen } ∧
      fill (n + stdWriterPrefixLen) { s with bufLen := bufLen } =
        some (if n + stdWriterPrefixLen ≤ buf.length
          then .full { s with bufLen := bufLen, buf := buf, src := ofChunks cs' }
          else .eof { s with bufLen := bufLen, buf := buf, src := ofChunks cs' }) ∧
      buf ++ cs'.flatten = s.buf ++ cs.flatten ∧ buf.length ≤ bufLen ∧
      n + stdWriterPrefixLen ≤ bufLen ∧ (buf.length < n + stdWriterPrefixLen → cs' = []) := by
  obtain ⟨bufLen, hgrow, hle, hroom⟩ := grow_ok s sz hn.2
  obtain ⟨buf, cs', hrun, hcat, hlen, hend⟩ :=
    @fill_ofChunks (n + stdWriterPrefixLen) { s with bufLen := bufLen } cs hsrc
      (by dsimp only; omega) (by dsimp only; omega)
  exact ⟨bufLen, buf, cs', hgrow, hrun, hcat, hlen, by omega, hend⟩

/-- `StdCopy` ends at a round whose stream has no whole frame at its front: `written` as it was,
and nothing more delivered. -/
theorem copyLoop_end {sz : IntSize} {fs : List Frame} {k fuel : Nat} {s : CopyState}
    {cs : List (List UInt8)}
    (hfs : ∀ f ∈ fs, Fits sz f.2.length) (hsrc : s.src = ofChunks cs)
    (hR : s.buf ++ cs.flatten = (fs.flatMap frameBytes).take k) (hend : completeFrames k fs = [])
    (hbuf : s.buf.length ≤ s.bufLen) (hpre : stdWriterPrefixLen ≤ s.bufLen) :
    copyLoop sz (fuel + 1) s = some (.ok (s.result s.written none)) := by
  obtain ⟨buf₁, cs₁, hrun₁, hcat₁, hlen₁, -⟩ := fill_ofChunks hsrc hbuf hpre
  rw [copyLoop, hrun₁]
  by_cases h8 : stdWriterPrefixLen ≤ buf₁.length
  · rw [if_pos h8]
    cases fs with
    | nil =>
      -- an empty stream holds no header
      have hnil : buf₁ = [] := by
        have := congrArg List.length (hcat₁.trans hR)
        simp only [List.flatMap_nil, List.take_nil, List.length_nil, List.length_append] at this
        exact List.eq_nil_of_length_eq_zero (by omega)
      rw [hnil] at h8
      exact absurd h8 (by decide)
    | cons f fs =>
      -- a whole header, but the frame behind it is cut off
      have hk : k < (frameBytes f).length := by
        unfold completeFrames at hend
        split at hend
        · cases hend
        · omega
      have hR₁ : buf₁ ++ cs₁.flatten = (frameBytes f ++ fs.flatMap frameBytes).take k := by
        rw [hcat₁, hR, List.flatMap_cons]
      have hfit := hfs f List.mem_cons_self
      obtain ⟨hfd, hsize, hwant⟩ := header_fields hfit hR₁ h8
      dsimp only
      rw [hfd]
      dsimp only
      rw [hsize, hwant]
      obtain ⟨bufLen, buf₂, cs₂, hgrow, hrun₂, hcat₂, -⟩ :=
        grow_fill { s with buf := buf₁, src := ofChunks cs₁ } hfit rfl hlen₁
      rw [hgrow, toNat_want]
      dsimp only at hrun₂ ⊢
      rw [hrun₂]
      have hshort : ¬f.2.length + stdWriterPrefixLen ≤ buf₂.length := by
        have hl := congrArg List.length (hcat₂.trans hR₁)
        simp only [List.length_append, List.length_take, length_frameBytes] at hl hk
        simp only [stdWriterPrefixLen]
        omega
      rw [if_neg hshort]
      simp [CopyState.result]
  · rw [if_neg h8]
    rfl

/-- A round on a stream whose front frame is whole: the payload goes to its writer, `written`
grows by its length, and the next round starts on the rest of the stream. -/
theorem copyLoop_frame {sz : IntSize} {f : Frame} {tail : List UInt8} {k : Nat} (fuel : Nat)
    {s : CopyState} {cs : List (List UInt8)} (hf : Fits sz f.2.length) (hsrc : s.src = ofChunks cs)
    (hR : s.buf ++ cs.flatten = (frameBytes f ++ tail).take k) (hk : (frameBytes f).length ≤ k)
    (hbuf : s.buf.length ≤ s.bufLen) (hpre : stdWriterPrefixLen ≤ s.bufLen) :
    ∃ s' cs', copyLoop sz (fuel + 1) s = copyLoop sz fuel s' ∧ s'.src = ofChunks cs' ∧
      s'.buf ++ cs'.flatten = tail.take (k - (frameBytes f).length) ∧
      s'.buf.length ≤ s'.bufLen ∧ stdWriterPrefixLen ≤ s'.bufLen ∧
      s'.written = s.written + Int64.ofNat f.2.length ∧
      s'.dstout = s.dstout ++ (if f.1 = .stderr then [] else f.2) ∧
      s'.dsterr = s.dsterr ++ (if f.1 = .stderr then f.2 else []) := by
  -- the stream holds the whole frame, so neither read loop meets `io.EOF`
  have hlong : ∀ buf, buf ++ [].flatten = (frameBytes f ++ tail).take k →
      (frameBytes f).length ≤ buf.length := by
    intro buf h
    have hl := congrArg List.length h
    simp only [List.flatten_nil, List.append_nil, List.length_take, List.length_append] at hl
    omega
  obtain ⟨buf₁, cs₁, hrun₁, hcat₁, hlen₁, hend₁⟩ := fill_ofChunks hsrc hbuf hpre
  have hR₁ := hcat₁.trans hR
  have h8 : stdWriterPrefixLen ≤ buf₁.length := by
    by_contra hlt
    have hb := hlong buf₁ (by rw [← hend₁ (Nat.lt_of_not_le hlt)]; exact hR₁)
    simp only [length_frameBytes, stdWriterPrefixLen] at hb hlt
    omega
  obtain ⟨hfd, hsize, hwant⟩ := header_fields hf hR₁ h8
  rw [copyLoop, hrun₁, if_pos h8]
  dsimp only
  rw [hfd]
  dsimp only
  rw [hsize, hwant]
  obtain ⟨bufLen, buf₂, cs₂, hgrow, hrun₂, hcat₂, hlen₂, hroom, hend₂⟩ :=
    grow_fill { s with buf := buf₁, src := ofChunks cs₁ } hf rfl hlen₁
  rw [hgrow, toNat_want]
  dsimp only at hrun₂ ⊢
  have hR₂ := hcat₂.trans hR₁
  have hfull : f.2.length + stdWriterPrefixLen ≤ buf₂.length := by
    by_contra hlt
    have hb := hlong buf₂ (by rw [← hend₂ (Nat.lt_of_not_le hlt)]; exact hR₂)
    simp only [length_frameBytes, stdWriterPrefixLen] at hb hlt
    omega
  have hfull8 : (frameBytes f).length ≤ buf₂.length := by
    rw [length_frameBytes]
    exact hfull
  rw [hrun₂, if_pos hfull]
  dsimp only
  -- `want` is the frame's length, past the header: no slice panic, and no short write
  rw [if_neg (by omega), payload_of_take hR₂ hfull8, if_neg (not_not.mpr rfl), deliver_eq]
  refine ⟨_, cs₂, rfl, rfl, ?_, ?_, ?_, ?_, ?_, ?_⟩
  · -- what is left past the frame
    have hdrop := drop_of_append_eq_take hR₂ hfull8
    rw [length_frameBytes] at hdrop
    exact hdrop
  · dsimp only at hlen₂ ⊢
    simp only [List.length_drop]
    omega
  · dsimp only
    omega
  · simp
  · simp
  · simp

/-! ## 5. Whole runs -/

/-- From a round whose buffer and source hold a prefix of the frames `fs`, `StdCopy` delivers
the payloads of the frames lying whole in the prefix and ends without an error. -/
theorem copyLoop_frames (sz : IntSize) : ∀ (fs : List Frame) (k fuel : Nat) (s : CopyState)
    (cs : List (List UInt8)), (∀ f ∈ fs, Fits sz f.2.length) → s.src = ofChunks cs →
    s.buf ++ cs.flatten = (fs.flatMap frameBytes).take k →
    s.buf.length ≤ s.bufLen → stdWriterPrefixLen ≤ s.bufLen →
    (s.buf ++ cs.flatten).length < fuel →
    copyLoop sz fuel s = some (.ok
      { written := s.written + Int64.ofNat (payloadTotal (completeFrames k fs)), err := none,
        dstout := s.dstout ++ toStdout (completeFrames k fs),
        dsterr := s.dsterr ++ toStderr (completeFrames k fs) })
  | _, _, 0, _, _, _, _, _, _, _, hfuel => absurd hfuel (Nat.not_lt_zero _)
  | [], k, fuel + 1, s, cs, hfs, hsrc, hR, hbuf, hpre, _ => by
    rw [copyLoop_end hfs hsrc hR rfl hbuf hpre]
    simp [CopyState.result, completeFrames, payloadTotal, toStdout, toStderr]
  | f :: fs, k, fuel + 1, s, cs, hfs, hsrc, hR, hbuf, hpre, hfuel => by
    by_cases hk : (frameBytes f).length ≤ k
    · -- the front frame is whole: one round delivers it, the rest is the same run on `fs`
      rw [List.flatMap_cons] at hR
      obtain ⟨s', cs', hstep, hsrc', hR', hbuf', hpre', hw, hout, herr⟩ :=
        copyLoop_frame fuel (hfs f List.mem_cons_self) hsrc hR hk hbuf hpre
      have hshorter : (s'.buf ++ cs'.flatten).length < fuel := by
        have h₁ := congrArg List.length hR
        have h₂ := congrArg List.length hR'
        simp only [List.length_append, List.length_take, length_frameBytes] at h₁ h₂ hk hfuel ⊢
        omega
      rw [hstep, copyLoop_frames sz fs (k - (frameBytes f).length) fuel s' cs'
        (fun g hg => hfs g (List.mem_cons_of_mem f hg)) hsrc' hR' hbuf' hpre' hshorter]
      have hcons : completeFrames k (f :: fs) =
          f :: completeFrames (k - (frameBytes f).length) fs := by
        rw [completeFrames, if_pos hk]
      rw [hcons, hw, hout, herr, payloadTotal_cons, toStdout_cons, toStderr_cons,
        Int64.ofNat_add, Int64.add_assoc, List.append_assoc, List.append_assoc]
    · -- the front frame is cut off: this round is the last
      have hnil : completeFrames k (f :: fs) = [] := by
        rw [completeFrames, if_neg hk]
      rw [copyLoop_end hfs hsrc hR hnil hbuf hpre, hnil]
      simp [CopyState.result, payloadTotal, toStdout, toStderr]

/-- `StdCopy` on any delivery of any prefix of a stream of frames. -/
theorem stdCopy_ofChunks {sz : IntSize} {fs : List Frame} (hfs : ∀ f ∈ fs, Fits sz f.2.length)
    {k : Nat} {chunks : List (List UInt8)} (hP : chunks.flatten = (fs.flatMap frameBytes).take k) :
    stdCopy sz (ofChunks chunks) = some (.ok
      { written := Int64.ofNat (payloadTotal (completeFrames k fs)), err := none,
        dstout := toStdout (completeFrames k fs), dsterr := toStderr (completeFrames k fs) }) := by
  unfold stdCopy
  rw [copyLoop_frames sz fs k _ _ chunks hfs rfl (by rw [List.nil_append, hP])
    (by simp [startingBufLen]) (by simp [startingBufLen, stdWriterPrefixLen])
    (by simpa using Nat.lt_succ_of_le (length_flatten_le_size (ε := String) chunks))]
  simp

theorem frames_fit {sz : IntSize} {ws : List (StdType × Option (List UInt8))}
    (hws : ∀ w ∈ ws, ∀ p, w.2 = some p →
      p.length < 2 ^ 32 ∧ (p.length : Int) + stdWriterPrefixLen < sz.maxInt) :
    ∀ f ∈ frames ws, Fits sz f.2.length := by
  intro f hf
  obtain ⟨w, hw, hmap⟩ := List.mem_filterMap.mp hf
  obtain ⟨p, hp, rfl⟩ := Option.map_eq_some_iff.mp hmap
  exact hws w hw p hp

/-- `StdCopy` on any delivery of any prefix of what `stdWriter` wrote, with payloads whose frame
fits an `int`: `dstout` gets the payloads of the whole `Stdin` and `Stdout` frames of the prefix,
`dsterr` those of the whole `Stderr` frames, in order, and `StdCopy` returns a nil error with
`written` the payloads' total length as an `int64`. -/
theorem stdCopy_frames (sz : IntSize) (ws : List (StdType × Option (List UInt8)))
    (hws : ∀ w ∈ ws, ∀ p, w.2 = some p →
      p.length < 2 ^ 32 ∧ (p.length : Int) + stdWriterPrefixLen < sz.maxInt) (k : Nat)
    (chunks : List (List UInt8)) (hP : chunks.flatten = (writeAll ws).take k) :
    stdCopy sz (ofChunks chunks) = some (.ok
      { written := Int64.ofNat (payloadTotal (completeFrames k (frames ws))), err := none,
        dstout := toStdout (completeFrames k (frames ws)),
        dsterr := toStderr (completeFrames k (frames ws)) }) := by
  rw [writeAll_eq] at hP
  exact stdCopy_ofChunks (frames_fit hws) hP

/-- Two frames on a 32-bit platform, read back in reads of one, ten and the remaining bytes. -/
theorem stdCopy_frames_two_frames :
    (∀ w ∈ [(StdType.stdout, some [1, 2, 3]), (StdType.stderr, some [4])],
      ∀ p : List UInt8, w.2 = some p →
        p.length < 2 ^ 32 ∧ (p.length : Int) + stdWriterPrefixLen < IntSize.bits32.maxInt) ∧
    [[1], [0, 0, 0, 0, 0, 0, 3, 1, 2, 3], [2, 0, 0, 0, 0, 0, 0, 1, 4]].flatten =
      (writeAll [(StdType.stdout, some [1, 2, 3]), (StdType.stderr, some [4])]).take 20 ∧
    stdCopy .bits32 (ofChunks [[1], [0, 0, 0, 0, 0, 0, 3, 1, 2, 3], [2, 0, 0, 0, 0, 0, 0, 1, 4]]) =
      some (.ok { written := 4, err := none, dstout := [1, 2, 3], dsterr := [4] }) := by
  have hws : ∀ w ∈ [(StdType.stdout, some [1, 2, 3]), (StdType.stderr, some [4])],
      ∀ p : List UInt8, w.2 = some p →
        p.length < 2 ^ 32 ∧ (p.length : Int) + stdWriterPrefixLen < IntSize.bits32.maxInt := by
    intro w hw p hp
    simp only [List.mem_cons, List.not_mem_nil, or_false] at hw
    rcases hw with rfl | rfl <;> cases hp <;> decide
  have hP : [[1], [0, 0, 0, 0, 0, 0, 3, 1, 2, 3], [2, 0, 0, 0, 0, 0, 0, 1, 4]].flatten =
      (writeAll [(StdType.stdout, some [1, 2, 3]), (StdType.stderr, some [4])]).take 20 := by
    decide
  refine ⟨hws, hP, ?_⟩
  rw [stdCopy_frames .bits32 _ hws 20 _ hP]
  decide

/-- In a stream read to its end every frame is whole. -/
theorem completeFrames_all (fs : List Frame) :
    completeFrames (fs.flatMap frameBytes).length fs = fs := by
  induction fs with
  | nil => rfl
  | cons f fs ih =>
    rw [completeFrames, List.flatMap_cons, List.length_append, if_pos (Nat.le_add_right _ _),
      Nat.add_sub_cancel_left, ih]

theorem frames_replicate (n : Nat) (t : StdType) (p : List UInt8) :
    frames (List.replicate n (t, some p)) = List.replicate n (t, p) := by
  induction n with
  | zero => rfl
  | succ n ih =>
    rw [List.replicate_succ, List.replicate_succ, ← ih]
    rfl

/-- `written` is an `int64`: on a 64-bit platform the 2^31 + 1 frames of 2^32 - 1 bytes each of a
stream read whole total more than 2^63 - 1 bytes, and `StdCopy` does not return their total. -/
theorem stdCopy_written_wraps :
    ∃ c, stdCopy .bits64 (ofChunks [writeAll (List.replicate (2 ^ 31 + 1)
        (StdType.stdout, some (List.replicate (2 ^ 32 - 1) 0)))]) = some (.ok c) ∧
      c.written.toInt ≠ (payloadTotal (frames (List.replicate (2 ^ 31 + 1)
        (StdType.stdout, some (List.replicate (2 ^ 32 - 1) 0)))) : Int) := by
  rw [frames_replicate, writeAll_eq, frames_replicate]
  have hfs : ∀ f ∈ List.replicate (2 ^ 31 + 1) (StdType.stdout, List.replicate (2 ^ 32 - 1)
      (0 : UInt8)), Fits .bits64 f.2.length := by
    intro f hf
    rw [List.eq_of_mem_replicate hf, List.length_replicate]
    decide
  have hP : [(List.replicate (2 ^ 31 + 1) (StdType.stdout, List.replicate (2 ^ 32 - 1)
      (0 : UInt8))).flatMap frameBytes].flatten =
      ((List.replicate (2 ^ 31 + 1) (StdType.stdout, List.replicate (2 ^ 32 - 1)
        (0 : UInt8))).flatMap frameBytes).take
      ((List.replicate (2 ^ 31 + 1) (StdType.stdout, List.replicate (2 ^ 32 - 1)
        (0 : UInt8))).flatMap frameBytes).length := by
    rw [List.flatten_singleton, List.take_length]
  have htotal : payloadTotal (List.replicate (2 ^ 31 + 1)
      (StdType.stdout, List.replicate (2 ^ 32 - 1) (0 : UInt8))) = (2 ^ 31 + 1) * (2 ^ 32 - 1) := by
    simp only [payloadTotal, List.map_replicate, List.sum_replicate_nat, List.length_replicate]
  refine ⟨_, stdCopy_ofChunks hfs hP, ?_⟩
  rw [completeFrames_all, htotal]
  decide

/-- The first eight bytes of a one-frame stream are the frame's header. -/
theorem writeAll_take_header (t : StdType) (p : List UInt8) :
    (writeAll [(t, some p)]).take 8 = [t.toByte, 0, 0, 0] ++ BigEndian.putUint32 (p.length % 2 ^ 32) := by
  rw [writeAll_eq]
  simp only [frames, List.filterMap_cons, Option.map_some, List.filterMap_nil, List.flatMap_cons,
    List.flatMap_nil, List.append_nil, frameBytes_eq]
  rw [List.take_append_of_le_length (by simp), List.take_of_length_le (by simp)]

/-- On a 32-bit platform the header alone of a frame of 2^31 - 9 bytes makes `StdCopy` panic when
it grows its buffer to `frameSize+stdWriterPrefixLen+1` bytes, one past the largest `int`; and
that of a frame of 2^31 bytes, whose `frameSize` wraps to a negative `int`, when it slices the
frame out of its buffer. -/
theorem stdCopy_header_panics :
    stdCopy .bits32 (ofChunks [(writeAll [(StdType.stdout,
        some (List.replicate (2 ^ 31 - 9) 0))]).take 8]) =
      some (.error "runtime error: growslice: cap out of range") ∧
    stdCopy .bits32 (ofChunks [(writeAll [(StdType.stdout,
        some (List.replicate (2 ^ 31) 0))]).take 8]) =
      some (.error "runtime error: slice bounds out of range") := by
  rw [writeAll_take_header, writeAll_take_header, List.length_replicate, List.length_replicate]
  decide

/-- The two ways the `int`s of `StdCopy` give out on frames of fewer than 2^32 bytes: a 32-bit
platform panics on the header of a frame of 2^31 - 9 bytes or more, and a 64-bit one returns a
wrapped `written` once the total passes 2^63 - 1. -/
theorem stdCopy_int_limits :
    (stdCopy .bits32 (ofChunks [(writeAll [(StdType.stdout,
        some (List.replicate (2 ^ 31 - 9) 0))]).take 8]) =
      some (.error "runtime error: growslice: cap out of range") ∧
    stdCopy .bits32 (ofChunks [(writeAll [(StdType.stdout,
        some (List.replicate (2 ^ 31) 0))]).take 8]) =
      some (.error "runtime error: slice bounds out of range")) ∧
    ∃ c, stdCopy .bits64 (ofChunks [writeAll (List.replicate (2 ^ 31 + 1)
        (StdType.stdout, some (List.replicate (2 ^ 32 - 1) 0)))]) = some (.ok c) ∧
      c.written.toInt ≠ (payloadTotal (frames (List.replicate (2 ^ 31 + 1)
        (StdType.stdout, some (List.replicate (2 ^ 32 - 1) 0)))) : Int) :=
  ⟨stdCopy_header_panics, stdCopy_written_wraps⟩

end Docker.Stdcopy
