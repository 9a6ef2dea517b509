import Docker.Reasoning.BigEndian
import Docker.Reasoning.ChunkReader

/-!
# StdCopy — standard streams multiplexed over one byte stream

`pkg/stdcopy`: `stdWriter.Write` sends each payload behind an eight-byte header, the stream's
type in byte 0 and the payload's length big-endian in bytes 4 to 7, and `StdCopy` reads such a
stream back and splits the payloads between `dstout` and `dsterr`.  The writers behind
`stdWriter` and `StdCopy` are ones that take every byte; the source is a
`ChunkReader.Source`.

`StdCopy`'s buffer is kept as its valid part `buf[:nr]`, so `nr` is its length; the bytes past
`nr` are never read before they are written.  Its loops run until `io.EOF`; the model gives each
of them as many rounds as the source can take reads (`ChunkReader.size`).

`frameSize` and the sums made from it are Go `int`s, 32 or 64 bits wide with the platform
(`IntSize`), and wrap there.  A run of `StdCopy` that panics ends in `.error` with the panic's
message; memory is not bounded, so an allocation only fails where its length is out of `int`
range.
-/

namespace Docker.Stdcopy

/-- `StdType`: the standard stream a frame belongs to. -/
inductive StdType where
  | stdin
  | stdout
  | stderr
  deriving DecidableEq, Repr

/-- `byte(t)`, the header's first byte. -/
def StdType.toByte : StdType → UInt8
  | .stdin => 0
  | .stdout => 1
  | .stderr => 2

/-- `StdType(b)` as the `switch` of `StdCopy` sees it: only the three constants name a stream. -/
def StdType.ofByte (b : UInt8) : Option StdType :=
  if b = 0 then some .stdin
  else if b = 1 then some .stdout
  else if b = 2 then some .stderr
  else none

def stdWriterPrefixLen : Nat := 8

def stdWriterFdIndex : Nat := 0

def stdWriterSizeIndex : Nat := 4

def startingBufLen : Nat := 32 * 1024 + stdWriterPrefixLen + 1

/-- The width of Go's `int` on the platform the code is built for (`strconv.IntSize`). -/
inductive IntSize where
  | bits32
  | bits64
  deriving DecidableEq, Repr

def IntSize.bits : IntSize → Nat
  | .bits32 => 32
  | .bits64 => 64

/-- The largest `int`. -/
def IntSize.maxInt (sz : IntSize) : Int := 2 ^ (sz.bits - 1) - 1

/-- `int(x)`, and the result of `int` arithmetic: `x` wrapped to the platform's width. -/
def IntSize.wrap (sz : IntSize) (x : Int) : Int := x.bmod (2 ^ sz.bits)

theorem IntSize.maxInt_nonneg (sz : IntSize) : 0 ≤ sz.maxInt := by
  cases sz <;> decide

/-- An `int` that is in range stays as it is. -/
theorem IntSize.wrap_of_le {sz : IntSize} {x : Int} (h₀ : -sz.maxInt ≤ x) (h₁ : x ≤ sz.maxInt) :
    sz.wrap x = x := by
  unfold IntSize.wrap
  cases sz <;> simp only [IntSize.maxInt, IntSize.bits] at h₀ h₁ ⊢ <;>
    exact Int.bmod_eq_of_le (by push_cast; omega) (by push_cast; omega)

/-! ## Writing -/

/-- `stdWriter.Write(p)` on `NewStdWriter(w, t)` with `prefix = t.toByte`, into a writer `w`
that takes every byte: what reaches `w`, and the count returned.  `none` is a nil `p`. -/
def stdWriterWrite (pfx : UInt8) : Option (List UInt8) → List UInt8 × Nat
  | none => ([], 0)
  | some p =>
    let header := [pfx, 0, 0, 0] ++ BigEndian.putUint32 (p.length % 2 ^ 32)
    let frame := header ++ p
    -- `n -= stdWriterPrefixLen`, and `n` is clamped at zero
    (frame, frame.length - stdWriterPrefixLen)

/-- The byte stream a sequence of writes `(t_i, p_i)` through `NewStdWriter(w, t_i)` puts on one
writer `w`. -/
def writeAll (ws : List (StdType × Option (List UInt8))) : List UInt8 :=
  ws.flatMap fun w => (stdWriterWrite w.1.toByte w.2).1

/-! ## Reading -/

/-- The locals of `StdCopy` that its loops carry: `buf[:nr]`, `bufLen`, `written`, what the two
destinations have received, and what `src` has still to deliver. -/
structure CopyState where
  buf : List UInt8
  bufLen : Nat
  written : Int64
  dstout : List UInt8
  dsterr : List UInt8
  src : ChunkReader.Source String UInt8

/-- How one of `StdCopy`'s read loops ends. -/
inductive Filled where
  /-- `nr` reached what the loop wanted. -/
  | full (s : CopyState)
  /-- `io.EOF` came first: `StdCopy` returns `written, nil`. -/
  | eof (s : CopyState)
  /-- Another read error: `StdCopy` returns `0, er`. -/
  | error (e : String) (s : CopyState)

/-- `for nr < want { nr2, er = src.Read(buf[nr:]); nr += nr2; ... }`, for at most `fuel`
rounds. -/
def fillLoop : Nat → Nat → CopyState → Option Filled
  | 0, _, _ => none
  | fuel + 1, want, s =>
    if s.buf.length < want then
      match ChunkReader.read (s.bufLen - s.buf.length) s.src with
      | .error e => some (.error e s)
      -- `io.EOF` comes with no bytes, so `nr < want` still holds: the early return
      | .ok none => some (.eof s)
      | .ok (some (d, src)) => fillLoop fuel want { s with buf := s.buf ++ d, src := src }
    else some (.full s)

/-- A read loop, with a round for every read the source can take. -/
def fill (want : Nat) (s : CopyState) : Option Filled :=
  fillLoop (ChunkReader.size s.src + 1) want s

/-- What `StdCopy` returns, with what the two destinations received. -/
structure Copied where
  written : Int64
  err : Option String
  dstout : List UInt8
  dsterr : List UInt8
  deriving DecidableEq, Repr

/-- `StdCopy` returning `written, err` in state `s`. -/
def CopyState.result (s : CopyState) (written : Int64) (err : Option String) : Copied :=
  { written := written, err := err, dstout := s.dstout, dsterr := s.dsterr }

/-- `if frameSize+stdWriterPrefixLen > bufLen { buf = append(buf, ...) }`, with `want` the `int`
sum `frameSize+stdWriterPrefixLen`: room in the buffer for the whole frame.  The `append` panics
when the new length, `want+1`, is past the largest `int`. -/
def CopyState.grow (sz : IntSize) (s : CopyState) (want : Int) : Except String CopyState :=
  if want > s.bufLen then
    if sz.maxInt < want + 1 then .error "runtime error: growslice: cap out of range"
    else .ok { s with bufLen := s.bufLen + (want - s.bufLen + 1).toNat }
  else .ok s

/-- `out.Write(frame)` on the writer the `switch` picked: `Stdin` falls through to `Stdout`. -/
def CopyState.deliver (s : CopyState) (t : StdType) (frame : List UInt8) : CopyState :=
  match t with
  | .stderr => { s with dsterr := s.dsterr ++ frame }
  | _ => { s with dstout := s.dstout ++ frame }

/-- The body of `StdCopy`'s outer `for`, for at most `fuel` rounds; `.error` is a panic. -/
def copyLoop (sz : IntSize) : Nat → CopyState → Option (Except String Copied)
  | 0, _ => none
  | fuel + 1, s =>
    match fill stdWriterPrefixLen s with
    | none => none
    | some (.error e s) => some (.ok (s.result 0 (some e)))
    | some (.eof s) => some (.ok (s.result s.written none))
    | some (.full s) =>
      let fd := s.buf.getD stdWriterFdIndex 0
      match StdType.ofByte fd with
      | none => some (.ok (s.result 0 (some ("Unrecognized input header: " ++ toString fd.toNat))))
      | some t =>
        let frameSize := sz.wrap (BigEndian.uint32 (s.buf.drop stdWriterSizeIndex))
        let want := sz.wrap (frameSize + stdWriterPrefixLen)
        match s.grow sz want with
        | .error msg => some (.error msg)
        | .ok s =>
          -- a `want` below `nr` runs no read
          match fill want.toNat s with
          | none => none
          | some (.error e s) => some (.ok (s.result 0 (some e)))
          | some (.eof s) => some (.ok (s.result s.written none))
          | some (.full s) =>
            -- `buf[stdWriterPrefixLen:want]` panics when `want` wrapped below its start
            if want < stdWriterPrefixLen then
              some (.error "runtime error: slice bounds out of range")
            else
            let frame := (s.buf.take want.toNat).drop stdWriterPrefixLen
            -- the writers take every byte: `nw` is the frame's length
            let nw := frame.length
            let s := s.deliver t frame
            if (nw : Int) ≠ frameSize then some (.ok (s.result 0 (some "short write"))) else
            copyLoop sz fuel
              { s with written := s.written + Int64.ofNat nw,
                       buf := s.buf.drop want.toNat }

/-- `StdCopy(dstout, dsterr, src)`; `none` only if the rounds ran out. -/
def stdCopy (sz : IntSize) (src : ChunkReader.Source String UInt8) :
    Option (Except String Copied) :=
  copyLoop sz (ChunkReader.size src + 1)
    { buf := [], bufLen := startingBufLen, written := 0, dstout := [], dsterr := [], src := src }

end Docker.Stdcopy
