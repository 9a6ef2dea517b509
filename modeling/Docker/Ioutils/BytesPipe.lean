import Docker.Ioutils.FixedBuffer

/-!
# BytesPipe — a queue of fixed buffers between one writer and one reader

`pkg/ioutils/bytespipe.go`.  A `Write` fills the last buffer and appends new ones of doubling
capacity; once `bufLen` reaches `blockThreshold` it waits in `bp.wait.Wait()`, giving up the
lock.  A `Read` drains buffers from the front and drops the emptied ones; on an empty pipe it
waits too.  Each call is a run of critical sections under `bp.mu`, cut at its `Wait`, so the
model is a step function over the pipe, where the writer and the reader each are idle or waiting,
and a waiting party may wake at any time: every schedule of the Go code is a run of `step`.

The loops carry a number of turns that the calls cannot exceed (`Write` writes a byte in every
turn after its first, `Read` drops a buffer in every turn but its last); running out of turns,
like indexing an empty `bp.buf`, ends `step` in an error.  `bufLen`, an `int` in Go, is a `Nat`:
the invariant shows that it never goes below zero.
-/

namespace Docker.Ioutils

def maxCap : Nat := 1000000

def minCap : Nat := 64

def blockThreshold : Nat := 1000000

/-- `ErrClosed`. -/
def errClosed : String := "write to closed BytesPipe"

/-- `io.EOF`. -/
def errEOF : String := "EOF"

/-- The panic of `bp.buf[i]` on an index out of range. -/
def indexPanic : String := "index out of range"

/-- Not Go's: a loop of the model ran out of turns. -/
def outOfTurns : String := "out of turns"

/-- `BytesPipe`, without its mutex and condition variable. -/
structure BytesPipe where
  buf : List FixedBuffer
  bufLen : Nat
  closeErr : Option String

/-- `NewBytesPipe()`. -/
def newBytesPipe : BytesPipe :=
  { buf := [getBuffer minCap], bufLen := 0, closeErr := none }

/-- `bp.buf = append(bp.buf, getBuffer(size))`. -/
def BytesPipe.addBuffer (bp : BytesPipe) (size : Nat) : BytesPipe :=
  { bp with buf := bp.buf ++ [getBuffer size] }

/-- `nextCap := b.Cap() * 2`, at most `maxCap`. -/
def nextCap (c : Nat) : Nat :=
  min (c * 2) maxCap

/-! ## Write -/

/-- Where a `Write` leaves the lock: it returned `written, err`, or it waits in `bp.wait.Wait()`
with what is left of `p`, the count so far and the capacity of the buffer it filled. -/
inductive WriteStop where
  | returned (written : Nat) (err : Option String)
  | waiting (p : List UInt8) (written : Nat) (lastCap : Nat)

def WriteStop.written : WriteStop → Nat
  | .returned written _ => written
  | .waiting _ written _ => written

/-- `loop0` of `Write` from its top, for at most `fuel` turns. -/
def writeLoop : Nat → BytesPipe → List UInt8 → Nat → Except String (WriteStop × BytesPipe)
  | 0, _, _, _ => .error outOfTurns
  | fuel + 1, bp, p, written =>
    match bp.closeErr with
    | some _ => .ok (.returned written (some errClosed), bp)
    | none =>
      let bp := if bp.buf.length = 0 then bp.addBuffer 64 else bp
      -- get the last buffer
      match bp.buf.getLast? with
      | none => .error indexPanic
      | some b =>
        let (b', n, err) := b.write p
        let bp := { bp with buf := bp.buf.dropLast ++ [b'], bufLen := bp.bufLen + n }
        let written := written + n
        if err.isSome ∧ err ≠ some errBufferFull then .ok (.returned written err, bp)
        else if p.length = n then .ok (.returned written none, bp)
        -- `for bp.bufLen >= blockThreshold { bp.wait.Wait() ... }`
        else if blockThreshold ≤ bp.bufLen then .ok (.waiting (p.drop n) written b.cap, bp)
        else
          writeLoop fuel (bp.addBuffer (nextCap b.cap)) (p.drop n) written

/-- `Write(p)`. -/
def writeStart (bp : BytesPipe) (p : List UInt8) : Except String (WriteStop × BytesPipe) :=
  writeLoop (p.length + 2) bp p 0

/-- `Write` when `bp.wait.Wait()` returns: `continue loop0` if the pipe was closed, wait again
while `bufLen` is at the threshold, and otherwise a new buffer and `loop0` again. -/
def writeResume (bp : BytesPipe) (p : List UInt8) (written lastCap : Nat) :
    Except String (WriteStop × BytesPipe) :=
  match bp.closeErr with
  | some _ => writeLoop (p.length + 1) bp p written
  | none =>
    if blockThreshold ≤ bp.bufLen then .ok (.waiting p written lastCap, bp)
    else writeLoop (p.length + 1) (bp.addBuffer (nextCap lastCap)) p written

/-- `CloseWithError(err)`; `none` is a nil `err`. -/
def closeWithError (bp : BytesPipe) (err : Option String) : BytesPipe :=
  { bp with closeErr := some (err.getD errEOF) }

/-! ## Read -/

/-- Where a `Read` leaves the lock: it returned the bytes it copied and `err`, or it waits. -/
inductive ReadStop where
  | returned (data : List UInt8) (err : Option String)
  | waiting

/-- `for bp.bufLen > 0 { b := bp.buf[0] ... }` reading into a slice of length `want`, for at
most `fuel` turns; `got` is what it copied so far. -/
def readLoop : Nat → BytesPipe → Nat → List UInt8 → Except String (List UInt8 × BytesPipe)
  | 0, _, _, _ => .error outOfTurns
  | fuel + 1, bp, want, got =>
    if 0 < bp.bufLen then
      match bp.buf with
      | [] => .error indexPanic
      | b :: bs =>
        let (b', d) := b.read want
        let bp := { bp with bufLen := bp.bufLen - d.length }
        -- an emptied buffer goes back to its pool
        let bp := if b'.len = 0 then { bp with buf := bs } else { bp with buf := b' :: bs }
        if want = d.length then .ok (got ++ d, bp)
        else readLoop fuel bp (want - d.length) (got ++ d)
    else .ok (got, bp)

/-- The copying part of `Read`. -/
def readRest (bp : BytesPipe) (want : Nat) : Except String (ReadStop × BytesPipe) :=
  (readLoop (bp.buf.length + 1) bp want []).map fun r => (.returned r.1 none, r.2)

/-- `Read(p)` with `len(p) = want`. -/
def readStart (bp : BytesPipe) (want : Nat) : Except String (ReadStop × BytesPipe) :=
  if bp.bufLen = 0 then
    match bp.closeErr with
    | some e => .ok (.returned [] (some e), bp)
    | none => .ok (.waiting, bp)
  else readRest bp want

/-- `Read` when `bp.wait.Wait()` returns. -/
def readResume (bp : BytesPipe) (want : Nat) : Except String (ReadStop × BytesPipe) :=
  match bp.closeErr with
  | some e => if bp.bufLen = 0 then .ok (.returned [] (some e), bp) else readRest bp want
  | none => readRest bp want

/-! ## One writer and one reader -/

inductive WriterPc where
  | idle
  | waiting (p : List UInt8) (written lastCap : Nat)

inductive ReaderPc where
  | idle
  | waiting (want : Nat)

/-- The pipe, where its writer and its reader are, and the bytes the writes have put in and the
reads have taken out so far. -/
structure PipeSystem where
  pipe : BytesPipe
  writer : WriterPc
  reader : ReaderPc
  accepted : List UInt8
  delivered : List UInt8

def PipeSystem.init : PipeSystem :=
  { pipe := newBytesPipe, writer := .idle, reader := .idle, accepted := [], delivered := [] }

/-- What the writer, the reader or anyone holding the pipe does next. -/
inductive PipeOp where
  | write (p : List UInt8)
  | wakeWriter
  | read (want : Nat)
  | wakeReader
  | closeWithError (err : Option String)

def WriteStop.toPc : WriteStop → WriterPc
  | .returned _ _ => .idle
  | .waiting p written lastCap => .waiting p written lastCap

/-- The system after a stretch of a `Write` that started with `p` left and `written₀` written:
the stretch wrote `p.take (written - written₀)`. -/
def PipeSystem.afterWrite (s : PipeSystem) (p : List UInt8) (written₀ : Nat) :
    WriteStop × BytesPipe → PipeSystem
  | (stop, bp) =>
    { s with pipe := bp, writer := stop.toPc,
             accepted := s.accepted ++ p.take (stop.written - written₀) }

def PipeSystem.afterRead (s : PipeSystem) (want : Nat) : ReadStop × BytesPipe → PipeSystem
  | (.returned data _, bp) => { s with pipe := bp, reader := .idle, delivered := s.delivered ++ data }
  | (.waiting, bp) => { s with pipe := bp, reader := .waiting want }

/-- One step; a call its party cannot make now (a second `Write` while one waits) changes
nothing. -/
def step (s : PipeSystem) : PipeOp → Except String PipeSystem
  | .write p =>
    match s.writer with
    | .idle => (writeStart s.pipe p).map (s.afterWrite p 0)
    | .waiting _ _ _ => .ok s
  | .wakeWriter =>
    match s.writer with
    | .idle => .ok s
    | .waiting p written lastCap => (writeResume s.pipe p written lastCap).map (s.afterWrite p written)
  | .read want =>
    match s.reader with
    | .idle => (readStart s.pipe want).map (s.afterRead want)
    | .waiting _ => .ok s
  | .wakeReader =>
    match s.reader with
    | .idle => .ok s
    | .waiting want => (readResume s.pipe want).map (s.afterRead want)
  | .closeWithError err => .ok { s with pipe := closeWithError s.pipe err }

end Docker.Ioutils
