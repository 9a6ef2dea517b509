import Mathlib

/-!
# ResumableRequestReader — resuming a download after failures

`resumableRequestReader.Read` reads the body of the current response; when there is none it sends
the request again, with a `Range` header from the bytes already read once some have been.  A
failed request is counted, and after `maxFailures` of them `Read` returns the error.  A body whose
read fails is dropped without being counted, and the next `Read` resumes.

Against a server that answers every request honestly (a transport error, or the status its
`Range` header asks for with a body carrying the resource from there), a copy that ends without
an error has delivered exactly the resource (`copyAll_eq_resource`).  It need not end: when every
body breaks off before its first byte, each `Read` returns `(0, nil)` and `io.Copy` never returns
(`copyAll_cutShortServer_never_ends`).
-/

namespace Docker.Httputils

/-! ## 1. The reader -/

/-- The error a `Read` returns with its bytes: `io.EOF`, or another one. -/
inductive ReadErr
  | eof
  | other (msg : String)
  deriving DecidableEq, Repr

/-- A response: its status, `ContentLength`, and what the reads of its body return, in order
(once those are used up, `io.EOF`). -/
structure Response where
  statusCode : Nat
  contentLength : Int
  body : List (List UInt8 × Option ReadErr)
  deriving DecidableEq, Repr

/-- `r.currentResponse.Body.Read(p)`. -/
def Response.read (resp : Response) : List UInt8 × Option ReadErr × Response :=
  match resp.body with
  | [] => ([], some .eof, resp)
  | (bytes, err) :: rest => (bytes, err, { resp with body := rest })

/-- `resumableRequestReader`, with the `Range` header of `r.request` and the number of requests sent
so far; `closed` once `Close` has set the client and the request to nil. -/
structure ResumableReader where
  closed : Bool
  range : Option (Int × Int)
  lastRange : Int
  totalSize : Int
  currentResponse : Option Response
  failures : UInt32
  maxFailures : UInt32
  sent : Nat
  deriving DecidableEq, Repr

/-- `ResumableRequestReader(c, r, maxfail, totalsize)`. -/
def resumableRequestReader (maxfail : UInt32) (totalsize : Int) : ResumableReader :=
  ⟨false, none, 0, totalsize, none, 0, maxfail, 0⟩

/-- `ResumableRequestReaderWithInitialResponse(c, r, maxfail, totalsize, initialResponse)`. -/
def resumableRequestReaderWithInitialResponse (maxfail : UInt32) (totalsize : Int)
    (initialResponse : Response) : ResumableReader :=
  ⟨false, none, 0, totalsize, some initialResponse, 0, maxfail, 0⟩

/-- `n, err = r.currentResponse.Body.Read(p)` and what `Read` does with it. -/
def bodyRead (r : ResumableReader) (resp : Response) :
    (List UInt8 × Option ReadErr) × ResumableReader :=
  let (bytes, err, resp) := resp.read
  let r := { r with lastRange := r.lastRange + bytes.length, currentResponse := some resp }
  match err with
  | none => ((bytes, none), r)
  | some .eof => ((bytes, some .eof), { r with currentResponse := none })
  -- logged and cleared: the next `Read` resumes
  | some (.other _) => ((bytes, none), { r with currentResponse := none })

/-- `Read` once a response is in hand; `isFresh` when it was just requested. -/
def readResponse (r : ResumableReader) (resp : Response) (isFresh : Bool) :
    (List UInt8 × Option ReadErr) × ResumableReader :=
  if resp.statusCode = 416 ∧ r.lastRange = r.totalSize ∧ resp.contentLength = 0 then
    (([], some .eof), { r with currentResponse := none })
  else if resp.statusCode ≠ 206 ∧ r.lastRange ≠ 0 ∧ isFresh = true then
    (([], some (.other "the server doesn\x27t support byte ranges")),
      { r with currentResponse := none })
  else if r.totalSize = 0 then bodyRead { r with totalSize := resp.contentLength } resp
  else if r.totalSize ≤ 0 then
    (([], some (.other "failed to auto detect content length")), { r with currentResponse := none })
  else bodyRead r resp

/-- `if r.lastRange != 0 && r.currentResponse == nil { r.request.Header.Set("Range", …) }`. -/
def setRange (r : ResumableReader) : ResumableReader :=
  if r.lastRange ≠ 0 ∧ r.currentResponse.isNone = true then
    { r with range := some (r.lastRange, r.totalSize) } else r

section Server

-- the server's answer to the `n`-th request, given its `Range` header: a response, or the error
-- of `r.client.Do`
variable (server : Nat → Option (Int × Int) → Except String Response)

/-- `Read(p)`: the bytes `p[0:n]` and `err`. -/
def ResumableReader.read (r : ResumableReader) : (List UInt8 × Option ReadErr) × ResumableReader :=
  if r.closed then (([], some (.other "client and request can\x27t be nil\n")), r)
  else
    let r := setRange r
    match r.currentResponse with
    | some resp => readResponse r resp false
    | none =>
      match server r.sent r.range with
      | .ok resp => readResponse { r with currentResponse := some resp, sent := r.sent + 1 } resp true
      | .error e =>
        let r := { r with sent := r.sent + 1 }
        if r.failures + 1 ≠ r.maxFailures then (([], none), { r with failures := r.failures + 1 })
        else (([], some (.other e)), r)

/-- `io.Copy` of the reader into a buffer: the bytes copied and the error; `none` when `fuel` runs
out. -/
def copyAll : Nat → ResumableReader → List UInt8 → Option (List UInt8 × Option String)
  | 0, _, _ => none
  | fuel + 1, r, out =>
    match r.read server with
    | ((bytes, none), r) => copyAll fuel r (out ++ bytes)
    | ((bytes, some .eof), _) => some (out ++ bytes, none)
    | ((bytes, some (.other e)), _) => some (out ++ bytes, some e)

end Server

/-! ## 2. Honest servers -/

/-- Where the body of an answer to a request with this `Range` header starts. -/
def rangeStart : Option (Int × Int) → Nat
  | some (k, _) => k.toNat
  | none => 0

/-- The reads of a body that carries the start of `rest`: all of it when the body ends with
`io.EOF`, a part when a read fails. -/
def BodyOf : List UInt8 → List (List UInt8 × Option ReadErr) → Prop
  | rest, [] => rest = []
  | rest, (b, none) :: more => b <+: rest ∧ BodyOf (rest.drop b.length) more
  | rest, (b, some .eof) :: _ => b = rest
  | rest, (b, some (.other _)) :: _ => b <+: rest

/-- An honest server: each request gets a transport error, or the status for its
`Range` header, `ContentLength` `|R|` or `-1`, and a body that carries `R` from the range's
start, possibly cut short by a read error. -/
def Honest (R : List UInt8) (server : Nat → Option (Int × Int) → Except String Response) : Prop :=
  ∀ n range, (∃ e, server n range = .error e) ∨
    ∃ resp, server n range = .ok resp ∧
      resp.statusCode = (if range.isSome then 206 else 200) ∧
      (resp.contentLength = R.length ∨ resp.contentLength = -1) ∧
      BodyOf (R.drop (rangeStart range)) resp.body

/-! ## 3. A copy that ends without an error delivers the resource -/

/-- `out`, the bytes delivered so far, is the start of `R`; `lastRange` counts them; no `Range`
header is set before the first byte; and the current body carries `R` from there. -/
structure Delivers (R : List UInt8) (r : ResumableReader) (out : List UInt8) : Prop where
  notClosed : r.closed = false
  sofar : out <+: R
  lastRange : r.lastRange = out.length
  range : out = [] → r.range = none
  current : ∀ resp, r.currentResponse = some resp →
    resp.statusCode ≠ 416 ∧ BodyOf (R.drop out.length) resp.body

/-- What a `Read` may return to a copy that has delivered `out`: with a `nil` error it keeps
`Delivers`, and with `io.EOF` it completes `R`. -/
def ReadOk (R out : List UInt8) (res : (List UInt8 × Option ReadErr) × ResumableReader) : Prop :=
  (res.1.2 = none → Delivers R res.2 (out ++ res.1.1)) ∧ (res.1.2 = some .eof → out ++ res.1.1 = R)

theorem readOk_of_error {R out : List UInt8} {bytes : List UInt8} {msg : String}
    (r : ResumableReader) : ReadOk R out ((bytes, some (.other msg)), r) :=
  ⟨fun h => by simp at h, fun h => by simp at h⟩

/-- One read of the body. -/
theorem bodyRead_readOk {R out : List UInt8} {r : ResumableReader} {resp : Response}
    (hd : Delivers R { r with currentResponse := none } out)
    (hs : resp.statusCode ≠ 416) (hb : BodyOf (R.drop out.length) resp.body) :
    ReadOk R out (bodyRead r resp) := by
  -- `out ++ b` is the start of `R` when `b` is the start of what follows `out`
  have hgrow : ∀ b, b <+: R.drop out.length → out ++ b <+: R := fun b hb' => by
    obtain ⟨t, ht⟩ := hb'
    refine ⟨t, ?_⟩
    obtain ⟨u, rfl⟩ := hd.sofar
    simp only [List.drop_left] at ht
    rw [List.append_assoc, ht]
  have hlast : ∀ b : List UInt8, r.lastRange + (b.length : Int) = ((out ++ b).length : Int) :=
    fun b => by rw [List.length_append, Nat.cast_add, ← hd.lastRange]
  have hnil : ∀ b : List UInt8, out ++ b = [] → out = [] := fun b h => (List.append_eq_nil_iff.mp h).1
  unfold ReadOk bodyRead Response.read
  cases hbody : resp.body with
  | nil =>
    rw [hbody] at hb
    refine ⟨fun h => by simp at h, fun _ => ?_⟩
    -- the body is used up, so everything after `out` was delivered
    obtain ⟨u, rfl⟩ := hd.sofar
    simp only [BodyOf, List.drop_left] at hb
    simp [hb]
  | cons read more =>
    obtain ⟨b, err⟩ := read
    rw [hbody] at hb
    cases err with
    | none =>
      obtain ⟨hpre, hmore⟩ := hb
      refine ⟨fun _ => ⟨hd.notClosed, hgrow b hpre, hlast b, fun h => hd.range (hnil b h), ?_⟩,
        fun h => by simp at h⟩
      intro resp' hresp'
      simp only [Option.some.injEq] at hresp'
      subst hresp'
      refine ⟨hs, ?_⟩
      rw [List.length_append, ← List.drop_drop]
      exact hmore
    | some e =>
      cases e with
      | eof =>
        refine ⟨fun h => by simp at h, fun _ => ?_⟩
        obtain ⟨u, rfl⟩ := hd.sofar
        simp only [BodyOf, List.drop_left] at hb
        simp [hb]
      | other msg =>
        refine ⟨fun _ => ⟨hd.notClosed, hgrow b hb, hlast b, fun h => hd.range (hnil b h),
          fun resp' h => by simp at h⟩, fun h => by simp at h⟩

/-- A response in hand, fresh or not. -/
theorem readResponse_readOk {R out : List UInt8} {r : ResumableReader} {resp : Response}
    (hd : Delivers R { r with currentResponse := none } out)
    (hs : resp.statusCode ≠ 416) (hb : BodyOf (R.drop out.length) resp.body) (isFresh : Bool) :
    ReadOk R out (readResponse r resp isFresh) := by
  unfold readResponse
  split
  · rename_i h
    exact absurd h.1 hs
  split
  · exact readOk_of_error _
  split
  · -- `totalSize` is not part of `Delivers`
    exact bodyRead_readOk ⟨hd.notClosed, hd.sofar, hd.lastRange, hd.range, hd.current⟩ hs hb
  split
  · exact readOk_of_error _
  · exact bodyRead_readOk hd hs hb

@[simp] theorem setRange_closed (r : ResumableReader) : (setRange r).closed = r.closed := by
  unfold setRange
  split <;> rfl

@[simp] theorem setRange_lastRange (r : ResumableReader) :
    (setRange r).lastRange = r.lastRange := by
  unfold setRange
  split <;> rfl

@[simp] theorem setRange_currentResponse (r : ResumableReader) :
    (setRange r).currentResponse = r.currentResponse := by
  unfold setRange
  split <;> rfl

/-- `Delivers` holds once the `Range` header is set, with no response in hand: the header is set
only after a first byte. -/
theorem Delivers.rangeSet {R out : List UInt8} {r : ResumableReader} (hd : Delivers R r out) :
    Delivers R { setRange r with currentResponse := none } out := by
  refine ⟨by simp [hd.notClosed], hd.sofar, by simp [hd.lastRange], fun hout => ?_,
    fun _ h => by simp at h⟩
  have hl : r.lastRange = 0 := by rw [hd.lastRange, hout]; rfl
  show (setRange r).range = none
  unfold setRange
  rw [if_neg (fun h => h.1 hl)]
  exact hd.range hout

/-- A new request asks for `R` from the first byte not yet delivered. -/
theorem Delivers.rangeStart_setRange {R out : List UInt8} {r : ResumableReader}
    (hd : Delivers R r out) (hcur : r.currentResponse = none) :
    rangeStart (setRange r).range = out.length := by
  unfold setRange
  by_cases hl : r.lastRange = 0
  · have hout : out = [] := by
      have := hd.lastRange
      rw [hl] at this
      exact List.length_eq_zero_iff.mp (by omega)
    rw [if_neg (fun h => h.1 hl), hd.range hout, hout]
    rfl
  · rw [if_pos ⟨hl, by simp [hcur]⟩]
    simp [rangeStart, hd.lastRange]

section Server

variable {server : Nat → Option (Int × Int) → Except String Response}

/-- Each `Read` against an honest server keeps `Delivers`, or completes `R`, or fails. -/
theorem read_readOk {R out : List UInt8} {r : ResumableReader} (hR : Honest R server)
    (hd : Delivers R r out) : ReadOk R out (r.read server) := by
  have hset := hd.rangeSet
  unfold ResumableReader.read
  rw [if_neg (by simp [hd.notClosed])]
  dsimp only
  rw [setRange_currentResponse]
  cases hcur : r.currentResponse with
  | some resp =>
    obtain ⟨hs, hb⟩ := hd.current resp hcur
    exact readResponse_readOk hset hs hb false
  | none =>
    dsimp only
    rcases hR (setRange r).sent (setRange r).range with ⟨e, he⟩ | ⟨resp, hresp, hs, -, hb⟩
    · -- a failed request: counted, or returned
      rw [he]
      dsimp only
      split
      · refine ⟨fun _ => ?_, fun h => by simp at h⟩
        simp only [List.append_nil]
        exact ⟨hset.notClosed, hset.sofar, hset.lastRange, hset.range,
          fun _ h => by simp at h⟩
      · exact readOk_of_error _
    · rw [hresp]
      dsimp only
      have hs' : resp.statusCode ≠ 416 := by
        rw [hs]
        split <;> decide
      rw [hd.rangeStart_setRange hcur] at hb
      refine readResponse_readOk ?_ hs' hb true
      exact ⟨hset.notClosed, hset.sofar, hset.lastRange, hset.range, hset.current⟩

/-- A copy from a state of `Delivers` that ends without an error has delivered `R`. -/
theorem copyAll_delivers {R : List UInt8} (hR : Honest R server) :
    ∀ fuel (r : ResumableReader) (out res : List UInt8), Delivers R r out →
      copyAll server fuel r out = some (res, none) → res = R := by
  intro fuel
  induction fuel with
  | zero => intro _ _ _ _ h; simp [copyAll] at h
  | succ fuel ih =>
    intro r out res hd h
    have hok := read_readOk hR hd
    unfold copyAll at h
    rcases hread : r.read server with ⟨⟨bytes, err⟩, r'⟩
    rw [hread] at h hok
    cases err with
    | none => exact ih r' (out ++ bytes) res (hok.1 rfl) h
    | some e =>
      cases e with
      | eof =>
        simp only [Option.some.injEq, Prod.mk.injEq] at h
        rw [← h.1]
        exact hok.2 rfl
      | other msg => simp at h

end Server

theorem delivers_resumableRequestReader (R : List UInt8) (maxfail : UInt32) (totalsize : Int) :
    Delivers R (resumableRequestReader maxfail totalsize) [] :=
  ⟨rfl, List.nil_prefix, rfl, fun _ => rfl, fun _ h => by simp [resumableRequestReader] at h⟩

theorem delivers_resumableRequestReaderWithInitialResponse {R : List UInt8} (maxfail : UInt32)
    (totalsize : Int) {resp : Response} (hs : resp.statusCode ≠ 416) (hb : BodyOf R resp.body) :
    Delivers R (resumableRequestReaderWithInitialResponse maxfail totalsize resp) [] :=
  ⟨rfl, List.nil_prefix, rfl, fun _ => rfl, fun _ h => by
    simp only [resumableRequestReaderWithInitialResponse, Option.some.injEq] at h
    subst h
    exact ⟨hs, hb⟩⟩

/-- Against an honest server, a copy of the reader that ends without an error has delivered
exactly `R`. -/
theorem copyAll_eq_resource {R : List UInt8} {server : Nat → Option (Int × Int) → Except String Response}
    (hR : Honest R server) (maxfail : UInt32) (totalsize : Int) (fuel : Nat) (res : List UInt8)
    (h : copyAll server fuel (resumableRequestReader maxfail totalsize) [] = some (res, none)) :
    res = R :=
  copyAll_delivers hR fuel _ [] res (delivers_resumableRequestReader R maxfail totalsize) h

-- the first body breaks off after one byte; the second request asks for the rest
example : copyAll (fun n _ => if n = 0 then .ok ⟨200, 2, [([1], some (.other "reset"))]⟩
    else .ok ⟨206, 2, [([2], some .eof)]⟩) 3 (resumableRequestReader 5 0) [] =
      some ([1, 2], none) := by decide

/-! ## 4. A copy need not end -/

/-- A server that answers every request with the status its `Range` header asks for and
`ContentLength` `|R|`, and whose every body breaks off before its first byte. -/
def cutShortServer (R : List UInt8) (_ : Nat) (range : Option (Int × Int)) :
    Except String Response :=
  .ok ⟨if range.isSome then 206 else 200, R.length, [([], some (.other "unexpected EOF"))]⟩

theorem honest_cutShortServer (R : List UInt8) : Honest R (cutShortServer R) := fun _ _ =>
  .inr ⟨_, rfl, rfl, .inl rfl, List.nil_prefix⟩

/-- Nothing delivered, no response in hand, no `Range` header, and no negative `totalSize`. -/
structure Stuck (r : ResumableReader) : Prop where
  notClosed : r.closed = false
  lastRange : r.lastRange = 0
  current : r.currentResponse = none
  range : r.range = none
  totalSize : 0 ≤ r.totalSize

/-- Against `cutShortServer`, a `Read` from a stuck reader returns no bytes and no error, and leaves
it stuck: the failed body is not counted. -/
theorem read_cutShortServer {R : List UInt8} {r : ResumableReader} (h : Stuck r) :
    (r.read (cutShortServer R)).1 = ([], none) ∧ Stuck (r.read (cutShortServer R)).2 := by
  have hset : setRange r = r := by
    unfold setRange
    rw [if_neg (fun h' => h'.1 h.lastRange)]
  unfold ResumableReader.read
  rw [if_neg (by simp [h.notClosed])]
  dsimp only
  rw [hset, h.current]
  dsimp only
  rw [cutShortServer, h.range]
  dsimp only
  unfold readResponse
  rw [if_neg (by simp), if_neg (by simp [h.lastRange])]
  by_cases h0 : r.totalSize = 0
  · rw [if_pos h0]
    refine ⟨rfl, h.notClosed, by simp [bodyRead, Response.read, h.lastRange], rfl, rfl, ?_⟩
    simp [bodyRead, Response.read]
  · have hpos : ¬r.totalSize ≤ 0 := by
      have := h.totalSize
      omega
    rw [if_neg h0, if_neg hpos]
    exact ⟨rfl, h.notClosed, by simp [bodyRead, Response.read, h.lastRange], rfl, rfl,
      h.totalSize⟩

theorem copyAll_stuck {R : List UInt8} :
    ∀ fuel (r : ResumableReader) (out : List UInt8), Stuck r →
      copyAll (cutShortServer R) fuel r out = none := by
  intro fuel
  induction fuel with
  | zero => intro _ _ _; rfl
  | succ fuel ih =>
    intro r out h
    obtain ⟨hread, hstuck⟩ := read_cutShortServer (R := R) h
    unfold copyAll
    rcases hr : r.read (cutShortServer R) with ⟨⟨bytes, err⟩, r'⟩
    rw [hr] at hread hstuck
    simp only [Prod.mk.injEq] at hread
    rw [hread.2]
    exact ih r' (out ++ bytes) hstuck

theorem copyAll_cutShortServer_never_ends (R : List UInt8) (maxfail : UInt32) (totalsize : Nat) :
    Honest R (cutShortServer R) ∧
      ∀ fuel, copyAll (cutShortServer R) fuel (resumableRequestReader maxfail totalsize) [] = none :=
  ⟨honest_cutShortServer R, fun fuel => copyAll_stuck fuel _ []
    ⟨rfl, rfl, rfl, rfl, Int.natCast_nonneg totalsize⟩⟩

end Docker.Httputils
