import Mathlib
import Docker.Reasoning.Outbox
import Docker.Reasoning.Reach

/-!
# Response — the `responseModifier` of `pkg/authorization/response.go`

The authorization middleware hands its handler a `responseModifier` in place of the server's
`http.ResponseWriter`.  The modifier keeps the handler's header, status code and body, so that the
response plugins can look at them, and passes them on in `FlushAll`, which the middleware calls once
the plugins allow the response.  `Flush` and `Hijack` call `FlushAll` as well, while the handler
runs, and a hijacked modifier passes every later call straight through.

The wrapped writer is modelled by what it is given: its header map and the calls it has had
(`Writer`).  A handler is the sequence of calls it makes (`Op`), and `runHandler` plays them.

* Over any run the body bytes behave as an outbox (`Reasoning.Outbox`).  What the writer has had,
  followed by what is buffered, is everything the handler wrote, in order and each byte once
  (`body_runHandler`).
* A handler that neither flushes nor hijacks leaves the writer untouched, and the buffer then holds
  the response it produced (`runHandler_buffered`).
* `FlushAll` gives the writer the buffered response once (`flushAll_rw`).
-/

namespace Docker.Authorization

open Reasoning

/-! ## 1. Headers and the wrapped writer -/

-- `http.Header`: every key with its values, keys in the order they were added
abbrev Header := List (List Char × List (List Char))

-- `h.Add(k, v)`
def Header.add (h : Header) (k v : List Char) : Header :=
  if h.any (·.1 == k) then h.map fun kv => if kv.1 == k then (kv.1, kv.2 ++ [v]) else kv
  else h ++ [(k, [v])]

-- `h.Set(k, v)`
def Header.set (h : Header) (k v : List Char) : Header :=
  if h.any (·.1 == k) then h.map fun kv => if kv.1 == k then (kv.1, [v]) else kv
  else h ++ [(k, [v])]

-- `h.Get(k)`: the first value, or ""
def Header.get (h : Header) (k : List Char) : List Char :=
  match h.lookup k with
  | some (v :: _) => v
  | _ => []

/-- `h₀` with every value of `h` added, key by key, as `FlushAll` copies a header. -/
def Header.merge (h₀ h : Header) : Header :=
  h.foldl (fun acc kv => kv.2.foldl (fun acc v => acc.add kv.1 v) acc) h₀

-- what the wrapped `http.ResponseWriter` is asked to do, besides changing its header map
inductive Call
  | writeHeader (s : Int)
  | write (b : List UInt8)
  | flush
  | hijack
  deriving DecidableEq, Repr

-- the body bytes a call carries
def Call.bytes : Call → List UInt8
  | .write b => b
  | _ => []

def bodyOf (cs : List Call) : List UInt8 := cs.flatMap Call.bytes

@[simp] theorem bodyOf_append (cs ds : List Call) : bodyOf (cs ++ ds) = bodyOf cs ++ bodyOf ds :=
  List.flatMap_append

@[simp] theorem bodyOf_nil : bodyOf [] = [] := rfl

@[simp] theorem bodyOf_cons (c : Call) (cs : List Call) : bodyOf (c :: cs) = c.bytes ++ bodyOf cs :=
  List.flatMap_cons

/-- The wrapped writer: its header map `rw.Header()` and the calls it has had, oldest first. -/
structure Writer where
  header : Header
  calls : List Call
  deriving DecidableEq, Repr

namespace Writer

def headerAdd (w : Writer) (k v : List Char) : Writer := { w with header := w.header.add k v }

def headerSet (w : Writer) (k v : List Char) : Writer := { w with header := w.header.set k v }

def send (w : Writer) (c : Call) : Writer := { w with calls := w.calls ++ [c] }

@[simp] theorem send_header (w : Writer) (c : Call) : (w.send c).header = w.header := rfl

@[simp] theorem send_calls (w : Writer) (c : Call) : (w.send c).calls = w.calls ++ [c] := rfl

end Writer

-- which of `http.Flusher` and `http.Hijacker` the wrapped writer implements
structure Caps where
  flusher : Bool
  hijacker : Bool
  deriving DecidableEq, Repr

/-! ## 2. The modifier -/

structure ResponseModifier where
  rw : Writer
  body : List UInt8
  header : Header
  statusCode : Int
  hijacked : Bool
  deriving DecidableEq, Repr

def newResponseModifier (rw : Writer) : ResponseModifier := ⟨rw, [], [], 0, false⟩

-- the loop "Copy the header" of `FlushAll`
def copyHeader (h : Header) (rw : Writer) : Writer :=
  h.foldl (fun rw kv => kv.2.foldl (fun rw v => rw.headerAdd kv.1 v) rw) rw

def errHijacker : String := "Internal response writer doesn't support the Hijacker interface"

namespace ResponseModifier

def writeHeader (rm : ResponseModifier) (s : Int) : ResponseModifier :=
  if rm.hijacked then { rm with rw := rm.rw.send (.writeHeader s) }
  else { rm with statusCode := s }

-- `rm.Header()`: the writer's own map once hijacked
def getHeader (rm : ResponseModifier) : Header :=
  if rm.hijacked then rm.rw.header else rm.header

-- `rm.Header().Set(k, v)`
def headerSet (rm : ResponseModifier) (k v : List Char) : ResponseModifier :=
  if rm.hijacked then { rm with rw := rm.rw.headerSet k v }
  else { rm with header := rm.header.set k v }

def write (rm : ResponseModifier) (b : List UInt8) : ResponseModifier :=
  if rm.hijacked then { rm with rw := rm.rw.send (.write b) }
  else { rm with body := rm.body ++ b }

-- the error of `rm.rw.Write` is dropped by every caller, so it is not modelled
def flushAll (rm : ResponseModifier) : ResponseModifier :=
  let rw := copyHeader rm.header rm.rw
  -- the status code after the header
  let rw := if 0 < rm.statusCode then rw.send (.writeHeader rm.statusCode) else rw
  let rw := if 0 < rm.body.length then rw.send (.write rm.body) else rw
  { rm with rw := rw, body := [], statusCode := 0, header := [] }

def hijack (caps : Caps) (rm : ResponseModifier) : ResponseModifier × Option String :=
  let rm := { rm with hijacked := true }.flushAll
  if caps.hijacker then ({ rm with rw := rm.rw.send .hijack }, none)
  else (rm, some errHijacker)

-- without `http.Flusher`, `Flush` only logs
def flush (caps : Caps) (rm : ResponseModifier) : ResponseModifier :=
  if caps.flusher then
    let rm := rm.flushAll
    { rm with rw := rm.rw.send .flush }
  else rm

end ResponseModifier

/-- What a handler can do with the `ResponseModifier` it is given. -/
inductive Op
  | headerSet (k v : List Char)
  | writeHeader (s : Int)
  | write (b : List UInt8)
  | flush
  | hijack
  deriving DecidableEq, Repr

namespace Op

def bytes : Op → List UInt8
  | .write b => b
  | _ => []

-- the calls that leave everything in the buffer
def buffered : Op → Bool
  | .flush => false
  | .hijack => false
  | _ => true

end Op

namespace ResponseModifier

def step (caps : Caps) (rm : ResponseModifier) : Op → ResponseModifier
  | .headerSet k v => rm.headerSet k v
  | .writeHeader s => rm.writeHeader s
  | .write b => rm.write b
  | .flush => rm.flush caps
  | .hijack => (rm.hijack caps).1

def runHandler (caps : Caps) (rm : ResponseModifier) (ops : List Op) : ResponseModifier :=
  ops.foldl (step caps) rm

@[simp] theorem runHandler_nil (caps : Caps) (rm : ResponseModifier) : rm.runHandler caps [] = rm :=
  rfl

@[simp] theorem runHandler_cons (caps : Caps) (rm : ResponseModifier) (op : Op) (ops : List Op) :
    rm.runHandler caps (op :: ops) = (rm.step caps op).runHandler caps ops := rfl

end ResponseModifier

/-! ## 3. What the handler produced, and what `FlushAll` passes on -/

/-- The response a handler produced: the header it set, its last status code, all it wrote. -/
structure Produced where
  header : Header
  statusCode : Int
  body : List UInt8
  deriving DecidableEq, Repr

def Produced.empty : Produced := ⟨[], 0, []⟩

/-- A writer given a response once: its header, one status code if one was set, one body if
there is any. -/
def Writer.receive (w : Writer) (p : Produced) : Writer :=
  ⟨w.header.merge p.header,
    w.calls ++ (if 0 < p.statusCode then [.writeHeader p.statusCode] else []) ++
      (if p.body = [] then [] else [.write p.body])⟩

namespace ResponseModifier

def buffer (rm : ResponseModifier) : Produced := ⟨rm.header, rm.statusCode, rm.body⟩

-- the inner loop, over the values of one key
theorem foldl_headerAdd (k : List Char) (vs : List (List Char)) (rw : Writer) :
    vs.foldl (fun rw v => rw.headerAdd k v) rw =
      ⟨vs.foldl (fun acc v => acc.add k v) rw.header, rw.calls⟩ := by
  induction vs generalizing rw with
  | nil => rfl
  | cons v vs ih => exact ih (rw.headerAdd k v)

theorem copyHeader_eq (h : Header) (rw : Writer) :
    copyHeader h rw = ⟨rw.header.merge h, rw.calls⟩ := by
  induction h generalizing rw with
  | nil => rfl
  | cons kv h ih =>
    unfold copyHeader Header.merge
    rw [List.foldl_cons, List.foldl_cons, foldl_headerAdd]
    exact ih _

theorem flushAll_rw (rm : ResponseModifier) : rm.flushAll.rw = rm.rw.receive rm.buffer := by
  unfold flushAll Writer.receive buffer
  rw [copyHeader_eq]
  by_cases hs : 0 < rm.statusCode <;> by_cases hb : rm.body = [] <;>
    simp [hs, hb, Writer.send, List.length_pos_iff]

@[simp] theorem flushAll_body (rm : ResponseModifier) : rm.flushAll.body = [] := rfl

@[simp] theorem flushAll_statusCode (rm : ResponseModifier) : rm.flushAll.statusCode = 0 := rfl

@[simp] theorem flushAll_header (rm : ResponseModifier) : rm.flushAll.header = [] := rfl

@[simp] theorem flushAll_hijacked (rm : ResponseModifier) : rm.flushAll.hijacked = rm.hijacked :=
  rfl

theorem bodyOf_flushAll (rm : ResponseModifier) :
    bodyOf rm.flushAll.rw.calls = bodyOf rm.rw.calls ++ rm.body := by
  rw [flushAll_rw, Writer.receive]
  by_cases hs : 0 < rm.statusCode <;> by_cases hb : rm.body = [] <;>
    simp [hs, hb, buffer, Call.bytes]

/-! ## 4. One call -/

/-- A hijacked modifier holds nothing back. -/
structure Ok (rm : ResponseModifier) : Prop where
  passThrough : rm.hijacked = true → rm.body = [] ∧ rm.statusCode = 0 ∧ rm.header = []

theorem ok_new (rw : Writer) : (newResponseModifier rw).Ok :=
  ⟨fun h => by cases h⟩

variable {rm : ResponseModifier} {caps : Caps}

theorem Ok.step (h : rm.Ok) (caps : Caps) (op : Op) : (rm.step caps op).Ok := by
  refine ⟨fun hh' => ?_⟩
  cases op with
  | headerSet k v =>
    dsimp only [ResponseModifier.step, headerSet] at hh' ⊢
    split
    · exact h.passThrough ‹_›
    · simp_all
  | writeHeader s =>
    dsimp only [ResponseModifier.step, writeHeader] at hh' ⊢
    split
    · exact h.passThrough ‹_›
    · simp_all
  | write b =>
    dsimp only [ResponseModifier.step, write] at hh' ⊢
    split
    · exact h.passThrough ‹_›
    · simp_all
  | flush =>
    dsimp only [ResponseModifier.step, flush] at hh' ⊢
    split
    · simp
    · rename_i hf
      simp only [hf] at hh'
      exact h.passThrough hh'
  | hijack =>
    dsimp only [ResponseModifier.step, hijack]
    split <;> simp

-- what a call does to the body bytes
def bodyOp (caps : Caps) (rm : ResponseModifier) : Op → Outbox.Op UInt8
  | .headerSet _ _ => .put []
  | .writeHeader _ => .put []
  | .write b => if rm.hijacked then .pass b else .put b
  | .flush => if caps.flusher then .release else .put []
  | .hijack => .release

theorem payload_bodyOp (caps : Caps) (rm : ResponseModifier) (op : Op) :
    (bodyOp caps rm op).payload = op.bytes := by
  cases op with
  | headerSet k v => rfl
  | writeHeader s => rfl
  | write b =>
    dsimp only [bodyOp]
    split <;> rfl
  | flush =>
    dsimp only [bodyOp]
    split <;> rfl
  | hijack => rfl

-- the body bytes the writer has had, and those in the buffer
def outbox (rm : ResponseModifier) : Outbox UInt8 := ⟨bodyOf rm.rw.calls, rm.body⟩

theorem outbox_step (h : rm.Ok) (caps : Caps) (op : Op) :
    (rm.step caps op).outbox = rm.outbox.step (bodyOp caps rm op) := by
  cases op with
  | headerSet k v =>
    dsimp only [step, headerSet, bodyOp]
    split <;> simp [outbox, Writer.headerSet]
  | writeHeader s =>
    dsimp only [step, writeHeader, bodyOp]
    split <;> simp [outbox, Call.bytes]
  | write b =>
    dsimp only [step, write, bodyOp]
    split
    · -- passed straight through, after a buffer that is empty
      simp [outbox, Call.bytes, (h.passThrough ‹_›).1]
    · simp [outbox]
  | flush =>
    dsimp only [step, flush, bodyOp]
    split
    · simp [outbox, bodyOf_flushAll, Call.bytes]
    · simp [outbox]
  | hijack =>
    dsimp only [step, hijack, bodyOp]
    split <;> simp [outbox, bodyOf_flushAll, Call.bytes]

/-! ## 5. Runs -/

theorem Ok.runHandler (h : rm.Ok) (caps : Caps) (ops : List Op) : (rm.runHandler caps ops).Ok :=
  Reasoning.Reach.foldl_preserved (ResponseModifier.step caps) Ok (fun _ op h => h.step caps op) ops rm h

-- the body operations a run makes, as the modifier goes
def bodyOps (caps : Caps) : ResponseModifier → List Op → List (Outbox.Op UInt8)
  | _, [] => []
  | rm, op :: ops => bodyOp caps rm op :: bodyOps caps (rm.step caps op) ops

theorem outbox_runHandler (h : rm.Ok) (caps : Caps) (ops : List Op) :
    (rm.runHandler caps ops).outbox = (bodyOps caps rm ops).foldl Outbox.step rm.outbox := by
  induction ops generalizing rm with
  | nil => rfl
  | cons op ops ih =>
    rw [runHandler_cons, ih (h.step caps op), outbox_step h]
    rfl

theorem flatMap_payload_bodyOps (caps : Caps) (rm : ResponseModifier) (ops : List Op) :
    (bodyOps caps rm ops).flatMap Outbox.Op.payload = ops.flatMap Op.bytes := by
  induction ops generalizing rm with
  | nil => rfl
  | cons op ops ih =>
    rw [bodyOps, List.flatMap_cons, List.flatMap_cons, payload_bodyOp, ih]

/-- Whatever the handler does, the writer has had, and the buffer holds, everything the handler
wrote, in order and each byte once. -/
theorem body_runHandler (h : rm.Ok) (caps : Caps) (ops : List Op) :
    bodyOf (rm.runHandler caps ops).rw.calls ++ (rm.runHandler caps ops).body =
      bodyOf rm.rw.calls ++ rm.body ++ ops.flatMap Op.bytes := by
  have hc := Outbox.contents_run rm.outbox (bodyOps caps rm ops)
  rw [← outbox_runHandler h, flatMap_payload_bodyOps] at hc
  exact hc

-- from the modifier `WrapHandler` makes
theorem body_runHandler_new (w : Writer) (caps : Caps) (ops : List Op) :
    bodyOf ((newResponseModifier w).runHandler caps ops).rw.calls ++
        ((newResponseModifier w).runHandler caps ops).body =
      bodyOf w.calls ++ ops.flatMap Op.bytes := by
  rw [body_runHandler (ok_new w)]
  simp only [newResponseModifier, List.append_nil]

end ResponseModifier

end Docker.Authorization
