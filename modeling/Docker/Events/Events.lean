import Mathlib

/-!
# Events — the daemon's event buffer and its replay

`daemon/events/events.go`.  `Log` builds a message stamped with the clock and, under `e.mu`,
appends it to a buffer that keeps the last `eventsLimit` messages; `loadBufferedEvents` replays
the buffer for a `since`/`until` window, walking it from the newest message back and stopping at
the first one older than `since`.

`Log` reads the clock before it takes the lock, so concurrent calls interleave between the two:
`begin` reads the clock into a pending message, `finish` is a pending call taking the lock.  The
clock only moves forward, by `tick`.  The publisher is left out; it does not touch the buffer.
-/

namespace Docker.Events

/-- `time.Time`: seconds and nanoseconds since the Unix epoch. -/
structure Time where
  unix : Int
  nsec : Nat
  nsec_lt : nsec < 1000000000
  deriving DecidableEq

/-- The instant `n` nanoseconds after the epoch. -/
def Time.ofNanos (n : Int) : Time :=
  ⟨n / 1000000000, (n % 1000000000).toNat, by omega⟩

/-- The zero `time.Time`: January 1 of year 1, 00:00:00 UTC. -/
def Time.zero : Time :=
  ⟨-62135596800, 0, by decide⟩

/-- `t.IsZero()`. -/
def Time.isZero (t : Time) : Bool :=
  t.unix = -62135596800 && t.nsec = 0

/-- `t.UnixNano()`, in `int64` arithmetic. -/
def Time.unixNano (t : Time) : Int :=
  (t.unix * 1000000000 + t.nsec).bmod (2 ^ 64)

structure Actor where
  id : List Char
  attributes : List (List Char × List Char)
  deriving DecidableEq, Repr

/-- `eventtypes.Message`. -/
structure Message where
  status : List Char
  id : List Char
  «from» : List Char
  type : List Char
  action : List Char
  actor : Actor
  time : Int
  timeNano : Int
  deriving DecidableEq, Repr

/-- `eventsLimit`. -/
def eventsLimit : Nat := 64

def containerEventType : List Char := "container".toList

def imageEventType : List Char := "image".toList

/-- The message `Log` builds at time `now`. -/
def newMessage (action eventType : List Char) (actor : Actor) (now : Time) : Message :=
  let jm : Message :=
    { status := [], id := [], «from» := [], type := eventType, action := action, actor := actor,
      time := now.unix, timeNano := now.unixNano }
  -- fill deprecated fields for container and images
  if eventType = containerEventType then
    { jm with
      id := actor.id
      status := action
      «from» := (actor.attributes.lookup "image".toList).getD [] }
  else if eventType = imageEventType then
    { jm with
      id := actor.id
      status := action }
  else jm

/-- The part of `Log` under `e.mu`: a full buffer drops its oldest message. -/
def appendEvent (events : List Message) (jm : Message) : List Message :=
  if events.length = eventsLimit then events.tail ++ [jm] else events ++ [jm]

/-- The loop of `loadBufferedEvents` over the buffer from its newest message back; `buffered`
holds what is kept, oldest first. -/
def scanBack (sinceNanoUnix untilNanoUnix : Int) (topic : Option (Message → Bool)) :
    List Message → List Message → List Message
  | [], buffered => buffered
  | ev :: older, buffered =>
    if ev.timeNano < sinceNanoUnix then buffered
    else if untilNanoUnix > 0 ∧ ev.timeNano > untilNanoUnix then
      scanBack sinceNanoUnix untilNanoUnix topic older buffered
    else if topic.all (· ev) then
      scanBack sinceNanoUnix untilNanoUnix topic older (ev :: buffered)
    else scanBack sinceNanoUnix untilNanoUnix topic older buffered

/-- `e.loadBufferedEvents(since, until, topic)`; `topic` is `none` for a nil function. -/
def loadBufferedEvents (events : List Message) (since «until» : Time)
    (topic : Option (Message → Bool)) : List Message :=
  if since.isZero ∧ «until».isZero then []
  else
    let sinceNanoUnix := if since.isZero then 0 else since.unixNano
    let untilNanoUnix := if «until».isZero then 0 else «until».unixNano
    scanBack sinceNanoUnix untilNanoUnix topic events.reverse []

/-! ## Concurrent `Log` calls -/

structure EventsSystem where
  /-- `time.Now()`, in nanoseconds since the epoch. -/
  clock : Int
  events : List Message
  /-- The messages of the `Log` calls that have read the clock and wait for the lock. -/
  pending : List Message
  /-- Every message appended so far, in order. -/
  logged : List Message

inductive LogStep where
  | tick (d : Nat)
  | begin (action eventType : List Char) (actor : Actor)
  /-- The `i`-th pending call takes the lock. -/
  | finish (i : Nat)

def EventsSystem.step (s : EventsSystem) : LogStep → EventsSystem
  | .tick d => { s with clock := s.clock + d }
  | .begin action eventType actor =>
    { s with pending := s.pending ++ [newMessage action eventType actor (Time.ofNanos s.clock)] }
  | .finish i =>
    match s.pending[i]? with
    | some jm =>
      { s with
        events := appendEvent s.events jm
        pending := s.pending.eraseIdx i
        logged := s.logged ++ [jm] }
    | none => s

/-- `New()` at a given clock. -/
def EventsSystem.init (clock : Int) : EventsSystem :=
  ⟨clock, [], [], []⟩

end Docker.Events
