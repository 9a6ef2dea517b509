import Docker.Reasoning.Reach
import Docker.Events.Events

/-!
# Replay — what the event buffer holds and what `loadBufferedEvents` returns

Whatever the interleaving of `Log` calls, the buffer is the last `eventsLimit` appended messages
in the order they were appended (`events_window`).  `loadBufferedEvents` stops at the first
message older than `since`, which returns exactly the messages of the window when the buffer is
sorted by `TimeNano` (`loadBufferedEvents_sorted`), as it is when each `Log` takes the lock before
the next one reads the clock (`seq_replay_exact`).  Two `Log` calls that read the clock in one
order and take the lock in the other leave the buffer unsorted, and a later message is then lost
to a `since` window (`loadBufferedEvents_misses_later_event`).
-/

namespace Docker.Events

/-! ## 1. The buffer is a sliding window -/

/-- The last `eventsLimit` messages of a list, in order. -/
def window (l : List Message) : List Message :=
  l.drop (l.length - eventsLimit)

theorem appendEvent_window (l : List Message) (jm : Message) :
    appendEvent (window l) jm = window (l ++ [jm]) := by
  have hpos : 0 < eventsLimit := by decide
  unfold appendEvent window
  rw [List.length_drop, List.length_append, List.length_singleton]
  by_cases h : eventsLimit ≤ l.length
  · -- a full buffer: the oldest message goes
    have h₁ : l.length + 1 - eventsLimit = l.length - eventsLimit + 1 := by omega
    rw [if_pos (by omega), List.tail_drop, h₁, List.drop_append_of_le_length (by omega)]
  · have h₀ : l.length - eventsLimit = 0 := by omega
    have h₁ : l.length + 1 - eventsLimit = 0 := by omega
    rw [if_neg (by omega), h₀, h₁, List.drop_zero, List.drop_zero]

theorem EventsSystem.step_finish_some {s : EventsSystem} {i : Nat} {jm : Message}
    (h : s.pending[i]? = some jm) :
    s.step (.finish i) =
      { s with
        events := appendEvent s.events jm
        pending := s.pending.eraseIdx i
        logged := s.logged ++ [jm] } := by
  simp [EventsSystem.step, h]

theorem EventsSystem.step_finish_none {s : EventsSystem} {i : Nat} (h : s.pending[i]? = none) :
    s.step (.finish i) = s := by
  simp [EventsSystem.step, h]

def EventsSystem.Windowed (s : EventsSystem) : Prop :=
  s.events = window s.logged

theorem EventsSystem.windowed_step {s : EventsSystem} (h : s.Windowed) :
    ∀ op, (s.step op).Windowed
  | .tick _ => h
  | .begin .. => h
  | .finish i => by
    cases hp : s.pending[i]? with
    | none => rwa [EventsSystem.step_finish_none hp]
    | some jm =>
      rw [EventsSystem.step_finish_some hp]
      show appendEvent s.events jm = window (s.logged ++ [jm])
      rw [h, appendEvent_window]

/-- In every interleaving, the buffer holds the last `eventsLimit` appended messages, in the
order they were appended. -/
theorem events_window (clock : Int) (ops : List LogStep) :
    (ops.foldl EventsSystem.step (EventsSystem.init clock)).events =
      window (ops.foldl EventsSystem.step (EventsSystem.init clock)).logged :=
  Reasoning.Reach.foldl_preserved EventsSystem.step EventsSystem.Windowed
    (fun _ op hs => EventsSystem.windowed_step hs op) ops _ rfl

/-! ## 2. Replaying a sorted buffer -/

-- what `scanBack` keeps of a message, if it gets that far
def kept (sinceNanoUnix untilNanoUnix : Int) (topic : Option (Message → Bool)) (m : Message) :
    Bool :=
  decide (sinceNanoUnix ≤ m.timeNano ∧ ¬(untilNanoUnix > 0 ∧ m.timeNano > untilNanoUnix) ∧
    topic.all (· m) = true)

/-- On a list sorted from the newest message back, stopping at the first message older than
`since` loses nothing: every message after it is older too. -/
theorem scanBack_sorted (sinceNanoUnix untilNanoUnix : Int) (topic : Option (Message → Bool)) :
    ∀ (r buffered : List Message), r.Pairwise (fun a b => b.timeNano ≤ a.timeNano) →
      scanBack sinceNanoUnix untilNanoUnix topic r buffered =
        (r.filter (kept sinceNanoUnix untilNanoUnix topic)).reverse ++ buffered
  | [], _, _ => rfl
  | ev :: older, buffered, hr => by
    obtain ⟨hle, hold⟩ := List.pairwise_cons.1 hr
    have ih := scanBack_sorted sinceNanoUnix untilNanoUnix topic older
    unfold scanBack
    rw [List.filter_cons]
    by_cases hs : ev.timeNano < sinceNanoUnix
    · have hnone : older.filter (kept sinceNanoUnix untilNanoUnix topic) = [] :=
        List.filter_eq_nil_iff.2 fun m hm => by
          have := hle m hm
          simp only [kept, decide_eq_true_eq, not_and]
          omega
      rw [if_pos hs, if_neg (by simp [kept]; omega), hnone]
      rfl
    rw [if_neg hs]
    by_cases hu : untilNanoUnix > 0 ∧ ev.timeNano > untilNanoUnix
    · rw [if_pos hu, ih buffered hold, if_neg (by simp [kept, hu])]
    rw [if_neg hu]
    by_cases ht : topic.all (· ev) = true
    · rw [if_pos ht, ih (ev :: buffered) hold, if_pos (by simp [kept, hu, ht]; omega)]
      simp
    · rw [if_neg ht, ih buffered hold, if_neg (by simp [kept, ht])]

/-- What the window asks for: not before `since` when it is set, not after `until` when it is
set, and accepted by the topic. -/
def Wanted (since «until» : Time) (topic : Option (Message → Bool)) (m : Message) : Bool :=
  decide ((since.isZero = false → since.unixNano ≤ m.timeNano) ∧
    («until».isZero = false → m.timeNano ≤ «until».unixNano) ∧ topic.all (· m) = true)

/-- On a buffer sorted by `TimeNano`, of messages after the epoch, `loadBufferedEvents` returns
exactly the messages of the window, in buffer order. -/
theorem loadBufferedEvents_sorted {events : List Message}
    (hsorted : events.Pairwise (fun a b => a.timeNano ≤ b.timeNano))
    (hepoch : ∀ m ∈ events, 0 ≤ m.timeNano) {since «until» : Time}
    (topic : Option (Message → Bool)) (hset : since.isZero = false ∨ «until».isZero = false)
    (huntil : «until».isZero = false → 0 < «until».unixNano) :
    loadBufferedEvents events since «until» topic = events.filter (Wanted since «until» topic) := by
  unfold loadBufferedEvents
  rw [if_neg (by cases hset <;> simp_all)]
  dsimp only
  rw [scanBack_sorted _ _ _ _ _ (List.pairwise_reverse.2 hsorted), List.filter_reverse,
    List.reverse_reverse, List.append_nil]
  refine List.filter_congr fun m hm => ?_
  have h0 := hepoch m hm
  -- an unset bound is `0`, which the messages after the epoch all pass
  cases hsz : since.isZero <;> cases huz : «until».isZero
  · simp [kept, Wanted, hsz, huz, huntil huz]
  · simp [kept, Wanted, hsz, huz]
  · simp [kept, Wanted, hsz, huz, huntil huz, h0]
  · simp [hsz, huz] at hset

/-! ## 3. `Log` calls one after the other -/

/-- The clock moving, or a `Log` call that takes the lock before the next one reads the clock. -/
inductive SeqStep where
  | tick (d : Nat)
  | log (action eventType : List Char) (actor : Actor)

def SeqStep.steps : SeqStep → List LogStep
  | .tick d => [.tick d]
  | .log action eventType actor => [.begin action eventType actor, .finish 0]

theorem newMessage_timeNano (action eventType : List Char) (actor : Actor) (now : Time) :
    (newMessage action eventType actor now).timeNano = now.unixNano := by
  unfold newMessage
  split_ifs <;> rfl

-- before the year 2262 the clock fits `UnixNano`
theorem unixNano_ofNanos {n : Int} (h₀ : 0 ≤ n) (h : n < 2 ^ 63) :
    (Time.ofNanos n).unixNano = n := by
  unfold Time.unixNano Time.ofNanos
  dsimp only
  rw [Int.toNat_of_nonneg (Int.emod_nonneg n (by decide)), Int.ediv_mul_add_emod]
  exact Int.bmod_eq_of_le (by omega) (by omega)

theorem clock_le_run (ops : List LogStep) (s : EventsSystem) :
    s.clock ≤ (ops.foldl EventsSystem.step s).clock :=
  Reasoning.Reach.foldl_rel EventsSystem.step (fun _ => True) (fun s s' => s.clock ≤ s'.clock)
    (fun _ => True) (fun _ _ _ => trivial) (fun _ => Int.le_refl _)
    (fun _ _ _ h₁₂ h₂₃ => Int.le_trans h₁₂ h₂₃)
    (fun s op _ _ => by
      cases op with
      | tick d => show s.clock ≤ s.clock + d; omega
      | begin => exact Int.le_refl _
      | finish i =>
        cases hp : s.pending[i]? with
        | none => simp only [EventsSystem.step_finish_none hp, Int.le_refl]
        | some jm => simp only [EventsSystem.step_finish_some hp, Int.le_refl])
    ops s trivial (fun _ _ => trivial)

/-- No call waits for the lock, and the buffer is sorted, of messages stamped between the epoch
and the clock. -/
def EventsSystem.Ordered (s : EventsSystem) : Prop :=
  s.pending = [] ∧ s.events.Pairwise (fun a b => a.timeNano ≤ b.timeNano) ∧
    ∀ m ∈ s.events, 0 ≤ m.timeNano ∧ m.timeNano ≤ s.clock

theorem pairwise_appendEvent {events : List Message} {jm : Message}
    (h : events.Pairwise (fun a b => a.timeNano ≤ b.timeNano))
    (hle : ∀ m ∈ events, m.timeNano ≤ jm.timeNano) :
    (appendEvent events jm).Pairwise (fun a b => a.timeNano ≤ b.timeNano) := by
  have happ : ∀ l : List Message, l.Sublist events →
      (l ++ [jm]).Pairwise (fun a b => a.timeNano ≤ b.timeNano) := fun l hl =>
    List.pairwise_append.2 ⟨h.sublist hl, List.pairwise_singleton _ _,
      fun m hm _ hj => (List.mem_singleton.1 hj) ▸ hle m (hl.subset hm)⟩
  unfold appendEvent
  split_ifs
  · exact happ _ (List.tail_sublist events)
  · exact happ _ (List.Sublist.refl events)

theorem mem_appendEvent {events : List Message} {jm m : Message}
    (h : m ∈ appendEvent events jm) : m ∈ events ∨ m = jm := by
  unfold appendEvent at h
  split_ifs at h
  · rcases List.mem_append.1 h with h | h
    · exact .inl (List.mem_of_mem_tail h)
    · exact .inr (List.mem_singleton.1 h)
  · rcases List.mem_append.1 h with h | h
    · exact .inl h
    · exact .inr (List.mem_singleton.1 h)

theorem EventsSystem.Ordered.seqStep {s : EventsSystem} (h : s.Ordered) (h₀ : 0 ≤ s.clock)
    (op : SeqStep) (hlt : (op.steps.foldl EventsSystem.step s).clock < 2 ^ 63) :
    (op.steps.foldl EventsSystem.step s).Ordered := by
  obtain ⟨hpend, hsorted, hbound⟩ := h
  cases op with
  | tick d =>
    refine ⟨hpend, hsorted, fun m hm => ?_⟩
    have := hbound m hm
    show 0 ≤ m.timeNano ∧ m.timeNano ≤ s.clock + d
    omega
  | log action eventType actor =>
    -- the message is stamped with the clock, which is at least every stamp so far
    set jm := newMessage action eventType actor (Time.ofNanos s.clock) with hjm
    have hstep : (SeqStep.log action eventType actor).steps.foldl EventsSystem.step s =
        { s with events := appendEvent s.events jm, logged := s.logged ++ [jm] } := by
      simp [SeqStep.steps, EventsSystem.step, hpend, hjm]
    rw [hstep] at hlt ⊢
    have htn : jm.timeNano = s.clock := by
      rw [hjm, newMessage_timeNano, unixNano_ofNanos h₀ hlt]
    refine ⟨hpend, pairwise_appendEvent hsorted fun m hm => htn ▸ (hbound m hm).2,
      fun m hm => ?_⟩
    rcases mem_appendEvent hm with hm | rfl
    · exact hbound m hm
    · exact ⟨htn ▸ h₀, Int.le_of_eq htn⟩

theorem ordered_seq_run : ∀ (ops : List SeqStep) (s : EventsSystem), s.Ordered → 0 ≤ s.clock →
    ((ops.flatMap SeqStep.steps).foldl EventsSystem.step s).clock < 2 ^ 63 →
    ((ops.flatMap SeqStep.steps).foldl EventsSystem.step s).Ordered
  | [], _, h, _, _ => h
  | op :: ops, s, h, h₀, hlt => by
    rw [List.flatMap_cons, List.foldl_append] at hlt ⊢
    have hle := clock_le_run (ops.flatMap SeqStep.steps) (op.steps.foldl EventsSystem.step s)
    have hs := clock_le_run op.steps s
    exact ordered_seq_run ops _ (h.seqStep h₀ op (by omega)) (by omega) hlt

/-- When each `Log` takes the lock before the next one reads the clock, and the clock stays
before the year 2262, the replay of every window is exact. -/
theorem seq_replay_exact {clock : Int} (h₀ : 0 ≤ clock) (ops : List SeqStep)
    (hlt : ((ops.flatMap SeqStep.steps).foldl EventsSystem.step (EventsSystem.init clock)).clock <
      2 ^ 63)
    {since «until» : Time} (topic : Option (Message → Bool))
    (hset : since.isZero = false ∨ «until».isZero = false)
    (huntil : «until».isZero = false → 0 < «until».unixNano) :
    loadBufferedEvents
        ((ops.flatMap SeqStep.steps).foldl EventsSystem.step (EventsSystem.init clock)).events
        since «until» topic =
      ((ops.flatMap SeqStep.steps).foldl EventsSystem.step (EventsSystem.init clock)).events.filter
        (Wanted since «until» topic) := by
  obtain ⟨-, hsorted, hbound⟩ :=
    ordered_seq_run ops (EventsSystem.init clock) ⟨rfl, List.Pairwise.nil, fun _ h => by cases h⟩
      h₀ hlt
  exact loadBufferedEvents_sorted hsorted (fun m hm => (hbound m hm).1) topic hset huntil

/-! ## 4. Two `Log` calls that race for the lock -/

-- the second call reads the clock a nanosecond after the first and takes the lock first
def raceSteps : List LogStep :=
  [.tick 1000000000, .begin "start".toList containerEventType ⟨"c1".toList, []⟩, .tick 1,
    .begin "start".toList containerEventType ⟨"c2".toList, []⟩, .finish 1, .finish 0]

theorem loadBufferedEvents_misses_later_event :
    (raceSteps.foldl EventsSystem.step (EventsSystem.init 0)).events.map (·.timeNano) =
        [1000000001, 1000000000] ∧
      ((raceSteps.foldl EventsSystem.step (EventsSystem.init 0)).events.filter
        (Wanted (Time.ofNanos 1000000001) Time.zero none)).map (·.actor.id) = ["c2".toList] ∧
      loadBufferedEvents (raceSteps.foldl EventsSystem.step (EventsSystem.init 0)).events
        (Time.ofNanos 1000000001) Time.zero none = [] := by
  decide

end Docker.Events
