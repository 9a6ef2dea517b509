import Mathlib.Data.List.Basic

/-!
# Handoff — a counting semaphore with a FIFO queue and direct hand-off

Clients arrive one after another and are numbered in that order.  One that arrives while fewer
than `limit` slots are taken (`0`: no limit) takes a slot; any other waits at the back of the
queue.  A client that gives its slot back hands it straight to the first waiter, and the count of
taken slots drops only when nobody waits.

`Sem.Accounts` is what the bookkeeping means: the count is the number of clients holding a slot
and the queue is the waiting clients in order of arrival.  `Sem.Bounded` is what it is for: no
more than `limit` slots are taken, and nobody waits while one is free.  `arrive` and `leave` (by
a holder) keep both, so every `Step` does.
-/

namespace Reasoning.Handoff

/-- Where a client stands. -/
inductive Status
  | waiting
  | holding
  | gone
  deriving DecidableEq, Repr

/-- The waiting clients, in order of arrival. -/
def waiters (cs : List Status) : List Nat :=
  (List.range cs.length).filter (fun i => cs[i]? == some .waiting)

theorem mem_waiters {cs : List Status} {i : Nat} : i ∈ waiters cs ↔ cs[i]? = some .waiting := by
  rw [waiters, List.mem_filter, List.mem_range, beq_iff_eq]
  constructor
  · exact fun h => h.2
  · intro h
    exact ⟨(List.getElem?_eq_some_iff.1 h).1, h⟩

theorem waiters_nodup (cs : List Status) : (waiters cs).Nodup :=
  List.nodup_range.filter _

theorem waiters_append (cs : List Status) (st : Status) :
    waiters (cs ++ [st]) = waiters cs ++ (if st = .waiting then [cs.length] else []) := by
  rw [waiters, List.length_append, List.length_singleton, List.range_succ, List.filter_append]
  congr 1
  · apply List.filter_congr
    intro k hk
    rw [List.getElem?_append_left (List.mem_range.1 hk)]
  · cases st <;> simp

/-- Setting a client to anything but waiting takes it out of the queue, if it was there. -/
theorem waiters_set {cs : List Status} (i : Nat) {st : Status} (hst : st ≠ .waiting) :
    waiters (cs.set i st) = (waiters cs).filter (· != i) := by
  rw [waiters, waiters, List.length_set, List.filter_filter]
  apply List.filter_congr
  intro k _
  rw [List.getElem?_set]
  by_cases hk : i = k
  · subst hk
    simp [hst]
  · simp [hk, Ne.symm hk]

theorem waiters_set_of_not_mem {cs : List Status} {i : Nat} (hi : i ∉ waiters cs) {st : Status}
    (hst : st ≠ .waiting) : waiters (cs.set i st) = waiters cs := by
  rw [waiters_set i hst, List.filter_eq_self]
  intro k hk
  simpa using fun h : k = i => hi (h ▸ hk)

/-- A semaphore: the count of taken slots, the queue, and every client's status. -/
structure Sem where
  count : Int
  queue : List Nat
  clients : List Status
  deriving DecidableEq, Repr

namespace Sem

def init : Sem := ⟨0, [], []⟩

/-- A new client: a slot if one is free, else the back of the queue. -/
def arrive (limit : Int) (s : Sem) : Sem :=
  if limit = 0 ∨ s.count < limit then ⟨s.count + 1, s.queue, s.clients ++ [.holding]⟩
  else ⟨s.count, s.queue ++ [s.clients.length], s.clients ++ [.waiting]⟩

/-- Client `i` gives its slot back: the first waiter takes it, or the count drops. -/
def leave (s : Sem) (i : Nat) : Sem :=
  match s.queue with
  | j :: rest => ⟨s.count, rest, (s.clients.set i .gone).set j .holding⟩
  | [] => ⟨s.count - 1, [], s.clients.set i .gone⟩

/-- The count and the queue say who holds a slot and who waits. -/
structure Accounts (s : Sem) : Prop where
  count_eq : s.count = s.clients.count .holding
  queue_eq : s.queue = waiters s.clients

/-- No more than `limit` slots are taken, and nobody waits while one is free. -/
structure Bounded (limit : Int) (s : Sem) : Prop where
  count_le : s.count ≤ limit
  busy : s.queue ≠ [] → s.count = limit

theorem accounts_init : init.Accounts := ⟨rfl, rfl⟩

theorem bounded_init {limit : Int} (hlimit : 0 ≤ limit) : init.Bounded limit :=
  ⟨hlimit, fun h => absurd rfl h⟩

variable {s : Sem}

theorem Accounts.arrive (limit : Int) (h : s.Accounts) : (s.arrive limit).Accounts := by
  unfold Sem.arrive
  split
  · refine ⟨?_, ?_⟩
    · simp [h.count_eq]
    · rw [waiters_append, if_neg (by decide), List.append_nil, h.queue_eq]
  · refine ⟨?_, ?_⟩
    · simp [h.count_eq]
    · rw [waiters_append, if_pos rfl, h.queue_eq]

/-- A holder that leaves hands its slot to the first waiter: the count stays, the waiter moves
from the queue to the holders. -/
theorem Accounts.leave (h : s.Accounts) {i : Nat} (hi : s.clients[i]? = some .holding) :
    (s.leave i).Accounts := by
  obtain ⟨hlt, hgi⟩ := List.getElem?_eq_some_iff.1 hi
  have hnot : i ∉ waiters s.clients := by
    rw [mem_waiters, hi]
    simp
  have hpos : 0 < s.clients.count .holding :=
    List.count_pos_iff.2 (List.mem_of_getElem? hi)
  have hcount : (s.clients.set i .gone).count .holding + 1 = s.clients.count .holding := by
    rw [List.count_set hlt, hgi]
    simp only [beq_self_eq_true, if_true, reduceCtorEq, beq_iff_eq, if_false]
    omega
  unfold Sem.leave
  split
  · rename_i j rest hq
    -- the first waiter `j` is not `i`, and waits
    have hj : j ∈ waiters s.clients := by
      rw [← h.queue_eq, hq]
      exact List.mem_cons_self
    have hji : j ≠ i := fun e => hnot (e ▸ hj)
    have hjw : (s.clients.set i .gone)[j]? = some .waiting := by
      rw [List.getElem?_set_ne (Ne.symm hji)]
      exact mem_waiters.1 hj
    obtain ⟨hjlt, hgj⟩ := List.getElem?_eq_some_iff.1 hjw
    refine ⟨?_, ?_⟩
    · rw [List.count_set hjlt, hgj, h.count_eq]
      simp only [reduceCtorEq, beq_iff_eq, if_false, beq_self_eq_true, if_true]
      omega
    · have hrest : j ∉ rest := by
        have hnd := waiters_nodup s.clients
        rw [← h.queue_eq, hq] at hnd
        exact (List.nodup_cons.1 hnd).1
      rw [waiters_set j (by decide), waiters_set_of_not_mem hnot (by decide), ← h.queue_eq, hq,
        List.filter_cons_of_neg (by simp), List.filter_eq_self.2]
      intro k hk
      simpa using fun e : k = j => hrest (e ▸ hk)
  · rename_i hq
    refine ⟨?_, ?_⟩
    · simp only
      rw [h.count_eq]
      omega
    · rw [waiters_set_of_not_mem hnot (by decide), ← h.queue_eq, hq]

variable {limit : Int}

theorem Bounded.arrive (hlimit : 0 < limit) (h : s.Bounded limit) :
    (s.arrive limit).Bounded limit := by
  unfold Sem.arrive
  split
  · rename_i hfree
    have hlt : s.count < limit := hfree.resolve_left (by omega)
    -- a free slot: the queue was empty
    exact ⟨by simp only; omega, fun hq => absurd (h.busy hq) (by omega)⟩
  · rename_i hfull
    have hge : limit ≤ s.count := by omega
    have hle := h.count_le
    exact ⟨hle, fun _ => by simp only; omega⟩

theorem Bounded.leave (h : s.Bounded limit) (i : Nat) : (s.leave i).Bounded limit := by
  unfold Sem.leave
  split
  · rename_i j rest hq
    -- the slot changes hands: the count stays at the limit
    have hfull := h.busy (by simp [hq])
    exact ⟨h.count_le, fun _ => hfull⟩
  · have hle := h.count_le
    exact ⟨by simp only; omega, fun hq => absurd rfl hq⟩

/-- What one step of the clients can do to the semaphore: nothing, a new client, or a holder
giving its slot back. -/
inductive Step (limit : Int) : Sem → Sem → Prop
  | stay (s : Sem) : Step limit s s
  | arrive (s : Sem) : Step limit s (s.arrive limit)
  | leave (s : Sem) {i : Nat} : s.clients[i]? = some .holding → Step limit s (s.leave i)

theorem Accounts.step {s s' : Sem} (h : s.Accounts) (hstep : Step limit s s') : s'.Accounts := by
  cases hstep with
  | stay => exact h
  | arrive => exact h.arrive limit
  | leave hi => exact h.leave hi

theorem Bounded.step (hlimit : 0 < limit) {s s' : Sem} (h : s.Bounded limit)
    (hstep : Step limit s s') : s'.Bounded limit := by
  cases hstep with
  | stay => exact h
  | arrive => exact h.arrive hlimit
  | leave _ => exact h.leave _

end Sem

end Reasoning.Handoff
