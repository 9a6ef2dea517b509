import Docker.Reasoning.Handoff
import Docker.Reasoning.Reach
import Mathlib.Data.List.Nodup

/-!
# Transfer — the scheduling of `transferManager` (`distribution/xfer/transfer.go`)

The manager runs at most `concurrencyLimit` transfers at once.  `Transfer(key, …)` joins a
transfer in progress for `key`, or starts a new one: it closes the new transfer's `start` channel
at once when a slot is free, and otherwise queues the channel in `waitingTransfers`.  A goroutine
per transfer then waits for the transfer's `inactive` signal or its end (`Done()`); both call
`inactivate(start)`, which hands the slot straight to the first waiting transfer, or frees it.

A world is the manager's fields and, for every transfer it has started (numbered in the order of
the `Transfer` calls that started them), its key, its `start` channel and its goroutine.  The
events are the critical sections under `tm.mu`.  A `DoFunc` promises to close `inactive` and its
progress channel only after `start` (`allowed`).

The manager refines the hand-off semaphore of `Reasoning.Handoff` (`World.sem`): `Transfer`
is `arrive`, and the first `inactivate` of a transfer is `leave`.  So over every run that keeps
the promise, the counter is the number of started transfers not yet inactivated, the queue is the
transfers not yet started in the order of their calls, no more than the limit run at once, and
`tm.transfers` holds one transfer per key (`transfer_manager_accounting`).
-/

namespace Docker.Xfer

open Reasoning.Handoff Reasoning.Reach

/-- A transfer the manager started: its key, its `start` channel, and the goroutine that
waits for `inactive` or `Done()`. -/
structure Transfer where
  key : List Char
  -- `start` is closed
  start : Bool
  -- the goroutine's `inactive` is not yet `nil`
  inactive : Bool
  -- the goroutine has not returned: `key` is still in `tm.transfers`
  tracked : Bool
  deriving DecidableEq, Repr

/-- `transferManager`: transfers are named by their number, `start` channels by their transfer's. -/
structure TransferManager where
  concurrencyLimit : Int
  activeTransfers : Int
  transfers : List (List Char × Nat)
  waitingTransfers : List Nat
  deriving DecidableEq, Repr

/-- The manager and the transfers it has started, in the order of their `Transfer` calls. -/
structure World where
  tm : TransferManager
  xfers : List Transfer
  deriving DecidableEq, Repr

-- `NewTransferManager(concurrencyLimit)`
def newTransferManager (concurrencyLimit : Int) : TransferManager :=
  ⟨concurrencyLimit, 0, [], []⟩

def World.init (concurrencyLimit : Int) : World :=
  ⟨newTransferManager concurrencyLimit, []⟩

/-! ## 1. The manager's code -/

-- `tm.SetConcurrency(concurrency)`
def setConcurrency (w : World) (concurrency : Int) : World :=
  { w with tm := { w.tm with concurrencyLimit := concurrency } }

/-- `close(start)` of transfer `j`. -/
def closeStart (xs : List Transfer) (j : Nat) : List Transfer :=
  xs.modify j (fun x => { x with start := true })

/-- `tm.inactivate(start)` for transfer `i`: if it was started, its slot goes to the first
waiting transfer, or the count drops. -/
def inactivate (w : World) (i : Nat) : World :=
  if w.xfers[i]?.any (·.start) then
    match w.tm.waitingTransfers with
    | j :: rest => ⟨{ w.tm with waitingTransfers := rest }, closeStart w.xfers j⟩
    | [] => { w with tm := { w.tm with activeTransfers := w.tm.activeTransfers - 1 } }
  else w

/-- `tm.Transfer(key, xferFunc, progressOutput)` under `tm.mu`.  A transfer for `key` in progress
is joined; a cancelled one is waited for with the lock released, and the call comes back as a later
`transfer` once it has left the map.  Otherwise a new transfer starts, or queues for a slot. -/
def transfer (w : World) (key : List Char) : World :=
  match w.tm.transfers.lookup key with
  | some _ => w
  | none =>
    let id := w.xfers.length
    let tm := { w.tm with transfers := (key, id) :: w.tm.transfers }
    if w.tm.concurrencyLimit = 0 ∨ w.tm.activeTransfers < w.tm.concurrencyLimit then
      ⟨{ tm with activeTransfers := tm.activeTransfers + 1 }, w.xfers ++ [⟨key, true, true, true⟩]⟩
    else
      ⟨{ tm with waitingTransfers := tm.waitingTransfers ++ [id] },
        w.xfers ++ [⟨key, false, true, true⟩]⟩

/-- The goroutine of transfer `i` takes `case <-inactive:` and sets `inactive = nil`. -/
def onInactive (w : World) (i : Nat) : World :=
  match w.xfers[i]? with
  | some x =>
    if x.tracked ∧ x.inactive then
      let w' := inactivate w i
      { w' with xfers := w'.xfers.modify i (fun x => { x with inactive := false }) }
    else w
  | none => w

/-- The goroutine of transfer `i` takes `case <-xfer.Done():`, deletes `key` and returns. -/
def onDone (w : World) (i : Nat) : World :=
  match w.xfers[i]? with
  | some x =>
    if x.tracked then
      let w' := if x.inactive then inactivate w i else w
      ⟨{ w'.tm with transfers := w'.tm.transfers.filter (·.1 != x.key) },
        w'.xfers.modify i (fun x => { x with tracked := false })⟩
    else w
  | none => w

/-- What can happen while `tm.mu` is free. -/
inductive Event
  | transfer (key : List Char)
  | inactive (i : Nat)
  | done (i : Nat)
  deriving DecidableEq, Repr

def step (w : World) : Event → World
  | .transfer key => transfer w key
  | .inactive i => onInactive w i
  | .done i => onDone w i

/-- The `DoFunc` contract: `inactive`, and the progress channel that ends the transfer, are
closed only after `start`. -/
def allowed (w : World) : Event → Bool
  | .transfer _ => true
  | .inactive i => w.xfers[i]?.any (·.start)
  | .done i => w.xfers[i]?.any (·.start)

/-! ## 2. The manager as a hand-off semaphore -/

/-- Where a transfer stands: waiting for `start`, holding a slot, or done with it. -/
def Transfer.status (x : Transfer) : Status :=
  if !x.start then .waiting else if x.inactive && x.tracked then .holding else .gone

def World.sem (w : World) : Sem :=
  ⟨w.tm.activeTransfers, w.tm.waitingTransfers, w.xfers.map Transfer.status⟩

/-- What holds of every world a run that keeps the contract reaches: the semaphore's accounts,
transfers not yet started that are still waited for, and one tracked transfer per key in
`tm.transfers`. -/
structure World.Ok (w : World) : Prop where
  accounts : w.sem.Accounts
  waiting : ∀ x ∈ w.xfers, x.start = false → x.inactive = true ∧ x.tracked = true
  keys_nodup : (w.tm.transfers.map Prod.fst).Nodup
  mem_transfers : ∀ key i, (key, i) ∈ w.tm.transfers ↔
    w.xfers[i]?.any (fun x => x.tracked && x.key == key) = true

/-! ## 3. Frame lemmas -/

theorem modify_of_getElem? {α : Type*} {xs : List α} {i : Nat} {x : α} (h : xs[i]? = some x)
    (f : α → α) : xs.modify i f = xs.set i (f x) := by
  rw [List.modify_eq_set_getElem?, h]
  rfl

/-- A property of every element survives a `modify` that keeps it at the element changed. -/
theorem forall_mem_modify {α : Type*} {P : α → Prop} {xs : List α} {i : Nat} {f : α → α}
    (h : ∀ y ∈ xs, P y) (hf : ∀ y, xs[i]? = some y → P (f y)) : ∀ y ∈ xs.modify i f, P y := by
  intro y hy
  cases hxi : xs[i]? with
  | none => rw [List.modify_eq_set_getElem?, hxi] at hy; exact h y hy
  | some x =>
    rw [modify_of_getElem? hxi] at hy
    rcases List.mem_or_eq_of_mem_set hy with hy | rfl
    · exact h y hy
    · exact hf x hxi

/-- A test of each element that a `modify` does not change gives the same answers after it. -/
theorem any_modify {α : Type*} {p : α → Bool} {f : α → α} (hf : ∀ y, p (f y) = p y)
    (xs : List α) (i k : Nat) : (xs.modify i f)[k]?.any p = xs[k]?.any p := by
  rw [List.getElem?_modify]
  cases xs[k]? with
  | none => rfl
  | some y =>
    simp only [Option.map_eq_map, Option.map_some, Option.any_some]
    split
    · exact hf y
    · rfl

theorem inactivate_of_start {w : World} {i : Nat} {x : Transfer} (hx : w.xfers[i]? = some x)
    (hs : x.start = true) :
    inactivate w i =
      match w.tm.waitingTransfers with
      | j :: rest => ⟨{ w.tm with waitingTransfers := rest }, closeStart w.xfers j⟩
      | [] => { w with tm := { w.tm with activeTransfers := w.tm.activeTransfers - 1 } } := by
  simp only [inactivate, hx, Option.any_some, hs, if_true]

theorem inactivate_transfers (w : World) (i : Nat) :
    (inactivate w i).tm.transfers = w.tm.transfers := by
  unfold inactivate
  split
  · split <;> rfl
  · rfl

theorem inactivate_concurrencyLimit (w : World) (i : Nat) :
    (inactivate w i).tm.concurrencyLimit = w.tm.concurrencyLimit := by
  unfold inactivate
  split
  · split <;> rfl
  · rfl

/-- `inactivate` only closes `start` channels. -/
theorem inactivate_xfers (w : World) (i : Nat) :
    (inactivate w i).xfers = w.xfers ∨ ∃ j, (inactivate w i).xfers = closeStart w.xfers j := by
  unfold inactivate
  split
  · split
    · exact .inr ⟨_, rfl⟩
    · exact .inl rfl
  · exact .inl rfl

theorem inactivate_any {p : Transfer → Bool} (hp : ∀ y, p { y with start := true } = p y)
    (w : World) (i k : Nat) : (inactivate w i).xfers[k]?.any p = w.xfers[k]?.any p := by
  rcases inactivate_xfers w i with h | ⟨j, h⟩
  · rw [h]
  · rw [h, closeStart, any_modify hp]

theorem inactivate_waiting {w : World} (hw : ∀ x ∈ w.xfers, x.start = false →
    x.inactive = true ∧ x.tracked = true) (i : Nat) :
    ∀ x ∈ (inactivate w i).xfers, x.start = false → x.inactive = true ∧ x.tracked = true := by
  rcases inactivate_xfers w i with h | ⟨j, h⟩
  · rw [h]
    exact hw
  · rw [h, closeStart]
    exact forall_mem_modify hw (fun _ _ hs => absurd hs (by simp))

/-! ## 4. Every step is a step of the semaphore -/

theorem status_eq_waiting (x : Transfer) : x.status = .waiting ↔ x.start = false := by
  rcases x with ⟨_, _ | _, _ | _, _ | _⟩ <;> simp [Transfer.status]

theorem status_eq_holding (x : Transfer) :
    x.status = .holding ↔ (x.start && x.inactive && x.tracked) = true := by
  rcases x with ⟨_, _ | _, _ | _, _ | _⟩ <;> simp [Transfer.status]

theorem map_status_modify {xs : List Transfer} {i : Nat} {x : Transfer} (h : xs[i]? = some x)
    (f : Transfer → Transfer) :
    (xs.modify i f).map Transfer.status = (xs.map Transfer.status).set i (f x).status := by
  rw [modify_of_getElem? h, List.map_set]

theorem sem_transfer_new {w : World} {key : List Char} (hkey : w.tm.transfers.lookup key = none) :
    (transfer w key).sem = w.sem.arrive w.tm.concurrencyLimit := by
  simp only [transfer, hkey, Sem.arrive, World.sem]
  split_ifs <;> simp [Transfer.status] <;> omega

theorem sem_transfer (w : World) (key : List Char) :
    Sem.Step w.tm.concurrencyLimit w.sem (transfer w key).sem := by
  cases hkey : w.tm.transfers.lookup key with
  | some _ => simpa [transfer, hkey] using Sem.Step.stay w.sem
  | none => exact sem_transfer_new hkey ▸ .arrive _

/-- The first `inactivate` of a transfer holding a slot, with the transfer's goroutine marking
it done with the slot, is `leave`. -/
theorem sem_inactivate {w : World} (hw : w.Ok) {i : Nat} {x : Transfer}
    (hx : w.xfers[i]? = some x) (hhold : x.status = .holding) {g : Transfer → Transfer}
    (hg : (g x).status = .gone) :
    (⟨(inactivate w i).tm, (inactivate w i).xfers.modify i g⟩ : World).sem = w.sem.leave i := by
  have hs : x.start = true := by
    have := (status_eq_holding x).1 hhold
    simp_all
  rw [inactivate_of_start hx hs]
  cases hq : w.tm.waitingTransfers with
  | nil =>
    simp [World.sem, Sem.leave, hq, map_status_modify hx, hg]
  | cons j rest =>
    -- the first waiting transfer `j` has not started, so it is not `i`, and it holds the slot
    have hj : j ∈ w.sem.queue := by simp [World.sem, hq]
    rw [hw.accounts.queue_eq, mem_waiters] at hj
    simp only [World.sem, List.getElem?_map] at hj
    obtain ⟨y, hy, hyw⟩ : ∃ y, w.xfers[j]? = some y ∧ y.status = .waiting := by
      cases hxj : w.xfers[j]? with
      | none => simp [hxj] at hj
      | some y => exact ⟨y, rfl, by simpa [hxj] using hj⟩
    have hys : y.start = false := (status_eq_waiting y).1 hyw
    have hji : j ≠ i := by
      rintro rfl
      rw [hx] at hy
      cases hy
      simp [hs] at hys
    obtain ⟨hyi, hyt⟩ := hw.waiting y (List.mem_of_getElem? hy) hys
    have hxi : (closeStart w.xfers j)[i]? = some x := by
      rw [closeStart, List.getElem?_modify_ne _ _ hji]
      exact hx
    simp only [World.sem, Sem.leave, hq]
    rw [map_status_modify hxi, closeStart, map_status_modify hy, hg,
      List.set_comm _ _ hji]
    simp [Transfer.status, hyi, hyt]

theorem sem_onInactive {w : World} (hw : w.Ok) {i : Nat} (he : allowed w (.inactive i) = true) :
    Sem.Step w.tm.concurrencyLimit w.sem (onInactive w i).sem := by
  cases hx : w.xfers[i]? with
  | none => simpa [onInactive, hx] using Sem.Step.stay w.sem
  | some x =>
    have hs : x.start = true := by simpa [allowed, hx] using he
    by_cases hti : x.tracked = true ∧ x.inactive = true
    · -- the transfer's first inactivation: it gives its slot back
      have hhold : x.status = .holding := (status_eq_holding x).2 (by simp [hs, hti])
      have hon : onInactive w i = ⟨(inactivate w i).tm,
          (inactivate w i).xfers.modify i (fun x => { x with inactive := false })⟩ := by
        simp [onInactive, hx, hti]
      rw [hon, sem_inactivate hw hx hhold (by simp [Transfer.status, hs])]
      exact .leave _ (by simp [World.sem, hx, hhold])
    · simpa [onInactive, hx, hti] using Sem.Step.stay w.sem

theorem sem_onDone {w : World} (hw : w.Ok) {i : Nat} (he : allowed w (.done i) = true) :
    Sem.Step w.tm.concurrencyLimit w.sem (onDone w i).sem := by
  cases hx : w.xfers[i]? with
  | none => simpa [onDone, hx] using Sem.Step.stay w.sem
  | some x =>
    have hs : x.start = true := by simpa [allowed, hx] using he
    by_cases ht : x.tracked = true
    · by_cases hin : x.inactive = true
      · -- done with no inactive signal before: the transfer gives its slot back now
        have hhold : x.status = .holding := (status_eq_holding x).2 (by simp [hs, ht, hin])
        have hsem : (onDone w i).sem = (⟨(inactivate w i).tm,
            (inactivate w i).xfers.modify i (fun x => { x with tracked := false })⟩ : World).sem := by
          simp [onDone, hx, ht, hin, World.sem]
        rw [hsem, sem_inactivate hw hx hhold (by simp [Transfer.status, hs])]
        exact .leave _ (by simp [World.sem, hx, hhold])
      · -- its slot was given back when it went inactive
        have hgone : (w.xfers.map Transfer.status)[i]? = some .gone := by
          simp [hx, Transfer.status, hs, hin]
        obtain ⟨hlt, hget⟩ := List.getElem?_eq_some_iff.1 hgone
        have hsem : (onDone w i).sem = w.sem := by
          simp only [onDone, hx, ht, hin, if_true, Bool.false_eq_true, if_false, World.sem]
          rw [map_status_modify hx, show ({ x with tracked := false } : Transfer).status = .gone by
            simp [Transfer.status, hs, hin], ← hget, List.set_getElem_self]
        rw [hsem]
        exact .stay _
    · simpa [onDone, hx, ht] using Sem.Step.stay w.sem

/-- Every step the contract allows is a step of the semaphore. -/
theorem sem_step {w : World} (hw : w.Ok) {e : Event} (he : allowed w e = true) :
    Sem.Step w.tm.concurrencyLimit w.sem (step w e).sem := by
  cases e with
  | transfer key => exact sem_transfer w key
  | inactive i => exact sem_onInactive hw he
  | done i => exact sem_onDone hw he

/-! ## 5. The manager's own invariants -/

/-- `inactivate` never reopens a `start` channel. -/
theorem inactivate_started {w : World} {k : Nat} (h : w.xfers[k]?.any (·.start) = true)
    (i : Nat) : (inactivate w i).xfers[k]?.any (·.start) = true := by
  rcases inactivate_xfers w i with hi | ⟨j, hi⟩
  · rw [hi]
    exact h
  · rw [hi, closeStart, List.getElem?_modify]
    cases hk : w.xfers[k]? with
    | none => simp [hk] at h
    | some y =>
      simp only [hk, Option.any_some] at h
      simp only [Option.map_eq_map, Option.map_some, Option.any_some]
      split
      · rfl
      · exact h

theorem World.Ok.index_eq {w : World} (hw : w.Ok) {key : List Char} {i j : Nat}
    (hi : (key, i) ∈ w.tm.transfers) (hj : (key, j) ∈ w.tm.transfers) : i = j := by
  have h := List.inj_on_of_nodup_map hw.keys_nodup hi hj rfl
  cases h
  rfl

theorem ok_init (L : Int) : (World.init L).Ok where
  accounts := Sem.accounts_init
  waiting := by simp [World.init]
  keys_nodup := List.nodup_nil
  mem_transfers := by simp [World.init, newTransferManager]

/-- A new transfer: its key was not in the map, and goes in with the new transfer's number. -/
theorem ok_transfer {w : World} (hw : w.Ok) (key : List Char) : (transfer w key).Ok := by
  cases hkey : w.tm.transfers.lookup key with
  | some _ => simpa [transfer, hkey] using hw
  | none =>
    have hnew : key ∉ w.tm.transfers.map Prod.fst := by
      intro hk
      obtain ⟨⟨k, i⟩, hm, rfl⟩ := List.mem_map.1 hk
      simpa using List.lookup_eq_none_iff.1 hkey _ hm
    obtain ⟨b, hts, hxs⟩ : ∃ b, (transfer w key).tm.transfers = (key, w.xfers.length) :: w.tm.transfers
        ∧ (transfer w key).xfers = w.xfers ++ [⟨key, b, true, true⟩] := by
      simp only [transfer, hkey]
      split_ifs
      · exact ⟨true, rfl, rfl⟩
      · exact ⟨false, rfl, rfl⟩
    refine ⟨hw.accounts.step (sem_transfer w key), ?_, ?_, ?_⟩
    · rw [hxs]
      intro y hy
      rcases List.mem_append.1 hy with hy | hy
      · exact hw.waiting y hy
      · rw [List.mem_singleton.1 hy]
        exact fun _ => ⟨rfl, rfl⟩
    · rw [hts, List.map_cons]
      exact List.nodup_cons.2 ⟨hnew, hw.keys_nodup⟩
    · intro key' i
      rw [hts, hxs, List.mem_cons, hw.mem_transfers]
      rcases Nat.lt_trichotomy i w.xfers.length with hi | rfl | hi
      · -- an older transfer
        have hne : (key', i) ≠ (key, w.xfers.length) := fun h => Nat.ne_of_lt hi (Prod.ext_iff.1 h).2
        rw [List.getElem?_append_left hi, or_iff_right hne]
      · -- the new one
        have hnone : w.xfers[w.xfers.length]? = none := List.getElem?_eq_none (Nat.le_refl _)
        rw [List.getElem?_concat_length, hnone]
        simp only [Prod.mk.injEq, and_true, Option.any_none, Option.any_some, Bool.true_and,
          beq_iff_eq, Bool.false_eq_true, or_false]
        exact eq_comm
      · have hne : (key', i) ≠ (key, w.xfers.length) := fun h => Nat.ne_of_gt hi (Prod.ext_iff.1 h).2
        have h₁ : w.xfers[i]? = none := List.getElem?_eq_none (by omega)
        have h₂ : (w.xfers ++ [⟨key, b, true, true⟩])[i]? = none :=
          List.getElem?_eq_none (by simp only [List.length_append, List.length_singleton]; omega)
        rw [h₁, h₂, or_iff_right hne]

theorem ok_onInactive {w : World} (hw : w.Ok) {i : Nat} (he : allowed w (.inactive i) = true) :
    (onInactive w i).Ok := by
  cases hx : w.xfers[i]? with
  | none => simpa [onInactive, hx] using hw
  | some x =>
    have hs : x.start = true := by simpa [allowed, hx] using he
    by_cases hti : x.tracked = true ∧ x.inactive = true
    · have hon : onInactive w i = ⟨(inactivate w i).tm,
          (inactivate w i).xfers.modify i (fun x => { x with inactive := false })⟩ := by
        simp [onInactive, hx, hti]
      have hsem := sem_onInactive hw he
      rw [hon] at hsem ⊢
      have hstarted := inactivate_started (by simp [hx, hs] : w.xfers[i]?.any (·.start) = true) i
      refine ⟨hw.accounts.step hsem, ?_, ?_, ?_⟩
      · -- transfer `i` has started, and keeps `start` closed
        refine forall_mem_modify (inactivate_waiting hw.waiting i) ?_
        intro y hy hys
        simp [hy] at hstarted
        simp_all
      · rw [inactivate_transfers]
        exact hw.keys_nodup
      · intro key' k
        dsimp only
        rw [inactivate_transfers, hw.mem_transfers,
          @any_modify _ (fun y : Transfer => y.tracked && y.key == key')
            (fun y : Transfer => { y with inactive := false })
            (fun _ => rfl),
          @inactivate_any (fun y : Transfer => y.tracked && y.key == key') (fun _ => rfl)]
    · simpa [onInactive, hx, hti] using hw

theorem ok_onDone {w : World} (hw : w.Ok) {i : Nat} (he : allowed w (.done i) = true) :
    (onDone w i).Ok := by
  cases hx : w.xfers[i]? with
  | none => simpa [onDone, hx] using hw
  | some x =>
    have hs : x.start = true := by simpa [allowed, hx] using he
    by_cases ht : x.tracked = true
    · -- what `inactivate` leaves of the world, if it runs, before the key is deleted
      obtain ⟨w', hw'⟩ : ∃ w', w' = if x.inactive then inactivate w i else w := ⟨_, rfl⟩
      have hts : w'.tm.transfers = w.tm.transfers := by
        rw [hw']
        split
        · exact inactivate_transfers w i
        · rfl
      have hany : ∀ (key' : List Char) (k : Nat), w'.xfers[k]?.any (fun y : Transfer => y.tracked && y.key == key') =
          w.xfers[k]?.any (fun y : Transfer => y.tracked && y.key == key') := by
        intro key' k
        rw [hw']
        split
        · exact inactivate_any (fun _ => rfl) w i k
        · rfl
      have hwait : ∀ y ∈ w'.xfers, y.start = false → y.inactive = true ∧ y.tracked = true := by
        rw [hw']
        split
        · exact inactivate_waiting hw.waiting i
        · exact hw.waiting
      have hstarted : w'.xfers[i]?.any (·.start) = true := by
        have h0 : w.xfers[i]?.any (·.start) = true := by simp [hx, hs]
        rw [hw']
        split
        · exact inactivate_started h0 i
        · exact h0
      have hon : onDone w i = ⟨{ w'.tm with transfers := w'.tm.transfers.filter (·.1 != x.key) },
          w'.xfers.modify i (fun x => { x with tracked := false })⟩ := by
        simp [onDone, hx, ht, hw']
      have hsem := sem_onDone hw he
      rw [hon] at hsem ⊢
      have hxi : (x.key, i) ∈ w.tm.transfers := (hw.mem_transfers _ _).2 (by simp [hx, ht])
      refine ⟨hw.accounts.step hsem, ?_, ?_, ?_⟩
      · refine forall_mem_modify hwait ?_
        intro y hy hys
        simp [hy] at hstarted
        simp_all
      · rw [hts]
        exact hw.keys_nodup.sublist (List.filter_sublist.map Prod.fst)
      · intro key' k
        dsimp only
        rw [hts, List.mem_filter, hw.mem_transfers, List.getElem?_modify]
        by_cases hk : i = k
        · -- the transfer that ends leaves the map
          subst hk
          rw [hx]
          cases w'.xfers[i]? <;> simp <;> exact fun _ h => h.symm
        · -- another transfer keeps its entry: its key is not the deleted one
          simp only [hk, if_false, Option.map_eq_map, Option.map_id_fun', id_eq]
          rw [← hany]
          constructor
          · exact fun h => h.1
          · intro h
            refine ⟨h, ?_⟩
            have hm : (key', k) ∈ w.tm.transfers := (hw.mem_transfers _ _).2 (by rwa [← hany])
            simp only [bne_iff_ne, ne_eq]
            rintro rfl
            exact hk (hw.index_eq hxi hm)
    · simpa [onDone, hx, ht] using hw

theorem ok_step {w : World} (hw : w.Ok) {e : Event} (he : allowed w e = true) :
    (step w e).Ok := by
  cases e with
  | transfer key => exact ok_transfer hw key
  | inactive i => exact ok_onInactive hw he
  | done i => exact ok_onDone hw he

/-! ## 6. Runs with a fixed limit -/

theorem step_concurrencyLimit (w : World) (e : Event) :
    (step w e).tm.concurrencyLimit = w.tm.concurrencyLimit := by
  cases e with
  | transfer key =>
    simp only [step, transfer]
    split
    · rfl
    · split_ifs <;> rfl
  | inactive i =>
    simp only [step, onInactive]
    split
    · split
      · exact inactivate_concurrencyLimit w i
      · rfl
    · rfl
  | done i =>
    simp only [step, onDone]
    split
    · split
      · dsimp only
        split
        · exact inactivate_concurrencyLimit w i
        · rfl
      · rfl
    · rfl

/-- What every world a run from `NewTransferManager(L)` reaches keeps. -/
structure World.Inv (L : Int) (w : World) : Prop where
  ok : w.Ok
  limit_eq : w.tm.concurrencyLimit = L
  bounded : w.sem.Bounded L

theorem inv_init {L : Int} (hL : 0 < L) : (World.init L).Inv L :=
  ⟨ok_init L, rfl, Sem.bounded_init (Int.le_of_lt hL)⟩

theorem World.Inv.step {L : Int} (hL : 0 < L) {w : World} (h : w.Inv L) {e : Event}
    (he : allowed w e = true) : (Xfer.step w e).Inv L := by
  have hsem := sem_step h.ok he
  rw [h.limit_eq] at hsem
  exact ⟨ok_step h.ok he, (step_concurrencyLimit w e).trans h.limit_eq, h.bounded.step hL hsem⟩

/-- Every run that keeps the `DoFunc` contract ends in a world of the invariant. -/
theorem inv_run {L : Int} (hL : 0 < L) (evs : List Event)
    (hdo : Conforms step allowed (World.init L) evs = true) :
    (evs.foldl step (World.init L)).Inv L :=
  foldl_preserved_of_conforms step (World.Inv L) allowed (fun _ _ h he => h.step hL he) evs _
    (inv_init hL) hdo

theorem World.Ok.active_eq {w : World} (hw : w.Ok) :
    w.tm.activeTransfers = (w.xfers.countP (fun x => x.start && x.inactive && x.tracked) : Int) := by
  have h := hw.accounts.count_eq
  simp only [World.sem, List.count_eq_countP, List.countP_map] at h
  rw [h]
  congr 1
  apply List.countP_congr
  intro x _
  simp [status_eq_holding]

theorem World.Ok.waiting_eq {w : World} (hw : w.Ok) :
    w.tm.waitingTransfers =
      (List.range w.xfers.length).filter (fun i => w.xfers[i]?.any (fun x => !x.start)) := by
  have h := hw.accounts.queue_eq
  simp only [World.sem, waiters, List.length_map] at h
  rw [h]
  apply List.filter_congr
  intro i _
  rw [List.getElem?_map]
  cases w.xfers[i]? with
  | none => rfl
  | some x =>
    simp only [Option.map_some, Option.any_some]
    rcases x with ⟨_, _ | _, _ | _, _ | _⟩ <;> simp [Transfer.status]

/-- Over every interleaving of `Transfer` calls, `inactive` signals and transfer ends that keeps
the `DoFunc` contract: `activeTransfers` counts the started transfers not yet inactivated, no more
than the limit run, `waitingTransfers` is the transfers not yet started in the order of their
calls, and `tm.transfers` holds each key once, for the one transfer still tracked for it. -/
theorem transfer_manager_accounting (L : Int) (hL : 0 < L) (evs : List Event)
    (hdo : Conforms step allowed (World.init L) evs = true) :
    let w := evs.foldl step (World.init L)
    w.tm.activeTransfers = (w.xfers.countP (fun x => x.start && x.inactive && x.tracked) : Int) ∧
    w.tm.activeTransfers ≤ L ∧
    w.tm.waitingTransfers =
      (List.range w.xfers.length).filter (fun i => w.xfers[i]?.any (fun x => !x.start)) ∧
    (w.tm.transfers.map Prod.fst).Nodup ∧
    (∀ key i, (key, i) ∈ w.tm.transfers ↔
      w.xfers[i]?.any (fun x => x.tracked && x.key == key) = true) := by
  intro w
  have h := inv_run hL evs hdo
  exact ⟨h.ok.active_eq, h.bounded.count_le, h.ok.waiting_eq, h.ok.keys_nodup, h.ok.mem_transfers⟩

-- Without the contract the count leaks: `b` signals `inactive` while it waits, so neither of its
-- later inactivations gives back the slot `a` hands it.
example :
    let w := [Event.transfer "a".toList, .transfer "b".toList, .inactive 1, .done 0, .done 1].foldl
      step (World.init 1)
    w.tm.activeTransfers = 1 ∧ w.xfers.countP (fun x => x.start && x.inactive && x.tracked) = 0 := by
  decide

/-- One slot: `b` waits for `a`'s slot, gets it when `a` goes inactive, and `a` is tracked until
it ends. -/
theorem transfer_manager_accounting_one_slot :
    0 < (1 : Int) ∧
    Conforms step allowed (World.init 1)
      [.transfer "a".toList, .transfer "b".toList, .inactive 0, .done 1] = true ∧
    let w := [Event.transfer "a".toList, .transfer "b".toList, .inactive 0, .done 1].foldl step
      (World.init 1)
    w.tm.activeTransfers = (w.xfers.countP (fun x => x.start && x.inactive && x.tracked) : Int) ∧
    w.tm.activeTransfers ≤ 1 ∧
    w.tm.waitingTransfers =
      (List.range w.xfers.length).filter (fun i => w.xfers[i]?.any (fun x => !x.start)) ∧
    (w.tm.transfers.map Prod.fst).Nodup ∧
    (∀ key i, (key, i) ∈ w.tm.transfers ↔
      w.xfers[i]?.any (fun x => x.tracked && x.key == key) = true) :=
  ⟨by decide, by decide, transfer_manager_accounting 1 (by decide) _ (by decide)⟩

end Docker.Xfer

