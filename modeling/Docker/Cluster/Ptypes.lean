import Mathlib
import Docker.Parsers.UintList

/-!
# Ptypes — durations in swarmkit's `protobuf/ptypes`

A `time.Duration` is an int64 count of nanoseconds.  A `durpb.Duration` has int64 seconds and
int32 nanoseconds of the same sign.  `DurationProto` splits a duration by Go's truncating
division.  `Duration` puts one back together, with the range checks of `validateDuration` and the
overflow checks of int64 arithmetic.

Every duration reads back from its proto unchanged (`duration_durationProto`).  So a proto made by
`DurationProto` is made again from the duration it reads as.  The errors are kept by kind: every
caller here drops them.
-/

namespace Docker.Cluster

open Docker.Parsers (minInt64 maxInt64 wrapInt64 wrapInt64_of_mem wrapInt64_mem)

/-- A `time.Duration`: an int64 count of nanoseconds. -/
structure Duration where
  nanoseconds : Int
  inRange : minInt64 ≤ nanoseconds ∧ nanoseconds ≤ maxInt64
  deriving DecidableEq

def Duration.zero : Duration := ⟨0, by decide⟩

/-- A `durpb.Duration`. -/
structure ProtoDuration where
  seconds : Int
  nanos : Int
  deriving DecidableEq, Repr

/-- The errors of `Duration`, by the text each one formats. -/
inductive DurationError
  /-- `duration: %v: seconds out of range` -/
  | secondsOutOfRange
  /-- `duration: %v: nanos out of range` -/
  | nanosOutOfRange
  /-- `duration: %v: seconds and nanos have different signs` -/
  | differentSigns
  /-- `duration: %v is out of range for time.Duration` -/
  | outOfRange
  deriving DecidableEq, Repr

/-- `int64(10000 * 365.25 * 24 * 60 * 60)` -/
def maxSeconds : Int := 315576000000

def minSeconds : Int := -maxSeconds

def validateDuration (d : ProtoDuration) : Option DurationError :=
  if d.seconds < minSeconds ∨ d.seconds > maxSeconds then some .secondsOutOfRange
  else if d.nanos ≤ -1000000000 ∨ d.nanos ≥ 1000000000 then some .nanosOutOfRange
  -- seconds and nanos must have the same sign, unless nanos is zero
  else if (d.seconds < 0 ∧ d.nanos > 0) ∨ (d.seconds > 0 ∧ d.nanos < 0) then
    some .differentSigns
  else none

/-- `ptypes.Duration(p)`: the duration, and the error. -/
def duration (p : ProtoDuration) : Duration × Option DurationError :=
  match validateDuration p with
  | some e => (Duration.zero, some e)
  | none =>
    -- `time.Duration(p.Seconds) * time.Second`, in int64
    let d := wrapInt64 (p.seconds * 1000000000)
    if d.tdiv 1000000000 ≠ p.seconds then (Duration.zero, some .outOfRange)
    else if p.nanos ≠ 0 then
      let d' := wrapInt64 (d + p.nanos)
      if decide (d' < 0) ≠ decide (p.nanos < 0) then (Duration.zero, some .outOfRange)
      else (⟨d', wrapInt64_mem _⟩, none)
    else (⟨d, wrapInt64_mem _⟩, none)

/-- `ptypes.DurationProto(d)`.  The nanoseconds left are below a second, so `int32` keeps them. -/
def durationProto (d : Duration) : ProtoDuration :=
  let secs := d.nanoseconds.tdiv 1000000000
  ⟨secs, d.nanoseconds - secs * 1000000000⟩

/-! ## Reading a proto back -/

theorem Duration.bounds (d : Duration) : -2 ^ 63 ≤ d.nanoseconds ∧ d.nanoseconds ≤ 2 ^ 63 - 1 :=
  d.inRange

theorem Duration.ext_nanoseconds {d e : Duration} (h : d.nanoseconds = e.nanoseconds) : d = e := by
  cases d
  cases e
  simp only [Duration.mk.injEq]
  exact h

/-- A split of `n` nanoseconds into whole seconds `s` and leftover nanoseconds `r` of the sign
of `n`: the split `DurationProto` makes. -/
structure SecondsSplit (n s r : Int) : Prop where
  eq : s * 1000000000 + r = n
  small : -1000000000 < r ∧ r < 1000000000
  sign : (0 ≤ n → 0 ≤ r) ∧ (n < 0 → r ≤ 0)

/-- Go's `/` on an int64 duration by a second, through Euclidean division. -/
theorem tdiv_second (n : Int) :
    n.tdiv 1000000000 = if 0 ≤ n then n / 1000000000 else -((-n) / 1000000000) := by
  split
  · rename_i hn
    exact Int.tdiv_eq_ediv_of_nonneg hn
  · rename_i hn
    rw [← Int.tdiv_eq_ediv_of_nonneg (by omega), Int.neg_tdiv, neg_neg]

theorem durationProto_split (d : Duration) :
    SecondsSplit d.nanoseconds (durationProto d).seconds (durationProto d).nanos := by
  have hs := tdiv_second d.nanoseconds
  dsimp only [durationProto]
  constructor
  · omega
  · split_ifs at hs <;> omega
  · split_ifs at hs <;> omega

/-- A proto holding a split of a duration reads as that duration. -/
theorem duration_of_split (d : Duration) (p : ProtoDuration)
    (h : SecondsSplit d.nanoseconds p.seconds p.nanos) : duration p = (d, none) := by
  obtain ⟨s, r⟩ := p
  obtain ⟨heq, hsmall, hsign⟩ := h
  dsimp only at heq hsmall hsign
  have hd := d.bounds
  have hvalid : validateDuration ⟨s, r⟩ = none := by
    unfold validateDuration
    dsimp only
    rw [if_neg (by simp only [minSeconds, maxSeconds]; omega), if_neg (by omega),
      if_neg (by omega)]
  -- the whole seconds are in range, so multiplying them back does not wrap
  have hwhole : wrapInt64 (s * 1000000000) = s * 1000000000 := by
    apply wrapInt64_of_mem <;> simp only [minInt64, maxInt64] <;> omega
  have hback : (wrapInt64 (s * 1000000000)).tdiv 1000000000 = s := by
    rw [hwhole]
    exact Int.mul_tdiv_cancel _ (by decide)
  have hall : wrapInt64 (wrapInt64 (s * 1000000000) + r) = d.nanoseconds := by
    rw [hwhole, heq]
    exact wrapInt64_of_mem d.inRange.1 d.inRange.2
  unfold duration
  rw [hvalid]
  dsimp only
  split_ifs with hcheck hr hsgn
  · exact absurd hback hcheck
  · -- the leftover nanoseconds have the sign of the duration
    rw [hall] at hsgn
    simp only [ne_eq, decide_eq_decide] at hsgn
    omega
  · congr 1
    exact Duration.ext_nanoseconds hall
  · congr 1
    exact Duration.ext_nanoseconds (by dsimp only; omega)

/-- Every duration reads back from its proto. -/
theorem duration_durationProto (d : Duration) : duration (durationProto d) = (d, none) :=
  duration_of_split d _ (durationProto_split d)

end Docker.Cluster
