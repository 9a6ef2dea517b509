import Mathlib

/-!
# CopyEscapable — the detach keys on the attach stream

`copyEscapable` copies a container's attached stdin (`src`) into the container (`dst`), and stops
with `DetachError` when the detach keys come in, ctrl-p ctrl-q unless the user chose others.  The
keys are looked for one read at a time: each must come as a read of exactly one byte, and on a
mismatch every byte read so far is written on and the search starts again with the next read.

A detach always means that the keys came as consecutive reads of one byte each
(`copyEscapable_detach_spells_keys`); without one, `dst` gets every byte read, in order, and
`written` counts them (`copyEscapable_bufferWriter_copies`).  The converse of the first fails: the
read that ends an attempt is never looked at as the start of the next one, so with keys `p q` the
reads `p`, `p`, `q` do not detach (`copyEscapable_misses_restarted_keys`).
-/

namespace Docker.Container

variable {W : Type}

/-! ## 1. The copy loop -/

/-- The error a `Read` returns with its bytes: `io.EOF`, or another one. -/
inductive ReadErr
  | eof
  | other (msg : String)
  deriving DecidableEq, Repr

/-- `src`: what its `Read`s return, in order (once those are used up, `io.EOF`), and whether
`src.Close()` was called. -/
structure Reader where
  reads : List (List UInt8 × Option ReadErr)
  closed : Bool
  deriving DecidableEq, Repr

/-- `nr, er = src.Read(buf)`: the bytes `buf[0:nr]`, `er`, and the reader after the read. -/
def Reader.read : Reader → List UInt8 × Option ReadErr × Reader
  | ⟨[], closed⟩ => ([], some .eof, ⟨[], closed⟩)
  | ⟨(bytes, er) :: rest, closed⟩ => (bytes, er, ⟨rest, closed⟩)

/-- `dst`: `Write` on a writer in state `W` returns `nw` and `ew`. -/
structure Writer (W : Type) where
  write : W → List UInt8 → (Nat × Option String) × W

/-- A `dst` that takes every byte it is given. -/
def bufferWriter : Writer (List UInt8) where
  write w p := ((p.length, none), w ++ p)

/-- The errors `copyEscapable` returns. -/
inductive CopyError
  | detach                    -- `DetachError{}`
  | shortWrite                -- `io.ErrShortWrite`
  | write (msg : String)
  | read (msg : String)
  deriving DecidableEq, Repr

/-- What `copyEscapable` returns, `written` and `err`, with `src` and `dst` after the copy. -/
structure CopyResult (W : Type) where
  written : Nat
  err : Option CopyError
  src : Reader
  dst : W

/-- How `for i, key := range keys` ends: with the detach, or with `preservBuf`, the last read
(`buf[0:nr]` and `er`) and the reader. -/
inductive KeyOutcome
  | detach (src : Reader)
  | flush (preservBuf chunk : List UInt8) (er : Option ReadErr) (src : Reader)

/-- The key loop from the first key of `keys` on; `chunk` and `er` are the last read. -/
def keyLoop : List UInt8 → List UInt8 → Option ReadErr → List UInt8 → Reader → KeyOutcome
  | [], chunk, er, preservBuf, src => .flush preservBuf chunk er src
  | key :: rest, chunk, er, preservBuf, src =>
    let preservBuf := preservBuf ++ chunk
    if chunk.length ≠ 1 ∨ chunk.head? ≠ some key then .flush preservBuf chunk er src
    -- `i == len(keys)-1`: the last key matched
    else if rest = [] then .detach { src with closed := true }
    else
      let (chunk, er, src) := src.read
      keyLoop rest chunk er preservBuf src

/-- How one turn of the outer loop ends: `copyEscapable` returns, or the loop goes on. -/
inductive Turn (W : Type)
  | stop (r : CopyResult W)
  | next (src : Reader) (dst : W) (written : Nat)

/-- `if er == io.EOF { break }; if er != nil { err = er; break }`. -/
def endTurn (er : Option ReadErr) (src : Reader) (dst : W) (written : Nat) : Turn W :=
  match er with
  | some .eof => .stop ⟨written, none, src, dst⟩
  | some (.other e) => .stop ⟨written, some (.read e), src, dst⟩
  | none => .next src dst written

/-- The write after the key loop, then the end of the turn. -/
def flushTurn (wr : Writer W) (preservBuf chunk : List UInt8) (er : Option ReadErr)
    (src : Reader) (dst : W) (written : Nat) : Turn W :=
  let ((nw, ew), dst) :=
    if 0 < preservBuf.length then wr.write dst preservBuf else wr.write dst chunk
  let nr := if 0 < preservBuf.length then preservBuf.length else chunk.length
  let written := if 0 < nw then written + nw else written
  match ew with
  | some e => .stop ⟨written, some (.write e), src, dst⟩
  | none =>
    if nr ≠ nw then .stop ⟨written, some .shortWrite, src, dst⟩ else endTurn er src dst written

/-- One turn of the outer `for` loop. -/
def copyTurn (wr : Writer W) (keys : List UInt8) (src : Reader) (dst : W) (written : Nat) :
    Turn W :=
  let (chunk, er, src) := src.read
  if 0 < chunk.length then
    match keyLoop keys chunk er [] src with
    | .detach src => .stop ⟨0, some .detach, src, dst⟩
    | .flush preservBuf chunk er src => flushTurn wr preservBuf chunk er src dst written
  else endTurn er src dst written

/-- The outer `for` loop; `none` only when `fuel` runs out. -/
def copyLoop (wr : Writer W) (keys : List UInt8) :
    Nat → Reader → W → Nat → Option (CopyResult W)
  | 0, _, _, _ => none
  | fuel + 1, src, dst, written =>
    match copyTurn wr keys src dst written with
    | .stop r => some r
    | .next src dst written => copyLoop wr keys fuel src dst written

/-- The keys `copyEscapable` looks for: ctrl-p ctrl-q unless others are given. -/
def detachKeys (keys : List UInt8) : List UInt8 :=
  if keys.length = 0 then [16, 17] else keys

/-- `copyEscapable(dst, src, keys)`.  Every turn uses up a read, so the reads and one more turn,
which gets `io.EOF`, are enough fuel (`copyEscapable_isSome`). -/
def copyEscapable (wr : Writer W) (dst : W) (src : Reader) (keys : List UInt8) :
    Option (CopyResult W) :=
  copyLoop wr (detachKeys keys) (src.reads.length + 1) src dst 0

example : ((copyEscapable bufferWriter [] ⟨[([16], none), ([17], none), ([1], none)], false⟩
    []).map CopyResult.err) = some (some .detach) := by decide

/-! ## 2. The key loop -/

theorem detachKeys_ne_nil (keys : List UInt8) : detachKeys keys ≠ [] := by
  unfold detachKeys
  split
  · simp
  · rename_i h
    exact fun hnil => h (by rw [hnil]; rfl)

theorem eq_singleton_of_match {chunk : List UInt8} {key : UInt8}
    (h : ¬(chunk.length ≠ 1 ∨ chunk.head? ≠ some key)) : chunk = [key] := by
  simp only [ne_eq, not_or, not_not] at h
  obtain ⟨a, rfl⟩ := List.length_eq_one_iff.mp h.1
  simpa using h.2

/-- A detach: the read in hand and the next ones spell the keys, one byte each. -/
theorem keyLoop_detach {keys chunk pre : List UInt8} {er : Option ReadErr} {src s : Reader}
    (h : keyLoop keys chunk er pre src = .detach s) :
    chunk :: (src.reads.take (keys.length - 1)).map Prod.fst = keys.map (fun b => [b]) ∧
      s.reads = src.reads.drop (keys.length - 1) := by
  induction keys generalizing chunk er pre src with
  | nil => simp [keyLoop] at h
  | cons key rest ih =>
    unfold keyLoop at h
    split at h
    · simp at h
    · rename_i hmatch
      have hchunk := eq_singleton_of_match hmatch
      split at h
      · rename_i hrest
        subst hrest
        cases h
        exact ⟨by simp [hchunk], rfl⟩
      · rename_i hrest
        have hlen : (key :: rest).length - 1 = (rest.length - 1) + 1 := by
          have := List.length_pos_iff.mpr hrest
          simp only [List.length_cons]
          omega
        obtain ⟨reads, closed⟩ := src
        cases reads with
        | nil =>
          -- the reader is used up: the next key meets a read of no bytes
          obtain ⟨hspell, -⟩ := ih h
          cases rest with
          | nil => exact absurd rfl hrest
          | cons _ _ => simp at hspell
        | cons read tl =>
          obtain ⟨hspell, hs⟩ := ih h
          rw [hlen, hchunk, List.take_succ_cons, List.map_cons, List.map_cons]
          exact ⟨congrArg _ hspell, hs⟩

/-- No detach: `preservBuf` holds the read in hand and the ones the key loop made. -/
theorem keyLoop_flush {keys chunk pre buf last : List UInt8} {er er' : Option ReadErr}
    {src s : Reader} (hkeys : keys ≠ []) (h : keyLoop keys chunk er pre src = .flush buf last er' s) :
    ∃ k, buf = pre ++ chunk ++ (src.reads.take k).flatMap Prod.fst ∧ s.reads = src.reads.drop k := by
  induction keys generalizing chunk er pre src with
  | nil => exact absurd rfl hkeys
  | cons key rest ih =>
    unfold keyLoop at h
    split at h
    · cases h
      exact ⟨0, by simp, by simp⟩
    · split at h
      · simp at h
      · rename_i hrest
        obtain ⟨reads, closed⟩ := src
        cases reads with
        | nil =>
          obtain ⟨k, hbuf, hs⟩ := ih hrest h
          exact ⟨0, by simpa [Reader.read] using hbuf, by simpa [Reader.read] using hs⟩
        | cons read tl =>
          obtain ⟨k, hbuf, hs⟩ := ih hrest h
          exact ⟨k + 1, by simp [hbuf], hs⟩

/-! ## 3. One turn

What a turn can do is said once (`copyTurn_cases`); the facts about turns below split on it. -/

/-- A turn that leaves the reader at `s` without the detach. -/
def Turn.EndsAt (s : Reader) : Turn W → Prop
  | .stop r => r.src = s ∧ r.err ≠ some .detach
  | .next s' _ _ => s' = s

theorem endTurn_endsAt (er : Option ReadErr) (s : Reader) (dst : W) (written : Nat) :
    (endTurn er s dst written).EndsAt s := by
  unfold endTurn
  split <;> simp [Turn.EndsAt]

theorem flushTurn_endsAt (wr : Writer W) (buf last : List UInt8) (er : Option ReadErr)
    (s : Reader) (dst : W) (written : Nat) : (flushTurn wr buf last er s dst written).EndsAt s := by
  unfold flushTurn
  split
  rename_i nw ew dst' _
  cases ew with
  | some e => simp [Turn.EndsAt]
  | none =>
    dsimp only
    by_cases hnw : (if 0 < buf.length then buf.length else last.length) ≠ nw
    · rw [if_pos hnw]
      exact ⟨rfl, by simp⟩
    · rw [if_neg hnw]
      exact endTurn_endsAt _ _ _ _

theorem copyTurn_cases (wr : Writer W) (keys : List UInt8) (src : Reader) (dst : W)
    (written : Nat) :
    -- the reader is used up
    (src.reads = [] ∧ copyTurn wr keys src dst written = .stop ⟨written, none, src, dst⟩) ∨
    -- a read of no bytes
    (∃ er rest, src.reads = ([], er) :: rest ∧
      copyTurn wr keys src dst written = endTurn er ⟨rest, src.closed⟩ dst written) ∨
    -- a read of some bytes, and the key loop after it
    (∃ chunk er rest, src.reads = (chunk, er) :: rest ∧ 0 < chunk.length ∧
      ((∃ s, keyLoop keys chunk er [] ⟨rest, src.closed⟩ = .detach s ∧
          copyTurn wr keys src dst written = .stop ⟨0, some .detach, s, dst⟩) ∨
        ∃ buf last er' s, keyLoop keys chunk er [] ⟨rest, src.closed⟩ = .flush buf last er' s ∧
          copyTurn wr keys src dst written = flushTurn wr buf last er' s dst written)) := by
  obtain ⟨reads, closed⟩ := src
  cases reads with
  | nil => exact .inl ⟨rfl, rfl⟩
  | cons read rest =>
    obtain ⟨chunk, er⟩ := read
    rcases Nat.eq_zero_or_pos chunk.length with h0 | hpos
    · rw [List.length_eq_zero_iff.mp h0]
      exact .inr (.inl ⟨er, rest, rfl, rfl⟩)
    · refine .inr (.inr ⟨chunk, er, rest, rfl, hpos, ?_⟩)
      cases hk : keyLoop keys chunk er [] ⟨rest, closed⟩ with
      | detach s => exact .inl ⟨s, rfl, by simp [copyTurn, Reader.read, hpos, hk]⟩
      | flush buf last er' s =>
        exact .inr ⟨buf, last, er', s, rfl, by simp [copyTurn, Reader.read, hpos, hk]⟩

/-- A turn that goes on has used up at least one read. -/
theorem copyTurn_next {wr : Writer W} {keys : List UInt8} {src src' : Reader} {dst dst' : W}
    {written written' : Nat} (hkeys : keys ≠ [])
    (h : copyTurn wr keys src dst written = .next src' dst' written') :
    ∃ j, src'.reads = src.reads.drop j ∧ src'.reads.length < src.reads.length := by
  rcases copyTurn_cases wr keys src dst written with
    ⟨-, ht⟩ | ⟨er, rest, hr, ht⟩ | ⟨chunk, er, rest, hr, -, ⟨s, -, ht⟩ | ⟨buf, last, er', s, hk, ht⟩⟩
  · rw [ht] at h
    cases h
  · have hend := endTurn_endsAt er ⟨rest, src.closed⟩ dst written
    rw [← ht, h] at hend
    refine ⟨1, by rw [hend, hr]; rfl, ?_⟩
    rw [hend, hr]
    simp
  · rw [ht] at h
    cases h
  · have hend := flushTurn_endsAt wr buf last er' s dst written
    rw [← ht, h] at hend
    obtain ⟨k, -, hs⟩ := keyLoop_flush hkeys hk
    refine ⟨k + 1, by rw [hend, hs, hr]; rfl, ?_⟩
    rw [hend, hs, hr, List.length_drop, List.length_cons]
    dsimp only
    omega

/-- A turn that detaches has read the keys, one byte a read. -/
theorem copyTurn_detach {wr : Writer W} {keys : List UInt8} {src : Reader} {dst : W}
    {written : Nat} {r : CopyResult W} (h : copyTurn wr keys src dst written = .stop r)
    (hd : r.err = some .detach) :
    (src.reads.take keys.length).map Prod.fst = keys.map (fun b => [b]) := by
  rcases copyTurn_cases wr keys src dst written with
    ⟨-, ht⟩ | ⟨er, rest, hr, ht⟩ | ⟨chunk, er, rest, hr, -, ⟨s, hk, ht⟩ | ⟨buf, last, er', s, hk, ht⟩⟩
  · rw [ht] at h
    cases h
    simp at hd
  · have hend := endTurn_endsAt er ⟨rest, src.closed⟩ dst written
    rw [← ht, h] at hend
    exact absurd hd hend.2
  · obtain ⟨hspell, -⟩ := keyLoop_detach hk
    have hpos : 0 < keys.length := by
      have := congrArg List.length hspell
      simp only [List.length_cons, List.length_map] at this
      omega
    obtain ⟨n, hn⟩ : ∃ n, keys.length = n + 1 := ⟨keys.length - 1, by omega⟩
    rw [hr, hn, List.take_succ_cons, List.map_cons]
    rw [hn] at hspell
    exact hspell
  · have hend := flushTurn_endsAt wr buf last er' s dst written
    rw [← ht, h] at hend
    exact absurd hd hend.2

/-- `dst'` got exactly the bytes of the reads between `src` and `src'`, and `written'` counts
them. -/
def Copies (src : Reader) (dst : List UInt8) (written : Nat) (src' : Reader) (dst' : List UInt8)
    (written' : Nat) : Prop :=
  ∃ k, src'.reads = src.reads.drop k ∧ dst' = dst ++ (src.reads.take k).flatMap Prod.fst ∧
    written' = written + ((src.reads.take k).flatMap Prod.fst).length

theorem Copies.refl (src : Reader) (dst : List UInt8) (written : Nat) :
    Copies src dst written src dst written :=
  ⟨0, by simp, by simp, by simp⟩

theorem Copies.trans {src src' src'' : Reader} {dst dst' dst'' : List UInt8}
    {written written' written'' : Nat} (h₁ : Copies src dst written src' dst' written')
    (h₂ : Copies src' dst' written' src'' dst'' written'') :
    Copies src dst written src'' dst'' written'' := by
  obtain ⟨k₁, hr₁, hd₁, hw₁⟩ := h₁
  obtain ⟨k₂, hr₂, hd₂, hw₂⟩ := h₂
  have htake : (src.reads.take (k₁ + k₂)).flatMap Prod.fst =
      (src.reads.take k₁).flatMap Prod.fst ++ (src'.reads.take k₂).flatMap Prod.fst := by
    rw [List.take_add, List.flatMap_append, hr₁]
  refine ⟨k₁ + k₂, ?_, ?_, ?_⟩
  · rw [hr₂, hr₁, List.drop_drop]
  · rw [hd₂, hd₁, htake, List.append_assoc]
  · rw [hw₂, hw₁, htake, List.length_append]
    omega

/-- A turn after which `dst` holds the bytes read since `src`, unless it detached. -/
def Turn.CopiesFrom (src : Reader) (dst : List UInt8) (written : Nat) :
    Turn (List UInt8) → Prop
  | .stop r => r.err ≠ some .detach → Copies src dst written r.src r.dst r.written
  | .next src' dst' written' => Copies src dst written src' dst' written'

theorem endTurn_copiesFrom {src s : Reader} {dst d : List UInt8} {written w : Nat}
    (er : Option ReadErr) (hc : Copies src dst written s d w) :
    (endTurn er s d w).CopiesFrom src dst written := by
  unfold endTurn
  split
  · exact fun _ => hc
  · exact fun _ => hc
  · exact hc

theorem flushTurn_bufferWriter {buf last : List UInt8} (er : Option ReadErr) (s : Reader)
    (dst : List UInt8) (written : Nat) (hbuf : 0 < buf.length) :
    flushTurn bufferWriter buf last er s dst written =
      endTurn er s (dst ++ buf) (written + buf.length) := by
  simp [flushTurn, bufferWriter, hbuf]

/-- With a `dst` that takes every byte, each turn writes exactly the bytes it read. -/
theorem copyTurn_bufferWriter {keys : List UInt8} (hkeys : keys ≠ []) (src : Reader)
    (dst : List UInt8) (written : Nat) :
    (copyTurn bufferWriter keys src dst written).CopiesFrom src dst written := by
  rcases copyTurn_cases bufferWriter keys src dst written with
    ⟨-, ht⟩ | ⟨er, rest, hr, ht⟩ | ⟨chunk, er, rest, hr, hpos, ⟨s, hk, ht⟩ | ⟨buf, last, er', s, hk, ht⟩⟩
  · rw [ht]
    exact fun _ => Copies.refl src dst written
  · rw [ht]
    exact endTurn_copiesFrom er ⟨1, by rw [hr]; rfl, by simp [hr], by simp [hr]⟩
  · rw [ht]
    exact fun hd => absurd rfl hd
  · obtain ⟨k, hbuf, hs⟩ := keyLoop_flush hkeys hk
    have hlen : 0 < buf.length := by
      rw [hbuf, List.nil_append, List.length_append]
      omega
    rw [ht, flushTurn_bufferWriter er' s dst written hlen]
    refine endTurn_copiesFrom er' ⟨k + 1, by rw [hs, hr]; rfl, ?_, ?_⟩
    · rw [hbuf, hr]
      simp
    · rw [hbuf, hr]
      simp

/-! ## 4. Whole runs -/

/-- The loop ends before its fuel does: every turn that goes on uses up a read. -/
theorem copyLoop_isSome {keys : List UInt8} (hkeys : keys ≠ []) (wr : Writer W) :
    ∀ fuel (src : Reader) (dst : W) (written : Nat), src.reads.length < fuel →
      ∃ r, copyLoop wr keys fuel src dst written = some r := by
  intro fuel
  induction fuel with
  | zero => intro _ _ _ h; omega
  | succ fuel ih =>
    intro src dst written hlen
    cases ht : copyTurn wr keys src dst written with
    | stop r => exact ⟨r, by simp [copyLoop, ht]⟩
    | next src' dst' written' =>
      obtain ⟨-, -, hshorter⟩ := copyTurn_next hkeys ht
      obtain ⟨r, hr⟩ := ih src' dst' written' (by omega)
      exact ⟨r, by simp [copyLoop, ht, hr]⟩

/-- A run that detaches has met the keys as consecutive reads of one byte each. -/
theorem copyLoop_detach {keys : List UInt8} (hkeys : keys ≠ []) (wr : Writer W) :
    ∀ fuel (src : Reader) (dst : W) (written : Nat) (r : CopyResult W),
      copyLoop wr keys fuel src dst written = some r → r.err = some .detach →
        ∃ i, ((src.reads.drop i).take keys.length).map Prod.fst = keys.map (fun b => [b]) := by
  intro fuel
  induction fuel with
  | zero => intro _ _ _ _ h; simp [copyLoop] at h
  | succ fuel ih =>
    intro src dst written r h hd
    cases ht : copyTurn wr keys src dst written with
    | stop r' =>
      simp only [copyLoop, ht, Option.some.injEq] at h
      subst h
      exact ⟨0, copyTurn_detach ht hd⟩
    | next src' dst' written' =>
      simp only [copyLoop, ht] at h
      obtain ⟨j, hj, -⟩ := copyTurn_next hkeys ht
      obtain ⟨i, hi⟩ := ih src' dst' written' r h hd
      exact ⟨j + i, by rw [← List.drop_drop, ← hj, hi]⟩

/-- Fewer reads than keys never detach. -/
theorem copyLoop_ne_detach_of_length_lt {keys : List UInt8} (hkeys : keys ≠ [])
    (wr : Writer W) (fuel : Nat) (src : Reader) (dst : W) (written : Nat) (r : CopyResult W)
    (hlen : src.reads.length < keys.length) (h : copyLoop wr keys fuel src dst written = some r) :
    r.err ≠ some .detach := by
  intro hd
  obtain ⟨i, hi⟩ := copyLoop_detach hkeys wr fuel src dst written r h hd
  have hcount := congrArg List.length hi
  simp only [List.length_map, List.length_take, List.length_drop] at hcount
  omega

/-- With a `dst` that takes every byte, a run that does not detach writes exactly the bytes it
read. -/
theorem copyLoop_bufferWriter {keys : List UInt8} (hkeys : keys ≠ []) :
    ∀ fuel (src : Reader) (dst : List UInt8) (written : Nat) (r : CopyResult (List UInt8)),
      copyLoop bufferWriter keys fuel src dst written = some r → r.err ≠ some .detach →
        Copies src dst written r.src r.dst r.written := by
  intro fuel
  induction fuel with
  | zero => intro _ _ _ _ h; simp [copyLoop] at h
  | succ fuel ih =>
    intro src dst written r h hd
    have hturn := copyTurn_bufferWriter hkeys src dst written
    cases ht : copyTurn bufferWriter keys src dst written with
    | stop r' =>
      simp only [copyLoop, ht, Option.some.injEq] at h
      subst h
      rw [ht] at hturn
      exact hturn hd
    | next src' dst' written' =>
      simp only [copyLoop, ht] at h
      rw [ht] at hturn
      exact hturn.trans (ih src' dst' written' r h hd)

/-! ## 5. `copyEscapable` -/

theorem copyEscapable_isSome (wr : Writer W) (dst : W) (src : Reader) (keys : List UInt8) :
    ∃ r, copyEscapable wr dst src keys = some r :=
  copyLoop_isSome (detachKeys_ne_nil keys) wr _ src dst 0 (Nat.lt_succ_self _)

theorem copyEscapable_detach_spells_keys (wr : Writer W) (dst : W) (src : Reader)
    (keys : List UInt8) (r : CopyResult W) (h : copyEscapable wr dst src keys = some r)
    (hd : r.err = some .detach) :
    ∃ i, ((src.reads.drop i).take (detachKeys keys).length).map Prod.fst =
      (detachKeys keys).map (fun b => [b]) :=
  copyLoop_detach (detachKeys_ne_nil keys) wr _ src dst 0 r h hd

theorem copyEscapable_bufferWriter_copies (dst : List UInt8) (src : Reader) (keys : List UInt8) :
    ∃ r, copyEscapable bufferWriter dst src keys = some r ∧
      (r.err ≠ some .detach → Copies src dst 0 r.src r.dst r.written) := by
  obtain ⟨r, hr⟩ := copyEscapable_isSome bufferWriter dst src keys
  exact ⟨r, hr, copyLoop_bufferWriter (detachKeys_ne_nil keys) _ src dst 0 r hr⟩

theorem copyEscapable_misses_restarted_keys (k₀ k₁ : UInt8) (rest : List UInt8) (hne : k₀ ≠ k₁) :
    ((((([k₀], none) :: (k₀ :: k₁ :: rest).map fun k => ([k], none)) :
        List (List UInt8 × Option ReadErr)).drop 1).take
        (k₀ :: k₁ :: rest).length).map Prod.fst = (k₀ :: k₁ :: rest).map (fun b => [b]) ∧
      ∃ r, copyEscapable bufferWriter []
          ⟨([k₀], none) :: (k₀ :: k₁ :: rest).map (fun k => ([k], none)), false⟩
          (k₀ :: k₁ :: rest) = some r ∧ r.err ≠ some .detach := by
  refine ⟨by simp [Function.comp_def, List.take_of_length_le], ?_⟩
  have hkeys : detachKeys (k₀ :: k₁ :: rest) = k₀ :: k₁ :: rest := by simp [detachKeys]
  -- the first turn reads `k₀` twice, meets `k₀` where `k₁` should be, and writes both
  have hfirst : copyTurn bufferWriter (k₀ :: k₁ :: rest)
      ⟨([k₀], none) :: (k₀ :: k₁ :: rest).map (fun k => ([k], none)), false⟩ [] 0 =
        .next ⟨(k₁ :: rest).map (fun k => ([k], none)), false⟩ [k₀, k₀] 2 := by
    simp [copyTurn, Reader.read, keyLoop, flushTurn, bufferWriter, endTurn, hne]
  obtain ⟨r, hr⟩ := copyLoop_isSome (List.cons_ne_nil k₀ (k₁ :: rest)) bufferWriter
    (rest.length + 3) ⟨(k₁ :: rest).map (fun k => ([k], none)), false⟩ [k₀, k₀] 2 (by simp)
  refine ⟨r, ?_, ?_⟩
  · simp only [copyEscapable, hkeys, List.length_cons, List.length_map]
    simp only [copyLoop, hfirst]
    exact hr
  · -- what is left after the first turn is one read short of the keys
    exact copyLoop_ne_detach_of_length_lt (List.cons_ne_nil _ _) bufferWriter _ _ _ _ r
      (by simp) hr

theorem copyEscapable_misses_restarted_keys_ctrl_p :
    (16 : UInt8) ≠ 17 ∧
      ((((([16], none) :: ([16, 17] : List UInt8).map fun k => ([k], none)) :
          List (List UInt8 × Option ReadErr)).drop 1).take
          ([16, 17] : List UInt8).length).map Prod.fst = ([16, 17] : List UInt8).map (fun b => [b]) ∧
        ∃ r, copyEscapable bufferWriter []
            ⟨([16], none) :: ([16, 17] : List UInt8).map (fun k => ([k], none)), false⟩
            [16, 17] = some r ∧ r.err ≠ some .detach :=
  ⟨by decide, copyEscapable_misses_restarted_keys 16 17 [] (by decide)⟩

end Docker.Container
