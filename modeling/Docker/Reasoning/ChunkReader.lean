import Mathlib.Data.List.Basic

/-!
# ChunkReader — an `io.Reader` that delivers a stream in chunks

A reader is modelled by what it has still to deliver: a list of chunks, each the elements of one
`Read` or a failure, and then `io.EOF` for ever.  A `Read` into a buffer with room for `space`
elements takes up to `space` elements of the next chunk; the rest of the chunk waits for the
next `Read`.  Every way of cutting a stream into reads is such a list, so a property proved for
every list of chunks holds for every delivery of the stream.
-/

namespace ChunkReader

variable {ε α : Type}

/-- What a reader has still to deliver. -/
abbrev Source (ε α : Type) := List (Except ε (List α))

/-- `Read` into a buffer with room for `space` elements; `none` is `io.EOF`. -/
def read (space : Nat) : Source ε α → Except ε (Option (List α × Source ε α))
  | [] => .ok none
  | .error e :: _ => .error e
  | .ok c :: cs =>
    if c.length ≤ space then .ok (some (c, cs))
    else .ok (some (c.take space, .ok (c.drop space) :: cs))

/-- A reader that never fails, delivering the chunks `cs` and then `io.EOF`. -/
def ofChunks (cs : List (List α)) : Source ε α :=
  cs.map .ok

/-- A bound on the reads a source has left: each chunk counts its length and one more, and a
failure ends the reading. -/
def size : Source ε α → Nat
  | [] => 0
  | .error _ :: _ => 1
  | .ok c :: cs => c.length + 1 + size cs

@[simp] theorem size_ofChunks_nil : size (ofChunks [] : Source ε α) = 0 := rfl

@[simp] theorem size_ofChunks_cons (c : List α) (cs : List (List α)) :
    size (ofChunks (c :: cs) : Source ε α) = c.length + 1 + size (ofChunks cs : Source ε α) := rfl

/-- The stream is no longer than the bound. -/
theorem length_flatten_le_size (cs : List (List α)) :
    cs.flatten.length ≤ size (ofChunks cs : Source ε α) := by
  induction cs with
  | nil => exact Nat.le_refl 0
  | cons c cs ih =>
    rw [List.flatten_cons, List.length_append, size_ofChunks_cons]
    omega

@[simp] theorem read_ofChunks_nil (space : Nat) :
    read space (ofChunks [] : Source ε α) = .ok none := rfl

/-- One `Read` from a failure-free source with chunks left: what it returns followed by what is
left is the stream, it fits in the buffer, and with room in the buffer the source shrinks. -/
theorem read_ofChunks_cons (space : Nat) (c : List α) (cs : List (List α)) :
    ∃ d cs', read space (ofChunks (c :: cs) : Source ε α) = .ok (some (d, ofChunks cs')) ∧
      d ++ cs'.flatten = (c :: cs).flatten ∧ d.length ≤ space ∧
      (0 < space → size (ofChunks cs' : Source ε α) < size (ofChunks (c :: cs) : Source ε α)) := by
  by_cases hc : c.length ≤ space
  · refine ⟨c, cs, ?_, rfl, hc, fun _ => ?_⟩
    · simp only [ofChunks, List.map_cons, read, if_pos hc]
    · simp only [size_ofChunks_cons]
      omega
  · refine ⟨c.take space, c.drop space :: cs, ?_, ?_, ?_, fun hs => ?_⟩
    · simp only [ofChunks, List.map_cons, read, if_neg hc]
    · simp only [List.flatten_cons, ← List.append_assoc, List.take_append_drop]
    · simp only [List.length_take]
      omega
    · simp only [size_ofChunks_cons, List.length_drop]
      omega

end ChunkReader
