import Mathlib.Data.Nat.Bitwise

/-!
# BigEndian — four-byte big-endian words

Go's `encoding/binary.BigEndian` on 32-bit words: `PutUint32` writes the word most significant
byte first, `Uint32` reads it back by or-ing the shifted bytes.  The shifted bytes occupy
disjoint bits, so the or is a sum, and reading what was written gives the word back.
-/

namespace BigEndian

/-- `binary.BigEndian.PutUint32`: the four bytes of `v`, most significant first. -/
def putUint32 (v : Nat) : List UInt8 :=
  [(v >>> 24).toUInt8, (v >>> 16).toUInt8, (v >>> 8).toUInt8, v.toUInt8]

/-- `binary.BigEndian.Uint32` on the first four bytes of `b`. -/
def uint32 (b : List UInt8) : Nat :=
  (b.getD 3 0).toNat ||| (b.getD 2 0).toNat <<< 8 ||| (b.getD 1 0).toNat <<< 16 |||
    (b.getD 0 0).toNat <<< 24

@[simp] theorem length_putUint32 (v : Nat) : (putUint32 v).length = 4 := rfl

/-- An or with a word shifted past the other operand's bits is a sum. -/
theorem or_shiftLeft_eq_add {x y k : Nat} (hx : x < 2 ^ k) : x ||| y <<< k = y * 2 ^ k + x := by
  rw [Nat.lor_comm, ← Nat.shiftLeft_add_eq_or_of_lt hx, Nat.shiftLeft_eq]

theorem uint32_eq (b : List UInt8) :
    uint32 b = (b.getD 0 0).toNat * 2 ^ 24 + (b.getD 1 0).toNat * 2 ^ 16 +
      (b.getD 2 0).toNat * 2 ^ 8 + (b.getD 3 0).toNat := by
  have h₀ := (b.getD 0 0).toNat_lt
  have h₁ := (b.getD 1 0).toNat_lt
  have h₂ := (b.getD 2 0).toNat_lt
  have h₃ := (b.getD 3 0).toNat_lt
  unfold uint32
  -- fold the ors from the least significant byte up
  rw [or_shiftLeft_eq_add (k := 8) (by omega), or_shiftLeft_eq_add (k := 16) (by omega),
    or_shiftLeft_eq_add (k := 24) (by omega)]
  omega

/-- Reading the first four bytes of what `PutUint32` wrote gives the word, as a `uint32`. -/
theorem uint32_putUint32_append (v : Nat) (rest : List UInt8) :
    uint32 (putUint32 v ++ rest) = v % 2 ^ 32 := by
  rw [uint32_eq]
  simp only [putUint32, List.cons_append, List.nil_append, List.getD_cons_zero,
    List.getD_cons_succ, Nat.toUInt8_eq, UInt8.toNat_ofNat', Nat.shiftRight_eq_div_pow]
  omega

end BigEndian
