import Mathlib

/-!
# BitmapAlloc — bits packed eight to a byte, and a bounded first-fit search

A bitmap of `n` bytes holds bit `i` in byte `i / 8` under the mask `1 << (i % 8)`.  OR-ing that
mask into the byte sets bit `i` and no other (`testBit_set_or`); AND-ing its complement clears
bit `i` and no other (`testBit_set_and_not`).

A first-fit search tries a position, and moves to the next one, at most `fuel` times
(`findFrom`).  It returns the first position of `s, next s, next (next s), …` that it accepts
(`findFrom_eq_find?`).  Counting modulo `m` from any residue meets every residue within `m`
steps (`exists_add_mod_eq`), so a search over `m` positions modulo `m` tries them all.
-/

namespace Reasoning.BitmapAlloc

/-! ## Bits of a byte -/

section Byte

variable {k : Nat}

theorem toNat_one_shiftLeft (hk : k < 8) : ((1 : UInt8) <<< k.toUInt8).toNat = 2 ^ k := by
  have hk' : k.toUInt8.toNat = k := by simp; omega
  have hpow : 2 ^ k < 2 ^ 8 := Nat.pow_lt_pow_right (by decide) hk
  rw [UInt8.toNat_shiftLeft, hk', Nat.mod_eq_of_lt hk, UInt8.toNat_one, Nat.one_shiftLeft,
    Nat.mod_eq_of_lt hpow]

/-- `b & (1 << k) != 0` reads bit `k` of `b`. -/
theorem and_shiftLeft_ne_zero (b : UInt8) (hk : k < 8) :
    b &&& (1 <<< k.toUInt8) ≠ 0 ↔ b.toNat.testBit k = true := by
  rw [Ne, ← UInt8.toNat_inj, UInt8.toNat_and, toNat_one_shiftLeft hk, UInt8.toNat_zero,
    Nat.and_two_pow]
  cases b.toNat.testBit k <;> simp

theorem testBit_or_shiftLeft (b : UInt8) (hk : k < 8) (j : Nat) :
    (b ||| (1 <<< k.toUInt8)).toNat.testBit j = (b.toNat.testBit j || decide (k = j)) := by
  rw [UInt8.toNat_or, toNat_one_shiftLeft hk, Nat.testBit_or, Nat.testBit_two_pow]

theorem testBit_and_not_shiftLeft (b : UInt8) (hk : k < 8) {j : Nat} (hj : j < 8) :
    (b &&& ~~~(1 <<< k.toUInt8)).toNat.testBit j = (b.toNat.testBit j && !decide (k = j)) := by
  -- the complement of a one-bit byte is the all-ones byte with that bit flipped
  have hnot : (~~~((1 : UInt8) <<< k.toUInt8)).toNat = (2 ^ 8 - 1) ^^^ 2 ^ k := by
    rw [UInt8.toNat_not, toNat_one_shiftLeft hk]
    interval_cases k <;> rfl
  rw [UInt8.toNat_and, hnot, Nat.testBit_and, Nat.testBit_xor, Nat.testBit_two_pow_sub_one,
    Nat.testBit_two_pow, decide_eq_true hj]
  cases b.toNat.testBit j <;> simp

end Byte

/-! ## Bits of a bitmap -/

section Bitmap

variable {n : Nat} (m : Vector UInt8 n) {i j : Nat}

/-- Two bits share a byte only if they differ in their place in it. -/
theorem eq_iff_mod_eq (h : i / 8 = j / 8) : i % 8 = j % 8 ↔ i = j := by
  constructor
  · intro hm
    omega
  · intro he
    rw [he]

/-- OR-ing the mask of bit `i` into its byte sets bit `i` and leaves every other bit. -/
theorem testBit_set_or (hi : i / 8 < n) (hj : j / 8 < n) :
    (m.set (i / 8) (m[i / 8] ||| (1 <<< (i % 8).toUInt8)))[j / 8].toNat.testBit (j % 8) =
      (m[j / 8].toNat.testBit (j % 8) || decide (i = j)) := by
  by_cases hb : i / 8 = j / 8
  · have hget : (m.set (i / 8) (m[i / 8] ||| (1 <<< (i % 8).toUInt8)))[j / 8] =
        m[j / 8] ||| (1 <<< (i % 8).toUInt8) := by
      simp only [hb, Vector.getElem_set_self]
    rw [hget, testBit_or_shiftLeft _ (Nat.mod_lt _ (by decide))]
    simp only [eq_iff_mod_eq hb]
  · have hne : i ≠ j := fun h => hb (by rw [h])
    rw [Vector.getElem_set_ne _ _ hb, decide_eq_false hne, Bool.or_false]

/-- AND-ing the complement of the mask of bit `i` clears bit `i` and leaves every other bit. -/
theorem testBit_set_and_not (hi : i / 8 < n) (hj : j / 8 < n) :
    (m.set (i / 8) (m[i / 8] &&& ~~~(1 <<< (i % 8).toUInt8)))[j / 8].toNat.testBit (j % 8) =
      (m[j / 8].toNat.testBit (j % 8) && !decide (i = j)) := by
  by_cases hb : i / 8 = j / 8
  · have hget : (m.set (i / 8) (m[i / 8] &&& ~~~(1 <<< (i % 8).toUInt8)))[j / 8] =
        m[j / 8] &&& ~~~(1 <<< (i % 8).toUInt8) := by
      simp only [hb, Vector.getElem_set_self]
    rw [hget, testBit_and_not_shiftLeft _ (Nat.mod_lt _ (by decide)) (Nat.mod_lt _ (by decide))]
    simp only [eq_iff_mod_eq hb]
  · have hne : i ≠ j := fun h => hb (by rw [h])
    rw [Vector.getElem_set_ne _ _ hb, decide_eq_false hne, Bool.not_false, Bool.and_true]

end Bitmap

/-! ## First fit -/

section FirstFit

variable {α : Type*} (found : α → Bool) (next : α → α)

/-- `for i := 0; i < fuel; i++ { if found(s) { return s }; s = next(s) }`. -/
def findFrom : Nat → α → Option α
  | 0, _ => none
  | fuel + 1, s => if found s then some s else findFrom fuel (next s)

/-- The search tries `s, next s, next (next s), …` and stops at the first it accepts. -/
theorem findFrom_eq_find? (fuel : Nat) (s : α) :
    findFrom found next fuel s = ((List.range fuel).map fun k => next^[k] s).find? found := by
  induction fuel generalizing s with
  | zero => rfl
  | succ fuel ih =>
    rw [findFrom, List.range_succ_eq_map, List.map_cons, List.map_map, Function.iterate_zero_apply,
      List.find?_cons]
    have htail : ((fun k => next^[k] s) ∘ Nat.succ) = fun k => next^[k] (next s) := by
      funext k
      exact Function.iterate_succ_apply next k s
    rw [htail, ← ih]
    cases found s <;> rfl

/-- Counting modulo `m` from `a` meets `b` within `m` steps. -/
theorem exists_add_mod_eq {m a b : Nat} (ha : a < m) (hb : b < m) : ∃ k < m, (a + k) % m = b := by
  by_cases hab : a ≤ b
  · refine ⟨b - a, by omega, ?_⟩
    rw [Nat.add_sub_cancel' hab, Nat.mod_eq_of_lt hb]
  · refine ⟨m - a + b, by omega, ?_⟩
    rw [show a + (m - a + b) = b + m by omega, Nat.add_mod_right, Nat.mod_eq_of_lt hb]

end FirstFit

end Reasoning.BitmapAlloc
