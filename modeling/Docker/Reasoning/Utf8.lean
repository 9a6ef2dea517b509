import Mathlib

/-!
# Utf8 — Go's `unicode/utf8` on byte slices

`DecodeRune` reads the first rune of a byte slice: the rune and its width, or `(RuneError, 1)`
when the first byte starts no valid encoding (a stray continuation byte, a truncated or overlong
sequence, a surrogate, a value past `MaxRune`).  `EncodeRune` writes a rune's bytes.

What a decoded rune is: whenever `DecodeRune` does not report an error, the bytes it read are
exactly the encoding of a valid rune (`decodeRune_spec`).  `sanitize` is what a reader that
decodes rune by rune sees: each byte that starts no valid encoding stands for `RuneError`.
-/

namespace Reasoning.Utf8

/-! ## 1. The model -/

/-- `utf8.RuneError`, U+FFFD. -/
def runeError : Nat := 0xFFFD

/-- `utf8.RuneSelf`: below it a byte is a rune by itself. -/
def runeSelf : Nat := 0x80

/-- `utf8.MaxRune`. -/
def maxRune : Nat := 0x10FFFF

def surrogateMin : Nat := 0xD800

def surrogateMax : Nat := 0xDFFF

def tx : Nat := 0x80

def t2 : Nat := 0xC0

def t3 : Nat := 0xE0

def t4 : Nat := 0xF0

def t5 : Nat := 0xF8

def maskx : Nat := 0x3F

def mask2 : Nat := 0x1F

def mask3 : Nat := 0x0F

def mask4 : Nat := 0x07

def rune1Max : Nat := 0x7F

def rune2Max : Nat := 0x7FF

def rune3Max : Nat := 0xFFFF

/-- `utf8.ValidRune`. -/
def Valid (r : Nat) : Prop := r ≤ maxRune ∧ ¬ (surrogateMin ≤ r ∧ r ≤ surrogateMax)

instance (r : Nat) : Decidable (Valid r) := inferInstanceAs (Decidable (_ ∧ _))

theorem valid_iff {r : Nat} : Valid r ↔ r ≤ 0x10FFFF ∧ ¬ (0xD800 ≤ r ∧ r ≤ 0xDFFF) := Iff.rfl

/-- `utf8.DecodeRune(p)`: the first rune of `p` and its width in bytes. -/
def decodeRune : List UInt8 → Nat × Nat
  | [] => (runeError, 0)
  | b0 :: p =>
    let c0 := b0.toNat
    -- 1-byte, 7-bit sequence?
    if c0 < tx then (c0, 1)
    -- unexpected continuation byte?
    else if c0 < t2 then (runeError, 1)
    else match p with
      | [] => (runeError, 1)
      | b1 :: p =>
        let c1 := b1.toNat
        if c1 < tx ∨ t2 ≤ c1 then (runeError, 1)
        -- 2-byte, 11-bit sequence?
        else if c0 < t3 then
          let r := (c0 &&& mask2) <<< 6 ||| (c1 &&& maskx)
          if r ≤ rune1Max then (runeError, 1) else (r, 2)
        else match p with
          | [] => (runeError, 1)
          | b2 :: p =>
            let c2 := b2.toNat
            if c2 < tx ∨ t2 ≤ c2 then (runeError, 1)
            -- 3-byte, 16-bit sequence?
            else if c0 < t4 then
              let r := (c0 &&& mask3) <<< 12 ||| (c1 &&& maskx) <<< 6 ||| (c2 &&& maskx)
              if r ≤ rune2Max then (runeError, 1)
              else if surrogateMin ≤ r ∧ r ≤ surrogateMax then (runeError, 1)
              else (r, 3)
            else match p with
              | [] => (runeError, 1)
              | b3 :: _ =>
                let c3 := b3.toNat
                if c3 < tx ∨ t2 ≤ c3 then (runeError, 1)
                -- 4-byte, 21-bit sequence?
                else if c0 < t5 then
                  let r := (c0 &&& mask4) <<< 18 ||| (c1 &&& maskx) <<< 12 |||
                    (c2 &&& maskx) <<< 6 ||| (c3 &&& maskx)
                  if r ≤ rune3Max ∨ maxRune < r then (runeError, 1) else (r, 4)
                else (runeError, 1)

/-- The three bytes `EncodeRune` writes for a rune of the basic plane. -/
def encode3 (r : Nat) : List UInt8 :=
  [UInt8.ofNat (t3 ||| r >>> 12), UInt8.ofNat (tx ||| r >>> 6 &&& maskx),
    UInt8.ofNat (tx ||| r &&& maskx)]

/-- The bytes `utf8.EncodeRune` writes for `r`; an invalid rune is written as `RuneError`. -/
def encodeRune (r : Nat) : List UInt8 :=
  if r ≤ rune1Max then [UInt8.ofNat r]
  else if r ≤ rune2Max then [UInt8.ofNat (t2 ||| r >>> 6), UInt8.ofNat (tx ||| r &&& maskx)]
  else if maxRune < r ∨ (surrogateMin ≤ r ∧ r ≤ surrogateMax) then encode3 runeError
  else if r ≤ rune3Max then encode3 r
  else
    [UInt8.ofNat (t4 ||| r >>> 18), UInt8.ofNat (tx ||| r >>> 12 &&& maskx),
      UInt8.ofNat (tx ||| r >>> 6 &&& maskx), UInt8.ofNat (tx ||| r &&& maskx)]

/-! ## 2. Bits as arithmetic

Both directions pack six bits per continuation byte with `|||` and `<<<`; the proofs below read them
as sums, which `omega` decides. -/

/-- `a ||| b` is a sum when `b` fits in the low bits that `a` leaves clear. -/
theorem lor_eq_add {a b k : Nat} (ha : a % 2 ^ k = 0) (hb : b < 2 ^ k) : a ||| b = a + b := by
  obtain ⟨c, hc⟩ := Nat.dvd_of_mod_eq_zero ha
  subst hc
  exact (Nat.two_pow_add_eq_or_of_lt hb c).symm

theorem and_maskx (c : Nat) : c &&& maskx = c % 64 := Nat.and_two_pow_sub_one_eq_mod c 6

theorem and_mask2 (c : Nat) : c &&& mask2 = c % 32 := Nat.and_two_pow_sub_one_eq_mod c 5

theorem and_mask3 (c : Nat) : c &&& mask3 = c % 16 := Nat.and_two_pow_sub_one_eq_mod c 4

theorem and_mask4 (c : Nat) : c &&& mask4 = c % 8 := Nat.and_two_pow_sub_one_eq_mod c 3

theorem bits2 (c0 c1 : Nat) :
    (c0 &&& mask2) <<< 6 ||| (c1 &&& maskx) = c0 % 32 * 64 + c1 % 64 := by
  rw [and_mask2, and_maskx, Nat.shiftLeft_eq, lor_eq_add (k := 6) (by omega) (by omega)]

theorem bits3 (c0 c1 c2 : Nat) :
    (c0 &&& mask3) <<< 12 ||| (c1 &&& maskx) <<< 6 ||| (c2 &&& maskx) =
      c0 % 16 * 4096 + c1 % 64 * 64 + c2 % 64 := by
  rw [and_mask3, and_maskx, and_maskx, Nat.shiftLeft_eq, Nat.shiftLeft_eq,
    lor_eq_add (k := 12) (a := c0 % 16 * 2 ^ 12) (by omega) (by omega),
    lor_eq_add (k := 6) (by omega) (by omega)]

theorem bits4 (c0 c1 c2 c3 : Nat) :
    (c0 &&& mask4) <<< 18 ||| (c1 &&& maskx) <<< 12 ||| (c2 &&& maskx) <<< 6 ||| (c3 &&& maskx) =
      c0 % 8 * 262144 + c1 % 64 * 4096 + c2 % 64 * 64 + c3 % 64 := by
  rw [and_mask4, and_maskx, and_maskx, and_maskx, Nat.shiftLeft_eq, Nat.shiftLeft_eq,
    Nat.shiftLeft_eq, lor_eq_add (k := 18) (a := c0 % 8 * 2 ^ 18) (by omega) (by omega),
    lor_eq_add (k := 12) (a := c0 % 8 * 2 ^ 18 + c1 % 64 * 2 ^ 12) (by omega) (by omega),
    lor_eq_add (k := 6) (by omega) (by omega)]

theorem encodeRune_one {r : Nat} (h : r ≤ rune1Max) : encodeRune r = [UInt8.ofNat r] := by
  simp [encodeRune, h]

theorem encodeRune_two {r : Nat} (h1 : rune1Max < r) (h2 : r ≤ rune2Max) :
    encodeRune r = [UInt8.ofNat (0xC0 + r / 64), UInt8.ofNat (0x80 + r % 64)] := by
  have hr : ¬ r ≤ rune1Max := Nat.not_le.mpr h1
  simp only [encodeRune, hr, h2, if_false, if_true]
  unfold rune2Max at h2
  rw [Nat.shiftRight_eq_div_pow, and_maskx, lor_eq_add (k := 6) (by decide) (by omega),
    lor_eq_add (k := 6) (by decide) (by omega)]
  rfl

theorem encode3_eq {r : Nat} (h : r ≤ rune3Max) :
    encode3 r = [UInt8.ofNat (0xE0 + r / 4096), UInt8.ofNat (0x80 + r / 64 % 64),
      UInt8.ofNat (0x80 + r % 64)] := by
  unfold rune3Max at h
  rw [encode3, Nat.shiftRight_eq_div_pow, Nat.shiftRight_eq_div_pow, and_maskx, and_maskx,
    lor_eq_add (k := 4) (by decide) (by omega), lor_eq_add (k := 6) (by decide) (by omega),
    lor_eq_add (k := 6) (by decide) (by omega)]
  rfl

theorem encodeRune_three {r : Nat} (hv : Valid r) (h1 : rune2Max < r) (h2 : r ≤ rune3Max) :
    encodeRune r = encode3 r := by
  have hr1 : ¬ r ≤ rune1Max := by unfold rune1Max rune2Max at *; omega
  have hr2 : ¬ r ≤ rune2Max := Nat.not_le.mpr h1
  have hinv : ¬ (maxRune < r ∨ (surrogateMin ≤ r ∧ r ≤ surrogateMax)) := by
    unfold Valid at hv; omega
  simp only [encodeRune, hr1, hr2, hinv, h2, if_false, if_true]

theorem encodeRune_four {r : Nat} (hv : Valid r) (h : rune3Max < r) :
    encodeRune r = [UInt8.ofNat (0xF0 + r / 262144), UInt8.ofNat (0x80 + r / 4096 % 64),
      UInt8.ofNat (0x80 + r / 64 % 64), UInt8.ofNat (0x80 + r % 64)] := by
  unfold Valid maxRune surrogateMin surrogateMax at hv
  unfold rune3Max at h
  have hr1 : ¬ r ≤ rune1Max := by unfold rune1Max; omega
  have hr2 : ¬ r ≤ rune2Max := by unfold rune2Max; omega
  have hr3 : ¬ r ≤ rune3Max := by unfold rune3Max; omega
  have hinv : ¬ (maxRune < r ∨ (surrogateMin ≤ r ∧ r ≤ surrogateMax)) := by
    unfold maxRune surrogateMin surrogateMax; omega
  simp only [encodeRune, hr1, hr2, hr3, hinv, if_false]
  rw [Nat.shiftRight_eq_div_pow, Nat.shiftRight_eq_div_pow, Nat.shiftRight_eq_div_pow, and_maskx,
    and_maskx, and_maskx, lor_eq_add (k := 3) (by decide) (by omega),
    lor_eq_add (k := 6) (by decide) (by omega), lor_eq_add (k := 6) (by decide) (by omega),
    lor_eq_add (k := 6) (by decide) (by omega)]
  rfl

/-- An invalid rune is written as `RuneError`. -/
theorem encodeRune_of_not_valid {r : Nat} (h : ¬ Valid r) : encodeRune r = encodeRune runeError := by
  unfold Valid at h
  have hr1 : ¬ r ≤ rune1Max := by unfold rune1Max maxRune surrogateMin surrogateMax at *; omega
  have hr2 : ¬ r ≤ rune2Max := by unfold rune2Max maxRune surrogateMin surrogateMax at *; omega
  have hinv : maxRune < r ∨ (surrogateMin ≤ r ∧ r ≤ surrogateMax) := by omega
  simp only [encodeRune, hr1, hr2, hinv, if_false, if_true]
  decide

theorem valid_runeError : Valid runeError := by decide

theorem encodeRune_runeError : encodeRune runeError = [0xEF, 0xBF, 0xBD] := by
  rw [encodeRune_three valid_runeError (by decide) (by decide), encode3_eq (by decide)]
  rfl

theorem ofNat_eq_of_toNat {x : Nat} {b : UInt8} (h : x = b.toNat) : UInt8.ofNat x = b := by
  rw [h, UInt8.ofNat_toNat]

/-- Every byte of a rune above `rune1Max` is at least `RuneSelf`: no such byte is ASCII. -/
theorem encodeRune_ge {r : Nat} (h : rune1Max < r) : ∀ x ∈ encodeRune r, runeSelf ≤ x.toNat := by
  unfold runeSelf
  by_cases hv : Valid r
  · have hv' := valid_iff.mp hv
    by_cases h2 : r ≤ rune2Max
    · rw [encodeRune_two h h2]
      unfold rune2Max at h2
      simp only [List.mem_cons, List.not_mem_nil, or_false]
      rintro x (rfl | rfl) <;> simp only [UInt8.toNat_ofNat', Nat.reducePow] <;> omega
    by_cases h3 : r ≤ rune3Max
    · rw [encodeRune_three hv (Nat.lt_of_not_le h2) h3, encode3_eq h3]
      unfold rune3Max at h3
      simp only [List.mem_cons, List.not_mem_nil, or_false]
      rintro x (rfl | rfl | rfl) <;> simp only [UInt8.toNat_ofNat', Nat.reducePow] <;> omega
    · rw [encodeRune_four hv (Nat.lt_of_not_le h3)]
      simp only [List.mem_cons, List.not_mem_nil, or_false]
      rintro x (rfl | rfl | rfl | rfl) <;> simp only [UInt8.toNat_ofNat', Nat.reducePow] <;> omega
  · rw [encodeRune_of_not_valid hv, encodeRune_runeError]
    decide +kernel

/-! ## 3. Decoding -/

/-- When `DecodeRune` reports no error, it read the encoding of a valid rune. -/
theorem decodeRune_spec (l : List UInt8) : l ≠ [] → decodeRune l ≠ (runeError, 1) →
    Valid (decodeRune l).1 ∧ (encodeRune (decodeRune l).1).length = (decodeRune l).2 ∧
      encodeRune (decodeRune l).1 ++ l.drop (decodeRune l).2 = l := by
  fun_cases decodeRune l
  case case2 b0 t c0 hc0 =>
    intro _ _
    simp only [c0, tx] at hc0
    rw [encodeRune_one (by unfold rune1Max; omega)]
    exact ⟨valid_iff.mpr (by omega), rfl, by rw [UInt8.ofNat_toNat]; rfl⟩
  case case7 b0 c0 hx ht2 b1 t c1 hc1 ht3 r hr =>
    intro _ _
    simp only [c0, c1, r, bits2, tx, t2, t3, rune1Max] at hx ht2 hc1 ht3 hr ⊢
    rw [encodeRune_two (by unfold rune1Max; omega) (by unfold rune2Max; omega),
      ofNat_eq_of_toNat (b := b0) (by omega), ofNat_eq_of_toNat (b := b1) (by omega)]
    exact ⟨valid_iff.mpr (by omega), rfl, rfl⟩
  case case12 b0 c0 hx ht2 b1 c1 hc1 ht3 b2 t c2 hc2 ht4 r hr hs =>
    intro _ _
    simp only [c0, c1, c2, r, bits3, tx, t2, t3, t4, rune2Max, surrogateMin, surrogateMax]
      at hx ht2 hc1 ht3 hc2 ht4 hr hs ⊢
    rw [encodeRune_three (valid_iff.mpr (by omega)) (by unfold rune2Max; omega)
      (by unfold rune3Max; omega), encode3_eq (by unfold rune3Max; omega),
      ofNat_eq_of_toNat (b := b0) (by omega), ofNat_eq_of_toNat (b := b1) (by omega),
      ofNat_eq_of_toNat (b := b2) (by omega)]
    exact ⟨valid_iff.mpr (by omega), rfl, rfl⟩
  case case16 b0 c0 hx ht2 b1 c1 hc1 ht3 b2 c2 hc2 ht4 b3 t c3 hc3 ht5 r hr =>
    intro _ _
    simp only [c0, c1, c2, c3, r, bits4, tx, t2, t3, t4, t5, rune3Max, maxRune]
      at hx ht2 hc1 ht3 hc2 ht4 hc3 ht5 hr ⊢
    rw [encodeRune_four (valid_iff.mpr (by omega)) (by unfold rune3Max; omega),
      ofNat_eq_of_toNat (b := b0) (by omega), ofNat_eq_of_toNat (b := b1) (by omega),
      ofNat_eq_of_toNat (b := b2) (by omega), ofNat_eq_of_toNat (b := b3) (by omega)]
    exact ⟨valid_iff.mpr (by omega), rfl, rfl⟩
  -- every other branch reports the error, or reads nothing
  all_goals
    intro hne hok
    first | exact absurd rfl hok | exact absurd rfl hne

/-- `DecodeRune` reads back what `EncodeRune` wrote for a valid rune, whatever follows it. -/
theorem decodeRune_encodeRune {r : Nat} (hv : Valid r) (t : List UInt8) :
    decodeRune (encodeRune r ++ t) = (r, (encodeRune r).length) := by
  rw [valid_iff] at hv
  -- one case per width of the encoding; each evaluates `DecodeRune` on the bytes written
  by_cases h1 : r ≤ rune1Max
  · rw [encodeRune_one h1]
    unfold rune1Max at h1
    simp (disch := omega) only [decodeRune, List.cons_append, List.nil_append,
      UInt8.toNat_ofNat', tx, if_pos, Nat.reducePow, List.length_singleton, Prod.mk.injEq, and_true]
    omega
  by_cases h2 : r ≤ rune2Max
  · rw [encodeRune_two (Nat.lt_of_not_le h1) h2]
    unfold rune1Max rune2Max at *
    simp (disch := omega) only [decodeRune, List.cons_append, List.nil_append,
      UInt8.toNat_ofNat', bits2, tx, t2, t3, rune1Max, if_pos, if_neg, Nat.reducePow,
      List.length_cons, List.length_nil, Prod.mk.injEq, and_true]
    omega
  by_cases h3 : r ≤ rune3Max
  · rw [encodeRune_three (valid_iff.mpr hv) (Nat.lt_of_not_le h2) h3, encode3_eq h3]
    unfold rune1Max rune2Max rune3Max at *
    simp (disch := omega) only [decodeRune, List.cons_append, List.nil_append,
      UInt8.toNat_ofNat', bits3, tx, t2, t3, t4, rune2Max, surrogateMin, surrogateMax, if_pos,
      if_neg, Nat.reducePow, List.length_cons, List.length_nil, Prod.mk.injEq, and_true]
    omega
  · rw [encodeRune_four (valid_iff.mpr hv) (Nat.lt_of_not_le h3)]
    unfold rune1Max rune2Max rune3Max at *
    simp (disch := omega) only [decodeRune, List.cons_append, List.nil_append,
      UInt8.toNat_ofNat', bits4, tx, t2, t3, t4, t5, rune3Max, maxRune, if_pos, if_neg,
      Nat.reducePow, List.length_cons, List.length_nil, Prod.mk.injEq, and_true]
    omega

theorem decodeRune_ascii {b : UInt8} (hb : b.toNat < runeSelf) (bs : List UInt8) :
    decodeRune (b :: bs) = (b.toNat, 1) := by
  simp only [decodeRune]
  -- `RuneSelf` and `tx` are both 0x80
  rw [if_pos (show b.toNat < tx from hb)]

/-- `DecodeRune` reads at least one byte of a non-empty slice, and no more than it holds. -/
theorem decodeRune_size (l : List UInt8) :
    l ≠ [] → 0 < (decodeRune l).2 ∧ (decodeRune l).2 ≤ l.length := by
  fun_cases decodeRune l <;> intro hne <;> simp at hne ⊢

/-! ## 4. Decoding a whole slice

`sanitize p` is `string([]rune(string(p)))`: the slice decoded rune by rune and written back, so
that each byte that starts no valid encoding stands for `RuneError`. -/

def sanitize (p : List UInt8) : List UInt8 :=
  match p with
  | [] => []
  | b :: bs => encodeRune (decodeRune (b :: bs)).1 ++ sanitize ((b :: bs).drop (decodeRune (b :: bs)).2)
termination_by p.length
decreasing_by
  have := (decodeRune_size (b :: bs) (List.cons_ne_nil b bs)).1
  simp only [List.length_drop, List.length_cons]
  omega

theorem sanitize_of_ne_nil {p : List UInt8} (hp : p ≠ []) :
    sanitize p = encodeRune (decodeRune p).1 ++ sanitize (p.drop (decodeRune p).2) := by
  obtain ⟨b, bs, rfl⟩ := List.exists_cons_of_ne_nil hp
  rw [sanitize]

theorem encodeRune_ne_nil (r : Nat) : encodeRune r ≠ [] := by
  unfold encodeRune encode3
  split_ifs <;> simp

/-- A byte that starts no valid encoding stands for `RuneError`. -/
theorem sanitize_of_error {b : UInt8} {bs : List UInt8} (h : decodeRune (b :: bs) = (runeError, 1)) :
    sanitize (b :: bs) = encodeRune runeError ++ sanitize bs := by
  rw [sanitize, h, List.drop_one, List.tail_cons]

theorem sanitize_ascii {b : UInt8} (hb : b.toNat < runeSelf) (bs : List UInt8) :
    sanitize (b :: bs) = b :: sanitize bs := by
  have h1 : b.toNat ≤ rune1Max := by unfold runeSelf at hb; unfold rune1Max; omega
  rw [sanitize, decodeRune_ascii hb, encodeRune_one h1, UInt8.ofNat_toNat, List.drop_one,
    List.tail_cons, List.singleton_append]

/-- What `DecodeRune` read without an error is the encoding of the rune it reports. -/
theorem take_decodeRune {p : List UInt8} (hp : p ≠ []) (hok : decodeRune p ≠ (runeError, 1)) :
    p.take (decodeRune p).2 = encodeRune (decodeRune p).1 := by
  obtain ⟨-, hlen, happ⟩ := decodeRune_spec p hp hok
  have h := congrArg (List.take (decodeRune p).2) happ
  rw [← hlen, List.take_left, hlen] at h
  exact h.symm

/-- A rune read from a byte past ASCII is past ASCII itself. -/
theorem rune1Max_lt_decodeRune {b : UInt8} {bs : List UInt8} (hb : ¬ b.toNat < runeSelf)
    (hok : decodeRune (b :: bs) ≠ (runeError, 1)) : rune1Max < (decodeRune (b :: bs)).1 := by
  by_contra hle
  have htake := take_decodeRune (List.cons_ne_nil b bs) hok
  obtain ⟨-, hlen, -⟩ := decodeRune_spec (b :: bs) (List.cons_ne_nil b bs) hok
  rw [encodeRune_one (Nat.le_of_not_lt hle)] at htake hlen
  rw [← hlen, List.length_singleton, List.take_one, List.head?_cons, Option.toList_some,
    List.singleton_inj] at htake
  have hb' := congrArg UInt8.toNat htake
  rw [UInt8.toNat_ofNat'] at hb'
  unfold runeSelf at hb
  unfold rune1Max at hle
  omega

end Reasoning.Utf8
