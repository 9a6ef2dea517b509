import Docker.Reasoning.Utf8
import Docker.Reasoning.Hex

/-!
# JsonString — a JSON string literal as `encoding/json` reads it

The reader starts after the opening quote and returns the bytes the literal stands for and what
follows its closing quote.  It accepts what RFC 8259 §7 allows in a string and decodes it the way
Go's `unquote` does: an escape to its byte, `\uXXXX` to the rune's UTF-8, a surrogate pair to one
rune and a lone surrogate to U+FFFD, and a raw byte that starts no valid UTF-8 to U+FFFD.  A raw
byte below 0x20, a bad escape and a missing closing quote are errors.

One unit of the literal (a raw byte, a raw rune, an escape) is read by `readStep`, which does not
recurse; `readString` repeats it up to the closing quote.
-/

namespace Reasoning.JsonString

open Utf8 Hex

def quote : UInt8 := 0x22

def backslash : UInt8 := 0x5C

/-- The byte that `\c` stands for, for every escape but `\u`. -/
def simpleEscape (c : UInt8) : Option UInt8 :=
  if c = quote ∨ c = backslash ∨ c = 0x2F then some c
  else if c = 0x62 then some 0x08   -- \b
  else if c = 0x66 then some 0x0C   -- \f
  else if c = 0x6E then some 0x0A   -- \n
  else if c = 0x72 then some 0x0D   -- \r
  else if c = 0x74 then some 0x09   -- \t
  else none

/-- The value of a hex digit of either case. -/
def hexVal (c : UInt8) : Option Nat :=
  if 0x30 ≤ c.toNat ∧ c.toNat ≤ 0x39 then some (c.toNat - 0x30)
  else if 0x61 ≤ c.toNat ∧ c.toNat ≤ 0x66 then some (c.toNat - 0x61 + 10)
  else if 0x41 ≤ c.toNat ∧ c.toNat ≤ 0x46 then some (c.toNat - 0x41 + 10)
  else none

/-- `getu4`: the value of the four hex digits of a `\u` escape. -/
def hex4 (a b c d : UInt8) : Option Nat := do
  let a ← hexVal a
  let b ← hexVal b
  let c ← hexVal c
  let d ← hexVal d
  pure (((a * 16 + b) * 16 + c) * 16 + d)

/-- `utf16.IsSurrogate`. -/
def isSurrogate (r : Nat) : Bool := 0xD800 ≤ r && r < 0xE000

/-- `utf16.DecodeRune`: the rune of a surrogate pair, or U+FFFD. -/
def decodeSurrogates (r1 r2 : Nat) : Nat :=
  if 0xD800 ≤ r1 ∧ r1 < 0xDC00 ∧ 0xDC00 ≤ r2 ∧ r2 < 0xE000 then
    (r1 - 0xD800) * 1024 + (r2 - 0xDC00) + 0x10000
  else runeError

/-- What reading one unit of a string literal gives. -/
inductive Step where
  /-- The closing quote, and what follows it. -/
  | done (rest : List UInt8)
  /-- The bytes one unit stands for, and the input after it. -/
  | chunk (out rest : List UInt8)
  | fail
  deriving DecidableEq, Repr

/-- After the escape of a high surrogate: a second `\u` escape that completes the pair gives the
pair's rune; anything else gives U+FFFD and is read on its own. -/
def readLow (r : Nat) : List UInt8 → Step
  | c1 :: c2 :: a :: b :: c :: d :: s =>
    if c1 = backslash ∧ c2 = 0x75 then
      match hex4 a b c d with
      | some r2 =>
        if decodeSurrogates r r2 ≠ runeError then .chunk (encodeRune (decodeSurrogates r r2)) s
        else .chunk (encodeRune runeError) (c1 :: c2 :: a :: b :: c :: d :: s)
      | none => .chunk (encodeRune runeError) (c1 :: c2 :: a :: b :: c :: d :: s)
    else .chunk (encodeRune runeError) (c1 :: c2 :: a :: b :: c :: d :: s)
  | s => .chunk (encodeRune runeError) s

/-- The unit after a backslash. -/
def readEscape : List UInt8 → Step
  | [] => .fail
  | e :: s =>
    match simpleEscape e with
    | some d => .chunk [d] s
    | none =>
      if e = 0x75 then
        match s with
        | a :: b :: c :: d :: s =>
          match hex4 a b c d with
          | some r => if isSurrogate r then readLow r s else .chunk (encodeRune r) s
          | none => .fail
        | _ => .fail
      else .fail

/-- One unit of a string literal. -/
def readStep : List UInt8 → Step
  | [] => .fail
  | c :: s =>
    if c = quote then .done s
    else if c = backslash then readEscape s
    -- a raw control byte is not allowed in a string
    else if c.toNat < 0x20 then .fail
    else if c.toNat < runeSelf then .chunk [c] s
    -- a raw rune, written back as UTF-8: an invalid byte becomes U+FFFD
    else .chunk (encodeRune (decodeRune (c :: s)).1) ((c :: s).drop (decodeRune (c :: s)).2)

theorem readLow_lt {r : Nat} {l out rest : List UInt8} (h : readLow r l = .chunk out rest) :
    rest.length ≤ l.length := by
  unfold readLow at h
  split at h
  · -- every branch leaves the input after the pair, or all of it
    split at h
    · split at h
      · split at h <;> cases h <;> simp only [List.length_cons] <;> omega
      · cases h; simp
    · cases h; simp
  · cases h; simp

theorem readEscape_lt {l out rest : List UInt8} (h : readEscape l = .chunk out rest) :
    rest.length < l.length := by
  unfold readEscape at h
  split at h
  · cases h
  · split at h
    · cases h; simp
    · split at h
      · split at h
        · split at h
          · split at h
            · have := readLow_lt h
              simp only [List.length_cons]
              omega
            · cases h; simp only [List.length_cons]; omega
          · cases h
        · cases h
      · cases h

/-- A unit is never empty: the input after it is shorter. -/
theorem readStep_lt {l out rest : List UInt8} (h : readStep l = .chunk out rest) :
    rest.length < l.length := by
  unfold readStep at h
  split at h
  · cases h
  · rename_i c s
    split_ifs at h
    · have := readEscape_lt h
      simp only [List.length_cons]
      omega
    · cases h; simp
    · cases h
      have := (decodeRune_size (c :: s) (List.cons_ne_nil c s)).1
      simp only [List.length_drop, List.length_cons]
      omega

/-- `unquote` over a whole literal: the bytes up to the closing quote, and what follows it. -/
def readString (l : List UInt8) : Option (List UInt8 × List UInt8) :=
  match h : readStep l with
  | .done rest => some ([], rest)
  | .chunk out rest => (readString rest).map fun r => (out ++ r.1, r.2)
  | .fail => none
termination_by l.length
decreasing_by exact readStep_lt h

theorem readString_of_done {l rest : List UInt8} (h : readStep l = .done rest) :
    readString l = some ([], rest) := by
  rw [readString]
  split <;> simp_all

theorem readString_of_chunk {l out rest : List UInt8} (h : readStep l = .chunk out rest) :
    readString l = (readString rest).map fun r => (out ++ r.1, r.2) := by
  rw [readString]
  split <;> simp_all

/-- A unit read in front of a literal that reads to `v`. -/
theorem readString_cons_chunk {u r out v tail : List UInt8} (h : readStep (u ++ r) = .chunk out r)
    (hr : readString r = some (v, tail)) : readString (u ++ r) = some (out ++ v, tail) := by
  rw [readString_of_chunk h, hr]
  rfl

/-! ## What the reader makes of each kind of unit -/

theorem readStep_quote (s : List UInt8) : readStep (quote :: s) = .done s := by
  simp [readStep]

theorem readStep_raw {c : UInt8} (s : List UInt8) (hlo : 0x20 ≤ c.toNat) (hhi : c.toNat < runeSelf)
    (hq : c ≠ quote) (hb : c ≠ backslash) : readStep (c :: s) = .chunk [c] s := by
  have hc : ¬ c.toNat < 0x20 := by omega
  simp [readStep, hq, hb, hc, hhi]

theorem readStep_simpleEscape {e d : UInt8} (s : List UInt8) (h : simpleEscape e = some d) :
    readStep (backslash :: e :: s) = .chunk [d] s := by
  simp [readStep, readEscape, h, show backslash ≠ quote by decide]

theorem readStep_u {a b c d : UInt8} {r : Nat} (s : List UInt8) (h : hex4 a b c d = some r)
    (hs : isSurrogate r = false) :
    readStep (backslash :: 0x75 :: a :: b :: c :: d :: s) = .chunk (encodeRune r) s := by
  have hu : simpleEscape 0x75 = none := by decide
  simp [readStep, readEscape, hu, h, hs, show backslash ≠ quote by decide]

/-- A raw rune past ASCII is read back as itself. -/
theorem readStep_rune {r : Nat} (hv : Valid r) (h : rune1Max < r) (s : List UInt8) :
    readStep (encodeRune r ++ s) = .chunk (encodeRune r) s := by
  obtain ⟨x, xs, hx⟩ := List.exists_cons_of_ne_nil (encodeRune_ne_nil r)
  have hge : runeSelf ≤ x.toNat := encodeRune_ge h x (hx ▸ List.mem_cons_self ..)
  unfold runeSelf at hge
  have hq : x ≠ quote := fun e => by subst e; exact absurd hge (by decide)
  have hb : x ≠ backslash := fun e => by subst e; exact absurd hge (by decide)
  have hdec := decodeRune_encodeRune hv s
  rw [hx, List.cons_append] at hdec ⊢
  simp only [readStep, hq, hb, if_false, runeSelf, hdec]
  rw [if_neg (by omega), if_neg (by omega), ← List.cons_append, ← hx, List.drop_left]

theorem hexVal_hexDigit : ∀ n < 16, hexVal (hexDigit n).toUInt8 = some n := by
  decide

theorem hex4_eq {a b c d : UInt8} {w x y z : Nat} (ha : hexVal a = some w) (hb : hexVal b = some x)
    (hc : hexVal c = some y) (hd : hexVal d = some z) :
    hex4 a b c d = some (((w * 16 + x) * 16 + y) * 16 + z) := by
  simp [hex4, ha, hb, hc, hd]

/-- Bytes that need no escape read as themselves. -/
theorem readString_plain {k : List UInt8}
    (hk : ∀ c ∈ k, 0x20 ≤ c.toNat ∧ c.toNat < runeSelf ∧ c ≠ quote ∧ c ≠ backslash)
    (rest : List UInt8) : readString (k ++ quote :: rest) = some (k, rest) := by
  induction k with
  | nil => exact readString_of_done (readStep_quote rest)
  | cons c cs ih =>
    obtain ⟨hlo, hhi, hq, hb⟩ := hk c List.mem_cons_self
    have hstep : readStep ([c] ++ (cs ++ quote :: rest)) = .chunk [c] (cs ++ quote :: rest) :=
      readStep_raw _ hlo hhi hq hb
    exact readString_cons_chunk hstep (ih fun c hc => hk c (List.mem_cons_of_mem _ hc))

end Reasoning.JsonString
