import Mathlib.Data.List.Basic

/-!
# Base64 — the standard padded encoding

RFC 4648 base64 with the standard alphabet and `=` padding: every three bytes become four
characters, and a last group of one or two bytes is padded to four.  Two facts are what callers
use: an encoding has four characters for each started group of three bytes, so its length is a
multiple of four; and `decode` undoes `encode`, so two byte strings with the same encoding are
equal.
-/

namespace Base64

def alphabet : List Char :=
  "ABCDEFGHIJKLMNOPQRSTUVWXYZabcdefghijklmnopqrstuvwxyz0123456789+/".toList

-- the character of a six-bit value
def sym (i : Nat) : Char :=
  alphabet.getD i '='

def encode : List UInt8 → List Char
  | [] => []
  | [a] => [sym (a.toNat / 4), sym (a.toNat % 4 * 16), '=', '=']
  | [a, b] =>
    [sym (a.toNat / 4), sym (a.toNat % 4 * 16 + b.toNat / 16), sym (b.toNat % 16 * 4), '=']
  | a :: b :: c :: rest =>
    sym (a.toNat / 4) :: sym (a.toNat % 4 * 16 + b.toNat / 16) ::
      sym (b.toNat % 16 * 4 + c.toNat / 64) :: sym (c.toNat % 64) :: encode rest

example : encode [77, 97, 110] = "TWFu".toList := by decide

example : encode [77, 97] = "TWE=".toList := by decide

theorem length_encode : ∀ bs : List UInt8, (encode bs).length = 4 * ((bs.length + 2) / 3)
  | [] => rfl
  | [_] => by simp [encode]
  | [_, _] => by simp [encode]
  | _ :: _ :: _ :: rest => by
    rw [encode, List.length_cons, List.length_cons, List.length_cons, List.length_cons,
      length_encode rest]
    simp only [List.length_cons]
    omega

theorem length_encode_mod_four (bs : List UInt8) : (encode bs).length % 4 = 0 := by
  rw [length_encode]
  omega

/-! ## Decoding -/

-- the six-bit value of a character of the alphabet
def val (c : Char) : Nat :=
  alphabet.idxOf c

def decodeGroup (c₁ c₂ c₃ c₄ : Char) : List UInt8 :=
  let b₁ := UInt8.ofNat (val c₁ * 4 + val c₂ / 16)
  let b₂ := UInt8.ofNat (val c₂ % 16 * 16 + val c₃ / 4)
  let b₃ := UInt8.ofNat (val c₃ % 4 * 64 + val c₄)
  if c₃ = '=' then [b₁] else if c₄ = '=' then [b₁, b₂] else [b₁, b₂, b₃]

/-- The bytes of an encoding; what is not one is read as far as its groups of four go. -/
def decode : List Char → List UInt8
  | c₁ :: c₂ :: c₃ :: c₄ :: rest => decodeGroup c₁ c₂ c₃ c₄ ++ decode rest
  | _ => []

theorem val_sym : ∀ i < 64, val (sym i) = i := by
  decide +kernel

theorem sym_ne_pad : ∀ i < 64, sym i ≠ '=' := by
  decide +kernel

-- the bytes back from their six-bit pieces
theorem ofNat_first (a b : UInt8) :
    UInt8.ofNat (a.toNat / 4 * 4 + (a.toNat % 4 * 16 + b.toNat / 16) / 16) = a := by
  have : a.toNat / 4 * 4 + (a.toNat % 4 * 16 + b.toNat / 16) / 16 = a.toNat := by
    have := b.toNat_lt
    omega
  rw [this, UInt8.ofNat_toNat]

theorem ofNat_second (a b : UInt8) (k : Nat) (hk : k < 4) :
    UInt8.ofNat ((a.toNat % 4 * 16 + b.toNat / 16) % 16 * 16 + (b.toNat % 16 * 4 + k) / 4) = b := by
  have : (a.toNat % 4 * 16 + b.toNat / 16) % 16 * 16 + (b.toNat % 16 * 4 + k) / 4 = b.toNat := by
    have := b.toNat_lt
    omega
  rw [this, UInt8.ofNat_toNat]

theorem ofNat_third (b c : UInt8) :
    UInt8.ofNat ((b.toNat % 16 * 4 + c.toNat / 64) % 4 * 64 + c.toNat % 64) = c := by
  have : (b.toNat % 16 * 4 + c.toNat / 64) % 4 * 64 + c.toNat % 64 = c.toNat := by
    have := c.toNat_lt
    omega
  rw [this, UInt8.ofNat_toNat]

theorem decode_encode : ∀ bs : List UInt8, decode (encode bs) = bs
  | [] => rfl
  | [a] => by
    have ha := a.toNat_lt
    simp only [encode, decode, decodeGroup, ↓reduceIte, List.append_nil]
    rw [val_sym _ (by omega), val_sym _ (by omega)]
    simpa using ofNat_first a 0
  | [a, b] => by
    have ha := a.toNat_lt
    have hb := b.toNat_lt
    simp only [encode, decode, decodeGroup, ↓reduceIte, List.append_nil]
    rw [if_neg (sym_ne_pad _ (by omega)), val_sym _ (by omega), val_sym _ (by omega),
      val_sym _ (by omega), ofNat_first]
    simpa using ofNat_second a b 0 (by omega)
  | a :: b :: c :: rest => by
    have ha := a.toNat_lt
    have hb := b.toNat_lt
    have hc := c.toNat_lt
    simp only [encode, decode, decodeGroup]
    rw [if_neg (sym_ne_pad _ (by omega)), if_neg (sym_ne_pad _ (by omega)), val_sym _ (by omega),
      val_sym _ (by omega), val_sym _ (by omega), val_sym _ (by omega), ofNat_first,
      ofNat_second a b (c.toNat / 64) (by omega), ofNat_third, decode_encode rest]
    rfl

theorem encode_injective : Function.Injective encode := fun bs bs' h => by
  rw [← decode_encode bs, h, decode_encode]

end Base64
