import Mathlib

/-!
# Hex — `encoding/hex` and the bytes of a string

`hex.EncodeToString` writes each byte as two lower-case hex digits.  It is injective
(`encodeToString_injective`), and its text is ASCII, so the bytes of the text are twice as many as
the bytes encoded (`length_utf8_encodeToString`).  `[]byte(s)` is injective too (`utf8_injective`).
-/

namespace Reasoning.Hex

/-- `hextable`. -/
def hexDigit (n : Nat) : Char :=
  "0123456789abcdef".toList.getD n '0'

/-- `hex.EncodeToString`. -/
def encodeToString (bs : List UInt8) : List Char :=
  bs.flatMap fun b => [hexDigit (b.toNat / 16), hexDigit (b.toNat % 16)]

/-- `[]byte(s)`: the UTF-8 bytes of a string. -/
def utf8 (s : List Char) : List UInt8 :=
  s.flatMap String.utf8EncodeChar

-- the value of a hex digit
def val (c : Char) : Nat :=
  "0123456789abcdef".toList.idxOf c

def decode : List Char → List UInt8
  | c₁ :: c₂ :: rest => UInt8.ofNat (val c₁ * 16 + val c₂) :: decode rest
  | _ => []

theorem val_hexDigit : ∀ n < 16, val (hexDigit n) = n := by
  decide

theorem length_utf8EncodeChar_hexDigit :
    ∀ n < 16, (String.utf8EncodeChar (hexDigit n)).length = 1 := by
  decide

theorem ofNat_hex (b : UInt8) : UInt8.ofNat (b.toNat / 16 * 16 + b.toNat % 16) = b := by
  have : b.toNat / 16 * 16 + b.toNat % 16 = b.toNat := by omega
  rw [this, UInt8.ofNat_toNat]

theorem decode_encodeToString (bs : List UInt8) : decode (encodeToString bs) = bs := by
  induction bs with
  | nil => rfl
  | cons b bs ih =>
    have hhi : b.toNat / 16 < 16 := by have := UInt8.toNat_lt b; omega
    have hlo : b.toNat % 16 < 16 := Nat.mod_lt _ (by decide)
    change UInt8.ofNat (val (hexDigit (b.toNat / 16)) * 16 + val (hexDigit (b.toNat % 16))) ::
      decode (encodeToString bs) = b :: bs
    rw [val_hexDigit _ hhi, val_hexDigit _ hlo, ofNat_hex, ih]

theorem encodeToString_injective : Function.Injective encodeToString := fun bs bs' h => by
  rw [← decode_encodeToString bs, h, decode_encodeToString]

theorem utf8_append (a b : List Char) : utf8 (a ++ b) = utf8 a ++ utf8 b :=
  List.flatMap_append

theorem utf8_injective : Function.Injective utf8 := by
  intro l₁ l₂ h
  have hb : (String.ofList l₁).toByteArray = (String.ofList l₂).toByteArray := by
    rw [String.toByteArray_ofList, String.toByteArray_ofList]
    exact congrArg List.toByteArray h
  exact String.ofList_injective (String.toByteArray_inj.mp hb)

theorem length_utf8_encodeToString (bs : List UInt8) :
    (utf8 (encodeToString bs)).length = 2 * bs.length := by
  induction bs with
  | nil => rfl
  | cons b bs ih =>
    have hhi : b.toNat / 16 < 16 := by have := UInt8.toNat_lt b; omega
    have hlo : b.toNat % 16 < 16 := Nat.mod_lt _ (by decide)
    have hcons : utf8 (encodeToString (b :: bs)) =
        String.utf8EncodeChar (hexDigit (b.toNat / 16)) ++
          String.utf8EncodeChar (hexDigit (b.toNat % 16)) ++ utf8 (encodeToString bs) := by
      simp only [utf8, encodeToString, List.flatMap_cons, List.cons_append, List.nil_append,
        List.append_assoc]
    rw [hcons, List.length_append, List.length_append, length_utf8EncodeChar_hexDigit _ hhi,
      length_utf8EncodeChar_hexDigit _ hlo, ih, List.length_cons]
    omega

example : encodeToString [0x0f, 0xa0] = "0fa0".toList := by decide

end Reasoning.Hex
