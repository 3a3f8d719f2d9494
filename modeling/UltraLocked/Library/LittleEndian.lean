import Mathlib.Tactic.Ring

/-!
# Little-endian byte strings

`encode w n` writes the number `n` in exactly `w` bytes, least significant
byte first, and `decode` reads any byte string back as a number. On numbers
below `256 ^ w` and on byte strings of length `w` they are inverse.
-/

namespace UltraLocked.Library.LittleEndian

/-- The `w` low bytes of `n`, least significant first. -/
def encode : Nat → Nat → List UInt8
  | 0, _ => []
  | w + 1, n => UInt8.ofNat n :: encode w (n / 256)

/-- The number whose little-endian bytes are given. -/
def decode : List UInt8 → Nat
  | [] => 0
  | byte :: rest => byte.toNat + 256 * decode rest

theorem decode_encode {w n : Nat} (fits : n < 256 ^ w) : decode (encode w n) = n := by
  induction w generalizing n with
  | zero =>
      have zero : n = 0 := by simpa using fits
      simp [encode, decode, zero]
  | succ w ih =>
      have quotient : n / 256 < 256 ^ w := by
        rw [Nat.pow_succ] at fits
        exact Nat.div_lt_of_lt_mul (by rwa [Nat.mul_comm] at fits)
      have low : (UInt8.ofNat n).toNat = n % 256 := by simp
      rw [encode, decode, ih quotient, low]
      exact Nat.mod_add_div n 256

theorem encode_decode (bytes : List UInt8) :
    encode bytes.length (decode bytes) = bytes := by
  induction bytes with
  | nil => rfl
  | cons byte rest ih =>
      have small : byte.toNat < 256 := byte.toNat_lt
      have head : UInt8.ofNat (byte.toNat + 256 * decode rest) = byte := by
        apply UInt8.toNat_inj.mp
        simp only [UInt8.toNat_ofNat']
        omega
      have tail : (byte.toNat + 256 * decode rest) / 256 = decode rest := by omega
      rw [List.length_cons, decode, encode, head, tail, ih]

theorem decode_replicate (n : Nat) : decode (List.replicate n 0) = 0 := by
  induction n with
  | zero => rfl
  | succ n ih =>
      rw [List.replicate_succ, decode, ih]
      rfl

theorem length_encode (w n : Nat) : (encode w n).length = w := by
  induction w generalizing n with
  | zero => rfl
  | succ w ih => rw [encode, List.length_cons, ih]

/-- Numbers that fit are told apart by their bytes. -/
theorem encode_injective {w m n : Nat} (left : m < 256 ^ w) (right : n < 256 ^ w)
    (same : encode w m = encode w n) : m = n := by
  rw [← decode_encode left, same, decode_encode right]

end UltraLocked.Library.LittleEndian
