import Mathlib.Data.Fintype.Basic
import UltraLocked.Library.Numerals

/-!
# Base64 of libargon2

The first section of `encoding.c`. A `char` is signed where the package runs,
and a negative one is outside of the values that the comparison macros work
for: from `0x80` on, every byte is read as a slash.
-/

namespace UltraLocked.CArgon2.Base64

open Library.Numerals

/-- A `char` as an `int`. -/
def charValue (c : UInt8) : Int32 := c.toInt8.toInt32

/-- `EQ`, `GT`, `GE`, `LT` and `LE`: `0x00` for false, `0xFF` for true. -/
def eqMask (x y : UInt32) : UInt32 := (((0 - (x ^^^ y)) >>> 8) &&& 0xFF) ^^^ 0xFF
def gtMask (x y : UInt32) : UInt32 := ((y - x) >>> 8) &&& 0xFF
def geMask (x y : UInt32) : UInt32 := gtMask y x ^^^ 0xFF
def ltMask (x y : UInt32) : UInt32 := gtMask y x
def leMask (x y : UInt32) : UInt32 := geMask y x

def b64ByteToChar (x : UInt32) : UInt32 :=
  (ltMask x 26 &&& (x + 'A'.val)) |||
  (geMask x 26 &&& ltMask x 52 &&& (x + ('a'.val - 26))) |||
  (geMask x 52 &&& ltMask x 62 &&& (x + ('0'.val - 52))) ||| (eqMask x 62 &&& '+'.val) |||
  (eqMask x 63 &&& '/'.val)

/-- `b64_char_to_byte` of an `int` that is converted to `unsigned` -/
def b64CharToByte (c : UInt32) : UInt32 :=
  let x := (geMask c 'A'.val &&& leMask c 'Z'.val &&& (c - 'A'.val)) |||
    (geMask c 'a'.val &&& leMask c 'z'.val &&& (c - ('a'.val - 26))) |||
    (geMask c '0'.val &&& leMask c '9'.val &&& (c - ('0'.val - 52))) |||
    (eqMask c '+'.val &&& 62) ||| (eqMask c '/'.val &&& 63)
  x ||| (eqMask x 0 &&& (eqMask c 'A'.val ^^^ 0xFF))

/-- The character that is written for the low bits of a word. -/
def encoded (bits : UInt32) : UInt8 := (b64ByteToChar (bits &&& 0x3F)).toUInt8

def decoded (c : UInt8) : UInt32 := b64CharToByte (charValue c).toUInt32

/-- The switch over what is left of three bytes, for `b64len` and `to_base64`. -/
def b64len (len : Nat) : Nat :=
  ((len / 3) <<< 2) + match len % 3 with
    | 2 => 1 + 2
    | 1 => 2
    | _ => 0

/-- The inner loop of `to_base64`: the characters, and the bits that stay. -/
def writeSextets (acc : UInt32) (accLen : Nat) : List UInt8 × Nat :=
  if 6 ≤ accLen then
    let later := writeSextets acc (accLen - 6)
    (encoded (acc >>> UInt32.ofNat (accLen - 6)) :: later.1, later.2)
  else ([], accLen)

/-- The outer loop of `to_base64`, and the character for the bits that stay last. -/
def encodeLoop : List UInt8 → UInt32 → Nat → List UInt8
  | [], acc, accLen => if 0 < accLen then [encoded (acc <<< UInt32.ofNat (6 - accLen))] else []
  | byte :: rest, acc, accLen =>
      let acc := (acc <<< 8) + byte.toUInt32
      let sextets := writeSextets acc (accLen + 8)
      sextets.1 ++ encodeLoop rest acc sextets.2

/-- `to_base64`: the text without its terminator; `none` is `(size_t)-1`. -/
def toBase64 (dstLen : Nat) (src : List UInt8) : Option (List UInt8) :=
  if dstLen ≤ b64len src.length then none else some (encodeLoop src 0 0)

/-- The end of `from_base64`: less than a character may stay, and only zeros. -/
def finish (acc : UInt32) (accLen : Nat) (buf src : List UInt8) :
    Option (List UInt8 × List UInt8) :=
  if accLen > 4 ∨ acc &&& ((1 <<< UInt32.ofNat accLen) - 1) ≠ 0 then none else some (buf, src)

/-- The loop of `from_base64`; the terminator behind the last byte ends it. -/
def decodeLoop (dstLen : Nat) : List UInt8 → UInt32 → Nat → List UInt8 →
    Option (List UInt8 × List UInt8)
  | [], acc, accLen, buf => finish acc accLen buf []
  | c :: src, acc, accLen, buf =>
      let d := decoded c
      if d = 0xFF then finish acc accLen buf (c :: src)
      else
        let acc := (acc <<< 6) + d
        let accLen := accLen + 6
        if 8 ≤ accLen then
          if dstLen ≤ buf.length then none
          else decodeLoop dstLen src acc (accLen - 8)
            (buf ++ [((acc >>> UInt32.ofNat (accLen - 8)) &&& 0xFF).toUInt8])
        else decodeLoop dstLen src acc accLen buf

/-- `from_base64`: the bytes, and the string from the first other character on. -/
def fromBase64 (dstLen : Nat) (src : List UInt8) : Option (List UInt8 × List UInt8) :=
  decodeLoop dstLen src 0 0 []

/-! ## The alphabet -/

def symbol (digit : Nat) : UInt8 := encoded (UInt32.ofNat digit)

example : (List.range 64).map symbol = ("ABCDEFGHIJKLMNOPQRSTUVWXYZ".toList ++
      "abcdefghijklmnopqrstuvwxyz".toList ++ "0123456789+/".toList).map (·.val.toUInt8) := by
  decide +kernel

/-- Bytes above ASCII stand for a slash. -/
def asciiOf (c : UInt8) : UInt8 := if 0x80 ≤ c then 0x2F else c

/-- A byte that stands for no digit. -/
def Foreign (c : UInt8) : Prop := ∀ digit < 64, asciiOf c ≠ symbol digit

theorem forall_bytes {P : UInt8 → Prop} (each : ∀ n : Fin 256, P (UInt8.ofFin n)) (c : UInt8) :
    P c := each c.toFin

theorem decoded_symbol : ∀ digit < 64, (decoded (symbol digit)).toNat = digit := by
  decide +kernel

theorem asciiOf_symbol : ∀ digit < 64, asciiOf (symbol digit) = symbol digit := by
  decide +kernel

/-- A character is read as the digit that it stands for, or not as a digit. -/
theorem decoded_cases (c : UInt8) :
    decoded c = 0xFF ∨ (decoded c).toNat < 64 ∧ asciiOf c = symbol (decoded c).toNat :=
  forall_bytes (P := fun c => decoded c = 0xFF ∨
    (decoded c).toNat < 64 ∧ asciiOf c = symbol (decoded c).toNat) (by decide +kernel) c

theorem decoded_asciiOf (c : UInt8) : decoded (asciiOf c) = decoded c :=
  forall_bytes (P := fun c => decoded (asciiOf c) = decoded c) (by decide +kernel) c

theorem foreign_iff (c : UInt8) : Foreign c ↔ decoded c = 0xFF := by
  constructor
  · intro foreign
    rcases decoded_cases c with other | ⟨small, stands⟩
    · exact other
    · exact absurd stands (foreign _ small)
  · intro other digit small stands
    have read := decoded_symbol digit small
    rw [← stands, decoded_asciiOf, other] at read
    exact absurd small (by rw [← read]; decide)

/-! ## The specification -/

/-- The digits of a byte string: four for three bytes, and two or three for the rest. -/
def sextets : List UInt8 → List Nat
  | a :: b :: c :: rest =>
      [a.toNat / 4, a.toNat % 4 * 16 + b.toNat / 16, b.toNat % 16 * 4 + c.toNat / 64,
        c.toNat % 64] ++ sextets rest
  | [a, b] => [a.toNat / 4, a.toNat % 4 * 16 + b.toNat / 16, b.toNat % 16 * 4]
  | [a] => [a.toNat / 4, a.toNat % 4 * 16]
  | [] => []

/-- Base64 of a byte string, without padding characters. -/
def base64 (bytes : List UInt8) : List UInt8 := (sextets bytes).map symbol

theorem sextets_regrouped (bytes : List UInt8) :
    ∃ free ≤ 4, Regrouped 6 8 (sextets bytes) (bytes.map UInt8.toNat) 0 free := by
  induction bytes using sextets.induct with
  | case1 a b c rest ih =>
      obtain ⟨free, few, later⟩ := ih
      have first : Regrouped 6 8 [a.toNat / 4, a.toNat % 4 * 16 + b.toNat / 16,
          b.toNat % 16 * 4 + c.toNat / 64, c.toNat % 64] [a.toNat, b.toNat, c.toNat] 0 0 := by
        have := a.toNat_lt
        have := b.toNat_lt
        have := c.toNat_lt
        refine ⟨?_, rfl, ?_, ?_, Nat.one_pos⟩
        · simp only [value, List.foldl_cons, List.foldl_nil]
          omega
        · simp only [List.forall_mem_cons, List.not_mem_nil, false_implies, implies_true, and_true]
          omega
        · simp only [List.forall_mem_cons, List.not_mem_nil, false_implies, implies_true, and_true]
          omega
      exact ⟨free, few, first.append later⟩
  | case2 a b =>
      have := a.toNat_lt
      have := b.toNat_lt
      refine ⟨2, by decide, ?_, rfl, ?_, ?_, by decide⟩
      · simp only [sextets, value, List.foldl_cons, List.foldl_nil, List.map_cons, List.map_nil]
        omega
      · simp only [sextets, List.forall_mem_cons, List.not_mem_nil, false_implies, implies_true,
          and_true]
        omega
      · simp only [List.map_cons, List.map_nil, List.forall_mem_cons, List.not_mem_nil,
          false_implies, implies_true, and_true]
        omega
  | case3 a =>
      have := a.toNat_lt
      refine ⟨4, by decide, ?_, rfl, ?_, ?_, by decide⟩
      · simp only [sextets, value, List.foldl_cons, List.foldl_nil, List.map_cons, List.map_nil]
        omega
      · simp only [sextets, List.forall_mem_cons, List.not_mem_nil, false_implies, implies_true,
          and_true]
        omega
      · simp only [List.map_cons, List.map_nil, List.forall_mem_cons, List.not_mem_nil,
          false_implies, implies_true, and_true]
        omega
  | case4 => exact ⟨0, by decide, Regrouped.start 6 8⟩

theorem sextets_lt (bytes : List UInt8) : ∀ digit ∈ sextets bytes, digit < 64 := by
  obtain ⟨free, -, regrouped⟩ := sextets_regrouped bytes
  exact regrouped.taken_lt

/-- No other digits are the bytes followed by less than a digit of zeros. -/
theorem eq_sextets {digits : List Nat} {bytes : List UInt8} {free : Nat} (few : free < 6)
    (regrouped : Regrouped 6 8 digits (bytes.map UInt8.toNat) 0 free) : digits = sextets bytes := by
  obtain ⟨free', few', regrouped'⟩ := sextets_regrouped bytes
  exact regrouped.unique_taken few regrouped' (by omega)

theorem length_base64 (bytes : List UInt8) : (base64 bytes).length = b64len bytes.length := by
  obtain ⟨free, few, regrouped⟩ := sextets_regrouped bytes
  have bits := regrouped.bits_eq
  rw [List.length_map] at bits
  rw [base64, List.length_map, b64len, Nat.shiftLeft_eq]
  have rest : bytes.length % 3 = 0 ∨ bytes.length % 3 = 1 ∨ bytes.length % 3 = 2 := by omega
  rcases rest with whole | one | two
  · rw [whole]
    change _ = bytes.length / 3 * 4 + 0
    omega
  · rw [one]
    change _ = bytes.length / 3 * 4 + 2
    omega
  · rw [two]
    change _ = bytes.length / 3 * 4 + 3
    omega

/-! ## The register -/

theorem shift_toNat {count : Nat} (short : count < 32) :
    (UInt32.ofNat count).toNat % 32 = count := by
  rw [UInt32.toNat_ofNat', Nat.mod_eq_of_lt (show count < 2 ^ 32 by omega),
    Nat.mod_eq_of_lt short]

/-- The low bits of a word after others were shifted in behind them. -/
theorem shifted_in (acc digit : UInt32) (count width : Nat) (room : count + width ≤ 32)
    (short : width < 32) (small : digit.toNat < 2 ^ width) :
    ((acc <<< UInt32.ofNat width) + digit).toNat % 2 ^ (count + width) =
      acc.toNat % 2 ^ count * 2 ^ width + digit.toNat := by
  have divides : 2 ^ (count + width) ∣ 2 ^ 32 := Nat.pow_dvd_pow 2 room
  have word : ((acc <<< UInt32.ofNat width) + digit).toNat % 2 ^ (count + width) =
      (acc.toNat * 2 ^ width + digit.toNat) % 2 ^ (count + width) := by
    rw [UInt32.toNat_add, UInt32.toNat_shiftLeft, shift_toNat short, Nat.shiftLeft_eq, Nat.mod_add_mod,
      Nat.mod_mod_of_dvd _ divides]
  have low : (acc.toNat * 2 ^ width + digit.toNat) % 2 ^ width = digit.toNat := by
    rw [Nat.mul_comm, Nat.mul_add_mod, Nat.mod_eq_of_lt small]
  have high : (acc.toNat * 2 ^ width + digit.toNat) / 2 ^ width = acc.toNat := by
    rw [Nat.mul_comm, Nat.mul_add_div (Nat.two_pow_pos width), Nat.div_eq_of_lt small,
      Nat.add_zero]
  rw [word, Nat.add_comm count, Nat.pow_add, Nat.mod_mul, low, high]
  ring

theorem shifted_out (acc mask : UInt32) (count width : Nat) (short : count < 32)
    (masked : mask.toNat = 2 ^ width - 1) :
    ((acc >>> UInt32.ofNat count) &&& mask).toNat =
      acc.toNat % 2 ^ (count + width) / 2 ^ count := by
  rw [UInt32.toNat_and, UInt32.toNat_shiftRight, shift_toNat short, masked, Nat.shiftRight_eq_div_pow,
    Nat.and_two_pow_sub_one_eq_mod, Nat.pow_add, Nat.mod_mul_right_div_self]

theorem encoded_eq (bits : UInt32) : encoded bits = symbol (bits &&& 0x3F).toNat := by
  rw [symbol, UInt32.ofNat_toNat, encoded, encoded, UInt32.and_assoc, UInt32.and_self]

/-! ## `to_base64` -/

/-- The inner loop gives out digits until less than one is pending; induction on the bits. -/
theorem writeSextets_regrouped (acc : UInt32) (accLen : Nat) {taken given : List Nat}
    (short : accLen < 32)
    (state : Regrouped 8 6 taken given (acc.toNat % 2 ^ accLen) accLen) :
    ∃ digits, (writeSextets acc accLen).1 = digits.map symbol ∧
      (writeSextets acc accLen).2 < 6 ∧
      Regrouped 8 6 taken (given ++ digits)
        (acc.toNat % 2 ^ (writeSextets acc accLen).2) (writeSextets acc accLen).2 := by
  induction accLen using Nat.strong_induction_on generalizing given with
  | _ accLen ih =>
      rw [writeSextets]
      split
      · next enough =>
          obtain ⟨count, rfl⟩ := Nat.exists_eq_add_of_le' enough
          rw [Nat.add_sub_cancel]
          have next := state.give
          rw [← shifted_out acc 0x3F count 6 (by omega) rfl, Nat.pow_add,
            Nat.mod_mul_right_mod] at next
          obtain ⟨digits, written, few, last⟩ := ih count (by omega) (by omega) next
          refine ⟨((acc >>> UInt32.ofNat count) &&& 0x3F).toNat :: digits, ?_, few, ?_⟩
          · rw [List.map_cons, ← encoded_eq, ← written]
          · rwa [List.append_assoc, List.singleton_append] at last
      · next few =>
          refine ⟨[], rfl, Nat.lt_of_not_le few, ?_⟩
          rwa [List.append_nil]

/-- The outer loop takes all bytes in; induction on the bytes. -/
theorem encodeLoop_regrouped (src : List UInt8) (acc : UInt32) (accLen : Nat)
    {taken given : List Nat} (few : accLen < 6)
    (state : Regrouped 8 6 taken given (acc.toNat % 2 ^ accLen) accLen) :
    ∃ digits, encodeLoop src acc accLen = digits.map symbol ∧
      ∃ free < 6, Regrouped 6 8 (given ++ digits) (taken ++ src.map UInt8.toNat) 0 free := by
  induction src generalizing acc accLen taken given with
  | nil =>
      rw [encodeLoop, List.map_nil, List.append_nil]
      split
      · next some_ =>
          have low := shifted_in acc 0 accLen (6 - accLen) (by omega)
            (by omega) (Nat.two_pow_pos _)
          rw [Nat.add_sub_of_le (Nat.le_of_lt few), UInt32.add_zero, UInt32.toNat_zero,
            Nat.add_zero] at low
          have digit : ((acc <<< UInt32.ofNat (6 - accLen)) &&& 0x3F).toNat =
              acc.toNat % 2 ^ accLen * 2 ^ (6 - accLen) := by
            rw [← low, UInt32.toNat_and]
            exact Nat.and_two_pow_sub_one_eq_mod _ 6
          refine ⟨[_], ?_, 6 - accLen, by omega, state.pad (Nat.le_of_lt few)⟩
          rw [List.map_singleton, encoded_eq, digit]
      · next none =>
          obtain rfl : accLen = 0 := Nat.eq_zero_of_not_pos none
          rw [Nat.pow_zero, Nat.mod_one] at state
          refine ⟨[], rfl, 0, by decide, ?_⟩
          rw [List.append_nil]
          exact state.flip
  | cons byte src ih =>
      have small : byte.toUInt32.toNat < 2 ^ 8 := byte.toNat_lt
      have next := state.take small
      rw [← shifted_in acc byte.toUInt32 accLen 8 (by omega) (by decide) small] at next
      obtain ⟨digits, written, few', state'⟩ := writeSextets_regrouped
        ((acc <<< 8) + byte.toUInt32) (accLen + 8) (by omega) next
      obtain ⟨later, written', free, bound, regrouped⟩ := ih _ _ few' state'
      refine ⟨digits ++ later, ?_, free, bound, ?_⟩
      · rw [encodeLoop, written, written', List.map_append]
      · rw [List.append_assoc, List.append_assoc] at regrouped
        exact regrouped

/-- The code writes Base64 wherever the text and its terminator fit. -/
theorem toBase64_eq (dstLen : Nat) (src : List UInt8) :
    toBase64 dstLen src = if dstLen ≤ b64len src.length then none else some (base64 src) := by
  obtain ⟨digits, written, free, few, regrouped⟩ :=
    encodeLoop_regrouped src 0 0 (by decide) (Regrouped.start 8 6)
  have same : digits = sextets src := eq_sextets few regrouped
  rw [toBase64, written, same, base64]

/-! ## `from_base64` -/

/-- Nothing but zeros may be pending at the end, and less than a digit of them. -/
theorem finish_eq_some_iff {acc : UInt32} {accLen : Nat} (short : accLen < 8)
    {buf src bytes rest : List UInt8} :
    finish acc accLen buf src = some (bytes, rest) ↔
      accLen ≤ 4 ∧ acc.toNat % 2 ^ accLen = 0 ∧ bytes = buf ∧ rest = src := by
  have one : (1 <<< UInt32.ofNat accLen : UInt32).toNat = 2 ^ accLen := by
    have fits : 2 ^ accLen < 2 ^ 32 := Nat.pow_lt_pow_right (by decide) (by omega)
    rw [UInt32.toNat_shiftLeft, shift_toNat (by omega), UInt32.toNat_one, Nat.shiftLeft_eq,
      Nat.one_mul, Nat.mod_eq_of_lt fits]
  have mask : ((1 <<< UInt32.ofNat accLen) - 1 : UInt32).toNat = 2 ^ accLen - 1 := by
    have positive : (1 : UInt32) ≤ 1 <<< UInt32.ofNat accLen := by
      rw [UInt32.le_iff_toNat_le, one]
      exact Nat.two_pow_pos accLen
    rw [UInt32.toNat_sub_of_le _ _ positive, one]
    rfl
  have zero : acc &&& ((1 <<< UInt32.ofNat accLen) - 1) = 0 ↔ acc.toNat % 2 ^ accLen = 0 := by
    rw [← UInt32.toNat_inj, UInt32.toNat_and, mask, Nat.and_two_pow_sub_one_eq_mod]
    rfl
  rw [finish]
  split
  · next refused =>
      constructor
      · intro never
        cases never
      · rintro ⟨few, none, -, -⟩
        rcases refused with many | left
        · exact absurd few (Nat.not_le_of_lt many)
        · exact absurd (zero.mpr none) left
  · next accepted =>
      rw [not_or, not_not, zero] at accepted
      rw [Option.some.injEq, Prod.mk.injEq]
      constructor
      · rintro ⟨rfl, rfl⟩
        exact ⟨Nat.le_of_not_lt accepted.1, accepted.2, rfl, rfl⟩
      · rintro ⟨-, -, rfl, rfl⟩
        exact ⟨rfl, rfl⟩

/-- What is behind the digits of a text. -/
def Ends (rest : List UInt8) : Prop := ∀ c, rest.head? = some c → decoded c = 0xFF

/-- What the loop returns once `taken` was read and `buf` was written. -/
def Accepts (dstLen : Nat) (src : List UInt8) (taken : List Nat) (bytes rest : List UInt8) :
    Prop :=
  ∃ chars, src = chars ++ rest ∧ (∀ c ∈ chars, decoded c ≠ 0xFF) ∧ Ends rest ∧
    bytes.length ≤ dstLen ∧ ∃ free ≤ 4,
      Regrouped 6 8 (taken ++ chars.map fun c => (decoded c).toNat) (bytes.map UInt8.toNat) 0 free

section

variable {dstLen : Nat} {taken : List Nat} {buf bytes rest : List UInt8}

theorem finish_iff_accepts {acc : UInt32} {accLen : Nat} (short : accLen < 8)
    (fits : buf.length ≤ dstLen) {src : List UInt8} (ends : Ends src)
    (state : Regrouped 6 8 taken (buf.map UInt8.toNat) (acc.toNat % 2 ^ accLen) accLen) :
    finish acc accLen buf src = some (bytes, rest) ↔ Accepts dstLen src taken bytes rest := by
  rw [finish_eq_some_iff short]
  constructor
  · rintro ⟨few, none, rfl, rfl⟩
    refine ⟨[], rfl, fun _ never => (nomatch never), ends, fits, accLen, few, ?_⟩
    rw [none] at state
    rwa [List.map_nil, List.append_nil]
  · rintro ⟨chars, split, digits, -, -, free, few, regrouped⟩
    cases chars with
    | nil =>
        rw [List.map_nil, List.append_nil] at regrouped
        obtain ⟨same, none, rfl⟩ := state.unique short regrouped (by omega)
        refine ⟨few, none, ?_, split.symm⟩
        exact (List.map_injective_iff.mpr (fun _ _ => UInt8.toNat_inj.mp) same).symm
    | cons c chars =>
        exact absurd (ends c (by rw [split]; rfl)) (digits c List.mem_cons_self)

theorem accepts_cons_iff {c : UInt8} (digit : decoded c ≠ 0xFF) {src : List UInt8} :
    Accepts dstLen (c :: src) taken bytes rest ↔
      Accepts dstLen src (taken ++ [(decoded c).toNat]) bytes rest := by
  constructor
  · rintro ⟨chars, split, digits, ends, fits, free, few, regrouped⟩
    cases chars with
    | nil => exact absurd (ends c (by rw [← List.nil_append rest, ← split]; rfl)) digit
    | cons c' chars =>
        obtain ⟨rfl, rfl⟩ := List.cons.inj split
        refine ⟨chars, rfl, fun c' member => digits c' (List.mem_cons_of_mem c member), ends, fits,
          free, few, ?_⟩
        rwa [List.append_assoc, List.singleton_append]
  · rintro ⟨chars, rfl, digits, ends, fits, free, few, regrouped⟩
    refine ⟨c :: chars, rfl, ?_, ends, fits, free, few, ?_⟩
    · exact List.forall_mem_cons.mpr ⟨digit, digits⟩
    · rwa [List.append_assoc, List.singleton_append] at regrouped

/-- More digits than the bytes of the buffer hold are not accepted. -/
theorem not_accepts_of_full {pending count : Nat} {src : List UInt8}
    (full : dstLen ≤ buf.length)
    (state : Regrouped 6 8 taken (buf.map UInt8.toNat) pending (count + 8)) :
    ¬ Accepts dstLen src taken bytes rest := by
  rintro ⟨chars, -, -, -, fits, free, few, regrouped⟩
  have bits := state.bits_eq
  have bits' := regrouped.bits_eq
  rw [List.length_append, List.length_map, List.length_map] at bits'
  rw [List.length_map] at bits
  omega

end

/-- The loop returns what is accepted; induction on the string. -/
theorem decodeLoop_iff_accepts {dstLen : Nat} (src : List UInt8) (acc : UInt32) (accLen : Nat)
    {taken : List Nat} {buf bytes rest : List UInt8} (short : accLen < 8)
    (fits : buf.length ≤ dstLen)
    (state : Regrouped 6 8 taken (buf.map UInt8.toNat) (acc.toNat % 2 ^ accLen) accLen) :
    decodeLoop dstLen src acc accLen buf = some (bytes, rest) ↔
      Accepts dstLen src taken bytes rest := by
  induction src generalizing acc accLen taken buf with
  | nil => exact finish_iff_accepts short fits (fun _ never => nomatch never) state
  | cons c src ih =>
      simp only [decodeLoop]
      split
      · next other =>
          refine finish_iff_accepts short fits ?_ state
          intro c' first
          cases first
          exact other
      · next digit =>
          have small : (decoded c).toNat < 2 ^ 6 :=
            ((decoded_cases c).resolve_left digit).1
          have next := state.take small
          rw [← shifted_in acc (decoded c) accLen 6 (by omega) (by decide) small] at next
          rw [accepts_cons_iff digit]
          split
          · next enough =>
              obtain ⟨count, more⟩ := Nat.exists_eq_add_of_le' enough
              rw [more] at next ⊢
              rw [Nat.add_sub_cancel]
              split
              · next full =>
                  constructor
                  · intro never
                    cases never
                  · intro accepted
                    exact absurd accepted (not_accepts_of_full full next)
              · next room =>
                  have given := next.give
                  rw [← shifted_out _ 0xFF count 8 (by omega) rfl, Nat.pow_add,
                    Nat.mod_mul_right_mod] at given
                  apply ih _ count (by omega)
                  · rw [List.length_append, List.length_singleton]
                    omega
                  · rw [List.map_append, List.map_singleton, UInt32.toNat_toUInt8,
                      Nat.mod_eq_of_lt (given.given_lt _ (by simp))]
                    exact given
          · next few => exact ih _ _ (by omega) fits next

theorem accepts_iff {dstLen : Nat} {src bytes rest : List UInt8} :
    Accepts dstLen src [] bytes rest ↔
      bytes.length ≤ dstLen ∧ ∃ chars, src = chars ++ rest ∧
        chars.map asciiOf = base64 bytes ∧ ∀ c, rest.head? = some c → Foreign c := by
  have stop : Ends rest ↔ ∀ c, rest.head? = some c → Foreign c :=
    forall_congr' fun c => imp_congr_right fun _ => (foreign_iff c).symm
  constructor
  · rintro ⟨chars, split, digits, ends, fits, free, few, regrouped⟩
    refine ⟨fits, chars, split, ?_, stop.mp ends⟩
    rw [List.nil_append] at regrouped
    rw [base64, ← eq_sextets (by omega) regrouped, List.map_map]
    exact List.map_congr_left fun c member => ((decoded_cases c).resolve_left (digits c member)).2
  · rintro ⟨fits, chars, split, spelled, ends⟩
    have read : chars.map (fun c => (decoded c).toNat) = sextets bytes := by
      have each := congrArg (List.map fun c => (decoded c).toNat) spelled
      rw [List.map_map, base64, List.map_map] at each
      have left : ((fun c => (decoded c).toNat) ∘ asciiOf) = fun c => (decoded c).toNat := by
        funext c
        exact congrArg UInt32.toNat (decoded_asciiOf c)
      have right : (sextets bytes).map ((fun c => (decoded c).toNat) ∘ symbol) =
          (sextets bytes).map id :=
        List.map_congr_left fun d member => decoded_symbol d (sextets_lt bytes d member)
      rwa [left, right, List.map_id] at each
    obtain ⟨free, few, regrouped⟩ := sextets_regrouped bytes
    refine ⟨chars, split, ?_, stop.mpr ends, fits, free, few, ?_⟩
    · intro c member other
      have digit : (decoded c).toNat < 64 :=
        sextets_lt bytes _ (read ▸ List.mem_map_of_mem (f := fun c => (decoded c).toNat) member)
      rw [other] at digit
      exact absurd digit (by decide)
    · rwa [List.nil_append, read]

/--
Bytes are returned exactly where the string begins with their Base64, up to
bytes above ASCII in the place of slashes, and goes on with something else, and
the buffer holds them.
-/
theorem fromBase64_iff {dstLen : Nat} {src bytes rest : List UInt8} :
    fromBase64 dstLen src = some (bytes, rest) ↔
      bytes.length ≤ dstLen ∧ ∃ chars, src = chars ++ rest ∧
        chars.map asciiOf = base64 bytes ∧ ∀ c, rest.head? = some c → Foreign c := by
  rw [fromBase64, ← accepts_iff]
  exact decodeLoop_iff_accepts src 0 0 (by decide) (Nat.zero_le _) (Regrouped.start 6 8)

/--
`from_base64` reads what `to_base64` writes into a large enough buffer, with
bytes above ASCII in the place of slashes, and no other text: all the digits of
the string are those of the bytes, and only zeros stay behind the last byte.
-/
theorem fromBase64_toBase64_iff {dstLen : Nat} {src bytes rest : List UInt8} :
    fromBase64 dstLen src = some (bytes, rest) ↔
      bytes.length ≤ dstLen ∧ ∃ chars, src = chars ++ rest ∧
        toBase64 (chars.length + 1) bytes = some (chars.map asciiOf) ∧
        ∀ c, rest.head? = some c → Foreign c := by
  have writes (chars : List UInt8) :
      toBase64 (chars.length + 1) bytes = some (chars.map asciiOf) ↔
        chars.map asciiOf = base64 bytes := by
    rw [toBase64_eq]
    split
    · next short =>
        refine iff_of_false (fun never => nomatch never) fun same => ?_
        have length := congrArg List.length same
        rw [List.length_map, length_base64] at length
        omega
    · rw [Option.some.injEq, eq_comm]
  simp only [fromBase64_iff, writes]

/-- Bytes above ASCII are read as slashes. -/
example : fromBase64 3 [0x80, 0x9F, 0xFF, 0x2F] = some ([0xFF, 0xFF, 0xFF], []) := by
  decide +kernel

end UltraLocked.CArgon2.Base64
