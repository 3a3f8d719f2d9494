import UltraLocked.CArgon2.Base64

/-!
# Decimal numbers of libargon2

`decode_decimal` and `numlen` of `encoding.c`. Each number that fits in an
`unsigned long` is read from one text only, that which `sprintf` writes.
-/

namespace UltraLocked.CArgon2

open Library.Numerals Base64

/-- `ULONG_MAX` where an `unsigned long` has 64 bits. -/
def ulongMax : UInt64 := 0xFFFFFFFFFFFFFFFF

/-- The loop of `decode_decimal`; the terminator behind the last byte ends it. -/
def decimalLoop : List UInt8 → UInt64 → Option (UInt64 × List UInt8)
  | [], acc => some (acc, [])
  | char :: str, acc =>
      let c := charValue char
      if c < '0'.val.toInt32 ∨ c > '9'.val.toInt32 then some (acc, char :: str)
      else
        let c := (c - '0'.val.toInt32).toInt64.toUInt64
        if acc > ulongMax / 10 then none
        else
          let acc := acc * 10
          if c > ulongMax - acc then none
          else decimalLoop str (acc + c)

/-- `decode_decimal`: the number, and the string from the first other character on. -/
def decodeDecimal (orig : List UInt8) : Option (UInt64 × List UInt8) :=
  match decimalLoop orig 0 with
  | none => none
  | some (acc, str) =>
      if str.length = orig.length ∨
          orig.head? = some '0'.val.toUInt8 ∧ str.length + 1 ≠ orig.length then none
      else some (acc, str)

/-- The loop of `numlen` -/
def numlenLoop (len num : Nat) : Nat :=
  if 10 ≤ num then numlenLoop (len + 1) (num / 10) else len

def numlen (num : UInt32) : Nat := numlenLoop 1 num.toNat

/-! ## Digits -/

def IsDigit (c : UInt8) : Prop := 48 ≤ c.toNat ∧ c.toNat ≤ 57

instance (c : UInt8) : Decidable (IsDigit c) := inferInstanceAs (Decidable (_ ∧ _))

def digitChar (digit : Nat) : UInt8 := UInt8.ofNat (48 + digit)

def digitOf (c : UInt8) : Nat := c.toNat - 48

/-- What `sprintf` writes for `%lu`. -/
def decimal (number : Nat) : List UInt8 := (numeral 10 number).map digitChar

/-- A string that goes on with something else than a digit. -/
def PastDigits (str : List UInt8) : Prop := ∀ c, str.head? = some c → ¬ IsDigit c

theorem pastDigits_cons {c : UInt8} (other : ¬ IsDigit c) (str : List UInt8) :
    PastDigits (c :: str) := by
  intro c' first
  cases first
  exact other

theorem not_isDigit_iff (c : UInt8) :
    (charValue c < '0'.val.toInt32 ∨ charValue c > '9'.val.toInt32) ↔ ¬ IsDigit c :=
  forall_bytes (P := fun c =>
    (charValue c < '0'.val.toInt32 ∨ charValue c > '9'.val.toInt32) ↔
      ¬ (48 ≤ c.toNat ∧ c.toNat ≤ 57)) (by decide +kernel) c

theorem digitValue_toNat {c : UInt8} (digit : IsDigit c) :
    (charValue c - '0'.val.toInt32).toInt64.toUInt64.toNat = digitOf c :=
  forall_bytes (P := fun c => 48 ≤ c.toNat ∧ c.toNat ≤ 57 →
    (charValue c - '0'.val.toInt32).toInt64.toUInt64.toNat = c.toNat - 48)
    (by decide +kernel) c digit

theorem digitOf_lt {c : UInt8} (digit : IsDigit c) : digitOf c < 10 := by
  obtain ⟨least, most⟩ := digit
  rw [digitOf]
  omega

theorem digitChar_digitOf {c : UInt8} (digit : IsDigit c) : digitChar (digitOf c) = c := by
  rw [digitChar, digitOf, Nat.add_sub_of_le digit.1, UInt8.ofNat_toNat]

theorem digitChar_toNat {digit : Nat} (small : digit < 10) :
    (digitChar digit).toNat = 48 + digit := by
  rw [digitChar, UInt8.toNat_ofNat', Nat.mod_eq_of_lt (by omega)]

theorem isDigit_digitChar {digit : Nat} (small : digit < 10) : IsDigit (digitChar digit) := by
  rw [IsDigit, digitChar_toNat small]
  omega

theorem digitOf_digitChar {digit : Nat} (small : digit < 10) :
    digitOf (digitChar digit) = digit := by
  rw [digitOf, digitChar_toNat small, Nat.add_sub_cancel_left]

theorem isDigit_of_mem_decimal {number : Nat} : ∀ c ∈ decimal number, IsDigit c := by
  intro c member
  obtain ⟨digit, digits, rfl⟩ := List.mem_map.mp member
  exact isDigit_digitChar (numeral_lt (by decide) digit digits)

theorem digits_decimal (number : Nat) : (decimal number).map digitOf = numeral 10 number := by
  rw [decimal, List.map_map]
  calc (numeral 10 number).map (digitOf ∘ digitChar)
      = (numeral 10 number).map id := List.map_congr_left fun digit member =>
          digitOf_digitChar (numeral_lt (by decide) digit member)
    _ = numeral 10 number := List.map_id _

/-! ## `decode_decimal` -/

/-- Reading one more digit. -/
def readDigit (number : Nat) (c : UInt8) : Nat := number * 10 + digitOf c

theorem le_foldl_readDigit (chars : List UInt8) (number : Nat) :
    number ≤ chars.foldl readDigit number := by
  induction chars generalizing number with
  | nil => exact Nat.le_refl _
  | cons c chars ih =>
      have more := ih (readDigit number c)
      rw [List.foldl_cons]
      rw [readDigit] at more ⊢
      omega

theorem value_digits (chars : List UInt8) :
    value 10 (chars.map digitOf) = chars.foldl readDigit 0 := by
  rw [value, List.foldl_map]
  rfl

/-- The two checks of a digit fail exactly where the number is no `unsigned long`. -/
theorem overflow_iff (acc : UInt64) {c : UInt64} (small : c.toNat < 10) :
    (acc > ulongMax / 10 ∨ c > ulongMax - acc * 10) ↔ 2 ^ 64 ≤ acc.toNat * 10 + c.toNat := by
  have tenth : (ulongMax / 10).toNat = (2 ^ 64 - 1) / 10 := by decide +kernel
  rw [gt_iff_lt, gt_iff_lt, UInt64.lt_iff_toNat_lt, tenth]
  by_cases large : (2 ^ 64 - 1) / 10 < acc.toNat
  · simp only [large, true_or, true_iff]
    omega
  · have product : (acc * 10).toNat = acc.toNat * 10 := by
      rw [UInt64.toNat_mul]
      exact Nat.mod_eq_of_lt (by change acc.toNat * 10 < _; omega)
    have below : acc * 10 ≤ ulongMax := by
      rw [UInt64.le_iff_toNat_le, product]
      change _ ≤ 2 ^ 64 - 1
      omega
    have most : ulongMax.toNat = 2 ^ 64 - 1 := rfl
    simp only [large, false_or]
    rw [UInt64.lt_iff_toNat_lt, UInt64.toNat_sub_of_le _ _ below, product, most]
    omega

/-- The loop reads all digits, if their number fits; induction on the string. -/
theorem decimalLoop_iff {str rest : List UInt8} {acc v : UInt64} :
    decimalLoop str acc = some (v, rest) ↔
      ∃ chars, str = chars ++ rest ∧ (∀ c ∈ chars, IsDigit c) ∧ PastDigits rest ∧
        v.toNat = chars.foldl readDigit acc.toNat := by
  induction str generalizing acc with
  | nil =>
      rw [decimalLoop, Option.some.injEq, Prod.mk.injEq]
      constructor
      · rintro ⟨rfl, rfl⟩
        exact ⟨[], rfl, fun _ never => (nomatch never), fun _ never => (nomatch never), rfl⟩
      · rintro ⟨chars, split, -, -, number⟩
        obtain ⟨rfl, rfl⟩ := List.append_eq_nil_iff.mp split.symm
        exact ⟨(UInt64.toNat_inj.mp number).symm, rfl⟩
  | cons c str ih =>
      simp only [decimalLoop]
      split
      · next stop =>
          have other := (not_isDigit_iff c).mp stop
          rw [Option.some.injEq, Prod.mk.injEq]
          constructor
          · rintro ⟨rfl, rfl⟩
            exact ⟨[], rfl, fun _ never => (nomatch never), pastDigits_cons other str, rfl⟩
          · rintro ⟨chars, split, digits, -, number⟩
            cases chars with
            | nil => exact ⟨(UInt64.toNat_inj.mp number).symm, split⟩
            | cons c' chars =>
                obtain ⟨rfl, -⟩ := List.cons.inj split
                exact absurd (digits c List.mem_cons_self) other
      · next goes =>
          have digit : IsDigit c := not_not.mp (mt (not_isDigit_iff c).mpr goes)
          have small := digitOf_lt digit
          rw [← digitValue_toNat digit] at small
          have reads : (∃ chars, c :: str = chars ++ rest ∧ (∀ c ∈ chars, IsDigit c) ∧
              PastDigits rest ∧ v.toNat = chars.foldl readDigit acc.toNat) ↔
              ∃ chars, str = chars ++ rest ∧ (∀ c ∈ chars, IsDigit c) ∧ PastDigits rest ∧
                v.toNat = chars.foldl readDigit (readDigit acc.toNat c) := by
            constructor
            · rintro ⟨chars, split, digits, past, number⟩
              cases chars with
              | nil => exact absurd digit (past c (by rw [← List.nil_append rest, ← split]; rfl))
              | cons c' chars =>
                  obtain ⟨rfl, rfl⟩ := List.cons.inj split
                  exact ⟨chars, rfl, (List.forall_mem_cons.mp digits).2, past, number⟩
            · rintro ⟨chars, rfl, digits, past, number⟩
              exact ⟨c :: chars, rfl, List.forall_mem_cons.mpr ⟨digit, digits⟩, past, number⟩
          rw [reads]
          have overflow := overflow_iff acc small
          rw [digitValue_toNat digit] at overflow
          have tooLarge (large : 2 ^ 64 ≤ acc.toNat * 10 + digitOf c) :
              ¬ ∃ chars, str = chars ++ rest ∧ (∀ c ∈ chars, IsDigit c) ∧ PastDigits rest ∧
                v.toNat = chars.foldl readDigit (readDigit acc.toNat c) := by
            rintro ⟨chars, -, -, -, number⟩
            have least := le_foldl_readDigit chars (readDigit acc.toNat c)
            have bound := v.toNat_lt
            rw [← number, readDigit] at least
            omega
          split
          · next first =>
              exact iff_of_false (fun never => nomatch never) (tooLarge (overflow.mp (.inl first)))
          · next passed =>
              split
              · next second =>
                  exact iff_of_false (fun never => nomatch never)
                    (tooLarge (overflow.mp (.inr second)))
              · next passed' =>
                  have fits : acc.toNat * 10 + digitOf c < 2 ^ 64 := by
                    apply Nat.lt_of_not_le
                    intro large
                    exact (overflow.mpr large).elim passed passed'
                  have sum : (acc * 10 +
                      (charValue c - '0'.val.toInt32).toInt64.toUInt64).toNat =
                        readDigit acc.toNat c := by
                    rw [UInt64.toNat_add, UInt64.toNat_mul, digitValue_toNat digit,
                      Nat.mod_add_mod]
                    exact Nat.mod_eq_of_lt fits
                  rw [ih, sum]

theorem decimal_ne_nil (number : Nat) : decimal number ≠ [] := by
  rw [decimal, Ne, List.map_eq_nil_iff]
  exact numeral_ne_nil 10 number

/-- A digit string without a leading zero is what is written for its number. -/
theorem decimal_of_digits {c : UInt8} {chars : List UInt8} (digits : ∀ c' ∈ c :: chars, IsDigit c')
    (minimal : c = '0'.val.toUInt8 → chars = []) :
    decimal ((c :: chars).foldl readDigit 0) = c :: chars := by
  have small : ∀ d ∈ digitOf c :: chars.map digitOf, d < 10 := by
    intro d member
    rw [← List.map_cons] at member
    obtain ⟨c', known, rfl⟩ := List.mem_map.mp member
    exact digitOf_lt (digits c' known)
  have same : numeral 10 ((c :: chars).foldl readDigit 0) = (c :: chars).map digitOf := by
    rw [← value_digits, List.map_cons]
    apply numeral_value (by decide) small
    intro zero
    have first := digitChar_digitOf (digits c List.mem_cons_self)
    rw [zero] at first
    rw [minimal first.symm, List.map_nil]
  rw [decimal, same, List.map_map]
  calc (c :: chars).map (digitChar ∘ digitOf)
      = (c :: chars).map id := List.map_congr_left fun c' member =>
          digitChar_digitOf (digits c' member)
    _ = c :: chars := List.map_id _

/-- What is written for a number has no leading zero. -/
theorem decimal_minimal {number : Nat} {chars : List UInt8}
    (written : decimal number = '0'.val.toUInt8 :: chars) : chars = [] := by
  have digits := digits_decimal number
  rw [written, List.map_cons] at digits
  exact List.map_eq_nil_iff.mp (head_numeral digits.symm)

/--
`decode_decimal` reads a number exactly where the string begins with the text
that is written for it and goes on with something else than a digit.
-/
theorem decodeDecimal_iff {str rest : List UInt8} {v : UInt64} :
    decodeDecimal str = some (v, rest) ↔ str = decimal v.toNat ++ rest ∧ PastDigits rest := by
  constructor
  · intro read
    rw [decodeDecimal] at read
    split at read
    · cases read
    · next acc str' run =>
        obtain ⟨chars, rfl, digits, past, number⟩ := decimalLoop_iff.mp run
        split at read
        · cases read
        · next passed =>
            cases read
            refine ⟨?_, past⟩
            rw [not_or, not_and, List.length_append] at passed
            cases chars with
            | nil => exact absurd (Nat.zero_add _).symm passed.1
            | cons c chars =>
                rw [number]
                change _ = decimal ((c :: chars).foldl readDigit 0) ++ _
                rw [decimal_of_digits digits]
                intro zero
                have single := passed.2 (by rw [zero]; rfl)
                rw [List.length_cons] at single
                exact List.length_eq_zero_iff.mp (by omega)
  · rintro ⟨rfl, past⟩
    have run : decimalLoop (decimal v.toNat ++ rest) 0 = some (v, rest) := by
      refine decimalLoop_iff.mpr ⟨_, rfl, isDigit_of_mem_decimal, past, ?_⟩
      change _ = (decimal v.toNat).foldl readDigit 0
      rw [← value_digits, digits_decimal, value_numeral]
    obtain ⟨c, chars, written⟩ := List.exists_cons_of_ne_nil (decimal_ne_nil v.toNat)
    rw [decodeDecimal, run]
    refine if_neg ?_
    rw [written, not_or]
    refine ⟨?_, ?_⟩
    · rw [List.length_append, List.length_cons]
      omega
    · rintro ⟨zero, several⟩
      have first : c = '0'.val.toUInt8 := Option.some.inj zero
      rw [first] at written
      rw [decimal_minimal written, List.singleton_append, List.length_cons] at several
      exact several rfl

/-! ## Lengths -/

theorem length_decimal (number : Nat) :
    (decimal number).length =
      if number < 10 then 1 else (decimal (number / 10)).length + 1 := by
  rw [decimal, decimal, List.length_map, List.length_map]
  exact length_numeral (by decide)

theorem numlenLoop_eq (len num : Nat) : numlenLoop len num + 1 = len + (decimal num).length := by
  induction num using Nat.strong_induction_on generalizing len with
  | _ num ih =>
      rw [numlenLoop, length_decimal]
      split
      · next several =>
          rw [ih (num / 10) (by omega), if_neg (Nat.not_lt_of_le several)]
          omega
      · next single => rw [if_pos (Nat.lt_of_not_le single)]

/-- `numlen` counts the characters of a number. -/
theorem numlen_eq (num : UInt32) : numlen num = (decimal num.toNat).length := by
  have count := numlenLoop_eq 1 num.toNat
  rw [numlen]
  omega

end UltraLocked.CArgon2
