import Mathlib.Data.Nat.Digits.Lemmas
import Mathlib.Tactic.Ring

/-!
# Digit strings

Digits are listed with the most significant one first. A string of digits of
`a` bits each is cut into digits of `b` bits by a register that takes the former
in at its low end and gives the latter out at its high end. Both strings are
then the same number, up to the bits that are still in the register.
-/

namespace UltraLocked.Library.Numerals

/-- The number that a string of digits stands for. -/
def value (base : Nat) (digits : List Nat) : Nat :=
  digits.foldl (fun number digit => number * base + digit) 0

@[simp] theorem value_nil (base : Nat) : value base [] = 0 := rfl

@[simp] theorem value_concat (base : Nat) (digits : List Nat) (digit : Nat) :
    value base (digits ++ [digit]) = value base digits * base + digit := by
  rw [value, List.foldl_append]
  rfl

theorem value_singleton (base digit : Nat) : value base [digit] = digit := by
  simp [value]

theorem value_eq_ofDigits (base : Nat) (digits : List Nat) :
    value base digits = Nat.ofDigits base digits.reverse := by
  induction digits using List.reverseRecOn with
  | nil => rfl
  | append_singleton digits digit ih =>
      rw [value_concat, ih, List.reverse_append, List.reverse_singleton, List.singleton_append,
        Nat.ofDigits_cons]
      ring

theorem value_append (base : Nat) (front digits : List Nat) :
    value base (front ++ digits) =
      value base front * base ^ digits.length + value base digits := by
  induction digits using List.reverseRecOn with
  | nil => simp
  | append_singleton digits digit ih =>
      rw [← List.append_assoc, value_concat, value_concat, ih, List.length_append,
        List.length_singleton, Nat.pow_succ]
      ring

/-- Strings of one length are told apart by their numbers. -/
theorem eq_of_value {base : Nat} (large : 1 < base) {digits digits' : List Nat}
    (length : digits.length = digits'.length) (small : ∀ d ∈ digits, d < base)
    (small' : ∀ d ∈ digits', d < base) (same : value base digits = value base digits') :
    digits = digits' := by
  rw [value_eq_ofDigits, value_eq_ofDigits] at same
  apply List.reverse_injective
  apply Nat.ofDigits_inj_of_len_eq large
  · rw [List.length_reverse, List.length_reverse, length]
  · exact fun d member => small d (List.mem_reverse.mp member)
  · exact fun d member => small' d (List.mem_reverse.mp member)
  · exact same

/-! ## Numerals without leading zeros -/

/-- The digits of a number, `0` having one. -/
def numeral (base number : Nat) : List Nat :=
  if number = 0 then [0] else (Nat.digits base number).reverse

theorem value_numeral (base number : Nat) : value base (numeral base number) = number := by
  rw [numeral]
  split
  · next zero => rw [value_singleton, zero]
  · rw [value_eq_ofDigits, List.reverse_reverse, Nat.ofDigits_digits]

theorem numeral_ne_nil (base number : Nat) : numeral base number ≠ [] := by
  rw [numeral]
  split
  · exact List.cons_ne_nil _ _
  · next positive =>
      rw [Ne, List.reverse_eq_nil_iff]
      exact Nat.digits_ne_nil_iff_ne_zero.mpr positive

theorem numeral_lt {base number : Nat} (large : 1 < base) :
    ∀ d ∈ numeral base number, d < base := by
  rw [numeral]
  split
  · intro d member
    rw [List.mem_singleton.mp member]
    exact Nat.zero_lt_of_lt large
  · exact fun d member => Nat.digits_lt_base large (List.mem_reverse.mp member)

/-- A string is the numeral of its number when it has digits and no leading zero. -/
theorem numeral_value {base : Nat} (large : 1 < base) {first : Nat} {rest : List Nat}
    (small : ∀ d ∈ first :: rest, d < base) (minimal : first = 0 → rest = []) :
    numeral base (value base (first :: rest)) = first :: rest := by
  have digits : Nat.digits base (value base (first :: rest)) =
      (if first = 0 then [] else (first :: rest).reverse) := by
    split
    · next zero =>
        rw [zero, minimal zero, value_singleton, Nat.digits_zero]
    · next positive =>
        rw [value_eq_ofDigits]
        apply Nat.digits_ofDigits base large
        · exact fun d member => small d (List.mem_reverse.mp member)
        · intro _
          rwa [List.getLast_reverse, List.head_cons]
  by_cases zero : first = 0
  · rw [zero, minimal zero, value_singleton]
    rfl
  · have positive : value base (first :: rest) ≠ 0 := by
      intro none
      rw [none, Nat.digits_zero, if_neg zero, eq_comm, List.reverse_eq_nil_iff] at digits
      cases digits
    rw [numeral, if_neg positive, digits, if_neg zero, List.reverse_reverse]

theorem head_numeral {base number : Nat} {rest : List Nat}
    (begins : numeral base number = 0 :: rest) : rest = [] := by
  rw [numeral] at begins
  split at begins
  · exact (List.cons.inj begins).2.symm
  · next positive =>
      have last := Nat.getLast_digit_ne_zero base positive
      rw [List.reverse_eq_cons_iff] at begins
      simp [begins] at last

/-- The number of digits grows by one with each factor of the base. -/
theorem length_numeral {base number : Nat} (large : 1 < base) :
    (numeral base number).length =
      if number < base then 1 else (numeral base (number / base)).length + 1 := by
  by_cases zero : number = 0
  · rw [numeral, if_pos zero, if_pos (by omega)]
    rfl
  · rw [numeral, if_neg zero, List.length_reverse, Nat.digits_def' large (Nat.pos_of_ne_zero zero),
      List.length_cons]
    split
    · next single => rw [Nat.div_eq_of_lt single, Nat.digits_zero, List.length_nil]
    · next several =>
        have more : number / base ≠ 0 := by
          have := Nat.div_pos (Nat.le_of_not_lt several) (by omega)
          omega
        rw [numeral, if_neg more, List.length_reverse]

/-! ## Registers -/

/--
The digits taken in, of `a` bits each, are those given out, of `b` bits each,
followed by the `count` bits that are pending.
-/
structure Regrouped (a b : Nat) (taken given : List Nat) (pending count : Nat) : Prop where
  value_eq : value (2 ^ a) taken = value (2 ^ b) given * 2 ^ count + pending
  bits_eq : a * taken.length = b * given.length + count
  taken_lt : ∀ d ∈ taken, d < 2 ^ a
  given_lt : ∀ d ∈ given, d < 2 ^ b
  pending_lt : pending < 2 ^ count

namespace Regrouped

variable {a b : Nat} {taken given : List Nat} {pending count : Nat}

theorem start (a b : Nat) : Regrouped a b [] [] 0 0 :=
  ⟨rfl, rfl, fun _ never => (nomatch never), fun _ never => (nomatch never), Nat.one_pos⟩

/-- The rule for taking a digit in. -/
theorem take (state : Regrouped a b taken given pending count) {digit : Nat}
    (small : digit < 2 ^ a) :
    Regrouped a b (taken ++ [digit]) given (pending * 2 ^ a + digit) (count + a) where
  value_eq := by
    rw [value_concat, state.value_eq, Nat.pow_add]
    ring
  bits_eq := by
    have bits := state.bits_eq
    rw [List.length_append, List.length_singleton, Nat.mul_add]
    omega
  taken_lt := by
    intro d member
    rcases List.mem_append.mp member with old | new
    · exact state.taken_lt d old
    · rwa [List.mem_singleton.mp new]
  given_lt := state.given_lt
  pending_lt := by
    have short : pending + 1 ≤ 2 ^ count := state.pending_lt
    calc pending * 2 ^ a + digit
        < pending * 2 ^ a + 2 ^ a := Nat.add_lt_add_left small _
      _ = (pending + 1) * 2 ^ a := by rw [Nat.add_mul, Nat.one_mul]
      _ ≤ 2 ^ count * 2 ^ a := Nat.mul_le_mul_right _ short
      _ = 2 ^ (count + a) := (Nat.pow_add ..).symm

/-- The rule for giving a digit out. -/
theorem give (state : Regrouped a b taken given pending (count + b)) :
    Regrouped a b taken (given ++ [pending / 2 ^ count]) (pending % 2 ^ count) count where
  value_eq := by
    have cut := Nat.div_add_mod pending (2 ^ count)
    rw [state.value_eq, value_concat, Nat.add_mul, Nat.add_assoc, Nat.pow_add,
      Nat.mul_comm (pending / _), cut]
    ring
  bits_eq := by
    have bits := state.bits_eq
    rw [List.length_append, List.length_singleton, Nat.mul_add]
    omega
  taken_lt := state.taken_lt
  given_lt := by
    intro d member
    rcases List.mem_append.mp member with old | new
    · exact state.given_lt d old
    · rw [List.mem_singleton.mp new]
      apply Nat.div_lt_of_lt_mul
      rw [← Nat.pow_add]
      exact state.pending_lt
  pending_lt := Nat.mod_lt _ (Nat.two_pow_pos count)

/-- What is left in the register, moved to the high end, is one more digit. -/
theorem pad (state : Regrouped a b taken given pending count) (room : count ≤ b) :
    Regrouped b a (given ++ [pending * 2 ^ (b - count)]) taken 0 (b - count) where
  value_eq := by
    obtain ⟨free, rfl⟩ := Nat.exists_eq_add_of_le room
    rw [value_concat, state.value_eq, Nat.add_sub_cancel_left, Nat.pow_add]
    ring
  bits_eq := by
    have bits := state.bits_eq
    rw [List.length_append, List.length_singleton, Nat.mul_add]
    omega
  taken_lt := by
    intro d member
    rcases List.mem_append.mp member with old | new
    · exact state.given_lt d old
    · rw [List.mem_singleton.mp new]
      calc pending * 2 ^ (b - count)
          < 2 ^ count * 2 ^ (b - count) :=
            Nat.mul_lt_mul_of_pos_right state.pending_lt (Nat.two_pow_pos _)
        _ = 2 ^ b := by rw [← Nat.pow_add, Nat.add_sub_of_le room]
  given_lt := state.taken_lt
  pending_lt := Nat.two_pow_pos _

/-- An empty register is read in both directions. -/
theorem flip (state : Regrouped a b taken given 0 0) : Regrouped b a given taken 0 0 where
  value_eq := by simpa using state.value_eq.symm
  bits_eq := state.bits_eq.symm
  taken_lt := state.given_lt
  given_lt := state.taken_lt
  pending_lt := Nat.one_pos

/-- The rule for going on after the register was empty. -/
theorem append {front front' : List Nat} (first : Regrouped a b front front' 0 0)
    (later : Regrouped a b taken given pending count) :
    Regrouped a b (front ++ taken) (front' ++ given) pending count where
  value_eq := by
    have powers : (2 ^ a) ^ taken.length = (2 ^ b) ^ given.length * 2 ^ count := by
      rw [← Nat.pow_mul, ← Nat.pow_mul, ← Nat.pow_add, later.bits_eq]
    rw [value_append, value_append, first.value_eq, later.value_eq, powers]
    ring
  bits_eq := by
    have bits := first.bits_eq
    have bits' := later.bits_eq
    rw [List.length_append, List.length_append, Nat.mul_add, Nat.mul_add]
    omega
  taken_lt := fun d member =>
    (List.mem_append.mp member).elim (first.taken_lt d) (later.taken_lt d)
  given_lt := fun d member =>
    (List.mem_append.mp member).elim (first.given_lt d) (later.given_lt d)
  pending_lt := later.pending_lt

/-- What is taken in determines what is given out, when whole digits never stay. -/
theorem unique {given' : List Nat} {pending' count' : Nat}
    (state : Regrouped a b taken given pending count) (few : count < b)
    (state' : Regrouped a b taken given' pending' count') (few' : count' < b) :
    given = given' ∧ pending = pending' ∧ count = count' := by
  have positive : 0 < b := Nat.zero_lt_of_lt few
  have bits : b * given.length + count = b * given'.length + count' :=
    state.bits_eq.symm.trans state'.bits_eq
  have length : given.length = given'.length := by
    have quotient := congrArg (· / b) bits
    simpa [Nat.mul_add_div positive, Nat.div_eq_of_lt few, Nat.div_eq_of_lt few'] using quotient
  have counts : count = count' := by
    rw [length] at bits
    exact Nat.add_left_cancel bits
  subst counts
  have same := state.value_eq.symm.trans state'.value_eq
  have values : value (2 ^ b) given = value (2 ^ b) given' := by
    have quotient := congrArg (· / 2 ^ count) same
    simpa [Nat.mul_comm _ (2 ^ count), Nat.mul_add_div (Nat.two_pow_pos count),
      Nat.div_eq_of_lt state.pending_lt, Nat.div_eq_of_lt state'.pending_lt] using quotient
  refine ⟨eq_of_value ?_ length state.given_lt state'.given_lt values, ?_, rfl⟩
  · exact Nat.one_lt_two_pow (Nat.pos_iff_ne_zero.mp positive)
  · rw [values] at same
    exact Nat.add_left_cancel same

/-- What is given out determines what was taken in, when only some zeros are pending. -/
theorem unique_taken {taken' : List Nat} {count' : Nat}
    (state : Regrouped a b taken given 0 count) (few : count < a)
    (state' : Regrouped a b taken' given 0 count') (few' : count' < a) : taken = taken' := by
  have length : taken.length = taken'.length := by
    have bits := state.bits_eq
    have bits' := state'.bits_eq
    rcases Nat.lt_trichotomy taken.length taken'.length with less | same | more
    · have := Nat.mul_le_mul_left a less
      rw [Nat.mul_succ] at this
      omega
    · exact same
    · have := Nat.mul_le_mul_left a more
      rw [Nat.mul_succ] at this
      omega
  have counts : count = count' := by
    have bits := state.bits_eq
    rw [length, state'.bits_eq] at bits
    exact (Nat.add_left_cancel bits).symm
  apply eq_of_value ?_ length state.taken_lt state'.taken_lt
  · rw [state.value_eq, state'.value_eq, counts]
  · exact Nat.one_lt_two_pow (Nat.pos_iff_ne_zero.mp (Nat.zero_lt_of_lt few))

end Regrouped

end UltraLocked.Library.Numerals
