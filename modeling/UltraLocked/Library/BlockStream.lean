import Mathlib.Data.List.Basic
import Mathlib.Tactic.NormNum

/-!
# Input taken in blocks

A consumer of blocks of `size` symbols is fed input in chunks of any length.
It absorbs a block only when more input waits behind it, so that the last
block, which may be short, stays available to whoever closes the stream. How
the input was cut into chunks leaves no trace.
-/

namespace UltraLocked.Library.BlockStream

variable {σ α : Type} (size : Nat) (absorb : σ → List α → σ)

/-- Absorb blocks from the front while more than one block waits. -/
def drain (s : σ) (waiting : List α) : σ × List α :=
  if 0 < size ∧ size < waiting.length then
    drain (absorb s (waiting.take size)) (waiting.drop size)
  else (s, waiting)
termination_by waiting.length
decreasing_by
  rw [List.length_drop]
  omega

variable {size absorb}

theorem drain_of_le {waiting : List α} (few : waiting.length ≤ size) (s : σ) :
    drain size absorb s waiting = (s, waiting) := by
  rw [drain, if_neg (fun more => Nat.not_lt.mpr few more.2)]

theorem drain_of_lt {waiting : List α} (positive : 0 < size) (many : size < waiting.length)
    (s : σ) :
    drain size absorb s waiting =
      drain size absorb (absorb s (waiting.take size)) (waiting.drop size) := by
  rw [drain, if_pos ⟨positive, many⟩]

/-- At most one block stays behind. -/
theorem length_drain_le (positive : 0 < size) (s : σ) (waiting : List α) :
    (drain size absorb s waiting).2.length ≤ size := by
  induction s, waiting using drain.induct size absorb with
  | case1 s waiting more ih => rwa [drain_of_lt positive more.2]
  | case2 s waiting enough =>
      have few : waiting.length ≤ size := Nat.not_lt.mp fun many => enough ⟨positive, many⟩
      rwa [drain_of_le few]

/-- Input that arrives later is drained after what was left of the earlier input. -/
theorem drain_append (positive : 0 < size) (s : σ) (earlier later : List α) :
    drain size absorb s (earlier ++ later) =
      drain size absorb (drain size absorb s earlier).1
        ((drain size absorb s earlier).2 ++ later) := by
  induction s, earlier using drain.induct size absorb with
  | case1 s waiting more ih =>
      have many : size < (waiting ++ later).length := by
        rw [List.length_append]
        exact Nat.lt_add_right _ more.2
      have front : (waiting ++ later).take size = waiting.take size :=
        List.take_append_of_le_length more.2.le
      have behind : (waiting ++ later).drop size = waiting.drop size ++ later :=
        List.drop_append_of_le_length more.2.le
      rw [drain_of_lt positive many, drain_of_lt positive more.2, front, behind, ih]
  | case2 s waiting enough =>
      have few : waiting.length ≤ size := Nat.not_lt.mp fun many => enough ⟨positive, many⟩
      rw [drain_of_le few]

/-- Block `i` of an input. -/
def block (size : Nat) (input : List α) (i : Nat) : List α :=
  (input.drop (size * i)).take size

/-- The blocks of an input in front of its last one. -/
def leading (size : Nat) (input : List α) : Nat := (input.length - 1) / size

/-- The last block, short or full, but empty only for an empty input. -/
def final (size : Nat) (input : List α) : List α := input.drop (size * leading size input)

theorem leading_drop (positive : 0 < size) {input : List α} (many : size < input.length) :
    leading size input = leading size (input.drop size) + 1 := by
  have split : input.length - 1 = input.length - size - 1 + size := by omega
  rw [leading, leading, List.length_drop, split, Nat.add_div_right _ positive]

theorem block_drop (input : List α) (i : Nat) :
    block size (input.drop size) i = block size input (i + 1) := by
  rw [block, block, List.drop_drop, Nat.mul_add, Nat.mul_one, Nat.add_comm]

/-- Draining absorbs the leading blocks in order and leaves the last one. -/
theorem drain_eq (positive : 0 < size) (s : σ) (input : List α) :
    drain size absorb s input =
      (((List.range (leading size input)).map (block size input)).foldl absorb s,
        final size input) := by
  induction s, input using drain.induct size absorb with
  | case1 s input more ih =>
      have later : (List.range (leading size (input.drop size))).map
            (block size (input.drop size)) =
          (List.range (leading size (input.drop size))).map (block size input ∘ Nat.succ) :=
        List.map_congr_left fun i _ => block_drop input i
      have first : block size input 0 = input.take size := by
        rw [block, Nat.mul_zero, List.drop_zero]
      have last : final size (input.drop size) = final size input := by
        rw [final, final, leading_drop positive more.2, List.drop_drop, Nat.mul_add, Nat.mul_one,
          Nat.add_comm]
      rw [drain_of_lt positive more.2, ih, last, later, leading_drop positive more.2,
        List.range_succ_eq_map, List.map_cons, List.map_map, List.foldl_cons, first]
  | case2 s input enough =>
      have few : input.length ≤ size := Nat.not_lt.mp fun many => enough ⟨positive, many⟩
      have none : leading size input = 0 := Nat.div_eq_of_lt (by omega)
      rw [drain_of_le few, final, none]
      rfl

end UltraLocked.Library.BlockStream
