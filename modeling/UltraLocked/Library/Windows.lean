import Mathlib.Algebra.BigOperators.Group.List.Lemmas
import Mathlib.Algebra.Ring.Nat
import Mathlib.Data.List.Forall2

/-!
# Windows of a concatenation

Parts laid end to end occupy consecutive windows: part `i` starts where the
sizes of the parts before it add up to, and is as long as its own size.
-/

namespace UltraLocked.Library.Windows

variable {α : Type}

/-- Where the window of part `i` starts. -/
def start (sizes : List Nat) (i : Nat) : Nat := (sizes.take i).sum

theorem start_succ {sizes : List Nat} {i : Nat} (inside : i < sizes.length) :
    start sizes (i + 1) = start sizes i + sizes[i] := by
  simp [start, List.sum_take_succ sizes i inside]

theorem start_mono (sizes : List Nat) {i j : Nat} (ordered : i ≤ j) :
    start sizes i ≤ start sizes j := by
  have cut : sizes.take i = (sizes.take j).take i := by
    rw [List.take_take, Nat.min_eq_left ordered]
  have split := congrArg List.sum (List.take_append_drop i (sizes.take j))
  rw [List.sum_append, ← cut] at split
  simp only [start]
  omega

theorem start_length (sizes : List Nat) : start sizes sizes.length = sizes.sum := by
  simp [start]

theorem stop_le_start {sizes : List Nat} {i j : Nat} (inside : i < sizes.length)
    (later : i < j) : start sizes i + sizes[i] ≤ start sizes j := by
  rw [← start_succ inside]
  exact start_mono sizes later

/-- Every window ends inside the concatenation. -/
theorem stop_le_sum {sizes : List Nat} {i : Nat} (inside : i < sizes.length) :
    start sizes i + sizes[i] ≤ sizes.sum := by
  rw [← start_length sizes]
  exact stop_le_start inside inside

/-- Reading a window of a concatenation gives back the part. -/
theorem take_drop_flatten (parts : List (List α)) {i : Nat} (inside : i < parts.length) :
    (parts.flatten.drop (start (parts.map List.length) i)).take parts[i].length =
      parts[i] := by
  have sizes : i < (parts.map List.length).length := by simpa using inside
  have found := List.drop_take_succ_flatten_eq_getElem parts i inside
  rw [List.drop_take] at found
  have width : ((parts.map List.length).take (i + 1)).sum -
      ((parts.map List.length).take i).sum = parts[i].length := by
    have step := start_succ sizes
    simp only [start, List.getElem_map] at step
    omega
  rwa [width] at found

/--
Two concatenations with equally long parts differ only inside windows of parts
that differ.
-/
theorem differ_inside {left right : List (List α)}
    (sizes : left.map List.length = right.map List.length) {k : Nat}
    (differ : left.flatten[k]? ≠ right.flatten[k]?) :
    ∃ i, left[i]? ≠ right[i]? ∧ start (left.map List.length) i ≤ k ∧
      k < start (left.map List.length) (i + 1) := by
  induction left generalizing right k with
  | nil =>
      cases right with
      | nil => exact absurd rfl differ
      | cons _ _ => simp at sizes
  | cons first rest ih =>
      cases right with
      | nil => simp at sizes
      | cons second tail =>
          simp only [List.map_cons, List.cons.injEq] at sizes
          obtain ⟨heads, tails⟩ := sizes
          by_cases early : k < first.length
          · refine ⟨0, ?_, Nat.zero_le _, by simpa [start] using early⟩
            intro same
            simp only [List.getElem?_cons_zero, Option.some.injEq] at same
            subst same
            apply differ
            rw [List.flatten_cons, List.flatten_cons, List.getElem?_append_left early,
              List.getElem?_append_left early]
          · have late : first.length ≤ k := Nat.le_of_not_lt early
            rw [List.flatten_cons, List.flatten_cons, List.getElem?_append_right late,
              List.getElem?_append_right (heads ▸ late), ← heads] at differ
            obtain ⟨i, parts, above, below⟩ := ih tails differ
            refine ⟨i + 1, by simpa using parts, ?_, ?_⟩
            · simp only [start, List.map_cons, List.take_succ_cons, List.sum_cons] at above ⊢
              omega
            · simp only [start, List.map_cons, List.take_succ_cons, List.sum_cons] at below ⊢
              omega

/-- The same behind a front part. -/
theorem take_drop_behind (front : List α) {parts : List (List α)} {i : Nat} {part : List α}
    (found : parts[i]? = some part) :
    ((front ++ parts.flatten).drop
      (front.length + start (parts.map List.length) i)).take part.length = part := by
  obtain ⟨inside, rfl⟩ := List.getElem?_eq_some_iff.mp found
  rw [List.drop_length_add_append, take_drop_flatten parts inside]

theorem differ_behind {front : List α} {left right : List (List α)}
    (sizes : left.map List.length = right.map List.length) {k : Nat}
    (differ : (front ++ left.flatten)[k]? ≠ (front ++ right.flatten)[k]?) :
    ∃ i, left[i]? ≠ right[i]? ∧ front.length + start (left.map List.length) i ≤ k ∧
      k < front.length + start (left.map List.length) (i + 1) := by
  have late : front.length ≤ k := by
    by_contra early
    apply differ
    rw [List.getElem?_append_left (by omega), List.getElem?_append_left (by omega)]
  rw [List.getElem?_append_right late, List.getElem?_append_right late] at differ
  obtain ⟨i, parts, above, below⟩ := differ_inside sizes differ
  exact ⟨i, parts, by omega, by omega⟩

end UltraLocked.Library.Windows
