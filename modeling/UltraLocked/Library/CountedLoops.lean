import Mathlib.Data.List.Range

/-!
# Counted loops

A loop that counts and may fail is a fold over a range. An invariant that each
turn carries from its number to the next one holds at the end.
-/

namespace UltraLocked.Library

variable {σ : Type} {f : σ → Nat → Option σ} {P : Nat → σ → Prop}

/-- The rule for a loop from `first` on; induction on the number of turns. -/
theorem foldlM_range' (first count : Nat) {s : σ} (start : P first s)
    (turn : ∀ n, first ≤ n → n < first + count →
      ∀ s, P n s → ∃ s', f s n = some s' ∧ P (n + 1) s') :
    ∃ s', (List.range' first count).foldlM f s = some s' ∧ P (first + count) s' := by
  induction count with
  | zero => exact ⟨s, rfl, start⟩
  | succ count run =>
      obtain ⟨s₁, before, reached⟩ := run fun n more few => turn n more (by omega)
      obtain ⟨s₂, last, kept⟩ := turn (first + count) (by omega) (by omega) s₁ reached
      refine ⟨s₂, ?_, kept⟩
      rw [List.range'_1_concat, List.foldlM_append, before]
      change (f s₁ (first + count)).bind some = some s₂
      rw [last]
      rfl

/-- The rule for a loop from zero on. -/
theorem foldlM_range (count : Nat) {s : σ} (start : P 0 s)
    (turn : ∀ n < count, ∀ s, P n s → ∃ s', f s n = some s' ∧ P (n + 1) s') :
    ∃ s', (List.range count).foldlM f s = some s' ∧ P count s' := by
  have run := foldlM_range' 0 count start fun n _ few => turn n (by omega)
  rwa [← List.range_eq_range', Nat.zero_add] at run

end UltraLocked.Library
