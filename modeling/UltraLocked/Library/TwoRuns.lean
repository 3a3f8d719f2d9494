import UltraLocked.Library.Effects

/-!
# Two runs side by side

`Agree related x y`: the two computations end in the same error, or both
return, with related values. The rule of sequence carries it through a program.
-/

namespace UltraLocked.Library.Traced

variable {ω ε α β γ δ : Type}

/-- The same error on both sides, or related values on both sides. -/
def Agree (related : α → β → Prop) (x : Traced ω ε α) (y : Traced ω ε β) : Prop :=
  (∃ e, x.outcome = .error e ∧ y.outcome = .error e) ∨
    ∃ a b, x.outcome = .ok a ∧ y.outcome = .ok b ∧ related a b

namespace Agree

theorem same (x : Traced ω ε α) : Agree Eq x x := by
  rcases x with ⟨e | a, events⟩
  · exact .inl ⟨e, rfl, rfl⟩
  · exact .inr ⟨a, a, rfl, rfl, rfl⟩

theorem of_values {related : α → β → Prop} {a : α} {b : β} (holds : related a b)
    (first second : List ω) :
    Agree related (⟨.ok a, first⟩ : Traced ω ε α) ⟨.ok b, second⟩ :=
  .inr ⟨a, b, rfl, rfl, holds⟩

/-- The rule of sequence, through the relation `middle`. -/
theorem bind {middle : α → β → Prop} {related : γ → δ → Prop} {x : Traced ω ε α}
    {y : Traced ω ε β} {f : α → Traced ω ε γ} {g : β → Traced ω ε δ}
    (first : Agree middle x y) (second : ∀ a b, middle a b → Agree related (f a) (g b)) :
    Agree related (x >>= f) (y >>= g) := by
  rcases x with ⟨e | a, before⟩ <;> rcases y with ⟨e' | b, before'⟩
  · rcases first with ⟨_, left, right⟩ | ⟨_, _, impossible, _⟩
    · cases left
      cases right
      exact .inl ⟨_, rfl, rfl⟩
    · cases impossible
  · rcases first with ⟨_, _, impossible⟩ | ⟨_, _, impossible, _⟩ <;> cases impossible
  · rcases first with ⟨_, impossible, _⟩ | ⟨_, _, _, impossible, _⟩ <;> cases impossible
  · rcases first with ⟨_, impossible, _⟩ | ⟨_, _, left, right, holds⟩
    · cases impossible
    · cases left
      cases right
      exact second a b holds

end Agree

end UltraLocked.Library.Traced
