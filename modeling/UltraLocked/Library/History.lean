import Mathlib.Logic.Basic

/-!
# Histories of an object

An object in state `σ` answers each call `ι` with an output `ο` and a next
state. Outputs that are not `live` end the process, so a history is extended
only through live ones.
-/

namespace UltraLocked.Library

variable {σ τ ι ο : Type}

/-- The calls made so far with their outputs, and the state they lead to. -/
inductive History (step : σ → ι → ο × σ) (live : ο → Prop) (start : σ) :
    List (ι × ο) → σ → Prop where
  | opened : History step live start [] start
  | called {past : List (ι × ο)} {s s' : σ} {i : ι} {o : ο}
      (before : History step live start past s) (moved : step s i = (o, s'))
      (lives : live o) : History step live start (past ++ [(i, o)]) s'

namespace History

variable {step : σ → ι → ο × σ} {live : ο → Prop} {start : σ}

/-- What the first state has and every live step keeps holds in every state. -/
theorem invariant {Inv : σ → Prop} (initial : Inv start)
    (preserved : ∀ s i o s', Inv s → step s i = (o, s') → live o → Inv s')
    {past : List (ι × ο)} {s : σ} (history : History step live start past s) :
    Inv s := by
  induction history with
  | opened => exact initial
  | called _ moved lives ih => exact preserved _ _ _ _ ih moved lives

/--
A quantity computed from the calls and outputs alone follows the state, when
each live step keeps the correspondence `follows`.
-/
theorem follows {follows : τ → σ → Prop} {update : τ → ι × ο → τ} {first : τ}
    (initial : follows first start)
    (preserved : ∀ t s i o s', follows t s → step s i = (o, s') → live o →
      follows (update t (i, o)) s')
    {past : List (ι × ο)} {s : σ} (history : History step live start past s) :
    follows (past.foldl update first) s := by
  induction history with
  | opened => exact initial
  | called _ moved lives ih =>
      rw [List.foldl_append]
      exact preserved _ _ _ _ _ ih moved lives

/-- An object that answers every call like the first one has its histories. -/
theorem simulated {step' : τ → ι → ο × τ} {start' : τ} {stands : σ → τ → Prop}
    (initial : stands start start')
    (answers : ∀ s t i, stands s t → (step' t i).1 = (step s i).1 ∧
      stands (step s i).2 (step' t i).2)
    {past : List (ι × ο)} {s : σ} (history : History step live start past s) :
    ∃ t, History step' live start' past t ∧ stands s t := by
  induction history with
  | opened => exact ⟨start', opened, initial⟩
  | @called past s s' i o before moved lives ih =>
      obtain ⟨t, answered, holds⟩ := ih
      obtain ⟨same, next⟩ := answers s t i holds
      rw [moved] at same next
      exact ⟨(step' t i).2, answered.called (Prod.ext same rfl) lives, next⟩

end History

end UltraLocked.Library
