import Mathlib.Logic.Basic

/-!
# Validators that return at their first failed check

A validator runs its checks in order and returns the code of the first one
that refuses. The rules below say when a sequence and a loop of checks pass.
-/

namespace UltraLocked.Library

variable {ε α β : Type}

/-- `if (condition) return code;` -/
def refuseIf (condition : Prop) [Decidable condition] (code : ε) : Except ε Unit :=
  if condition then .error code else .ok ()

section

variable {condition : Prop} [Decidable condition] {code : ε}

theorem refuseIf_pos (refuses : condition) : refuseIf condition code = .error code :=
  if_pos refuses

theorem refuseIf_neg (passes : ¬ condition) : refuseIf condition code = .ok () :=
  if_neg passes

@[simp] theorem refuseIf_eq_ok_iff : refuseIf condition code = .ok () ↔ ¬ condition := by
  constructor
  · intro passed refuses
    rw [refuseIf_pos refuses] at passed
    cases passed
  · exact refuseIf_neg

end

/-- What follows a check is reached exactly when the check passes. -/
theorem checks_eq_ok_iff {x : Except ε Unit} {f : Unit → Except ε β} {b : β} :
    (x >>= f) = .ok b ↔ x = .ok () ∧ f () = .ok b := by
  cases x with
  | error code => exact ⟨fun h => (nomatch h), fun ⟨h, _⟩ => (nomatch h)⟩
  | ok passed => exact ⟨fun h => ⟨rfl, h⟩, fun ⟨_, h⟩ => h⟩

/-- What follows a function is reached exactly with a value that it returns. -/
theorem bind_eq_ok_iff {x : Except ε α} {f : α → Except ε β} {b : β} :
    (x >>= f) = .ok b ↔ ∃ a, x = .ok a ∧ f a = .ok b := by
  cases x with
  | error code => exact ⟨fun h => (nomatch h), fun ⟨_, h, _⟩ => (nomatch h)⟩
  | ok value =>
      constructor
      · exact fun h => ⟨value, rfl, h⟩
      · rintro ⟨a, same, h⟩
        cases same
        exact h

/-- A check that passes is left behind. -/
theorem checks_of_ok {x : Except ε Unit} (passed : x = .ok ()) (f : Unit → Except ε β) :
    (x >>= f) = f () := by
  rw [passed]
  rfl

/-- A check that refuses ends the validator. -/
theorem checks_of_error {x : Except ε Unit} {code : ε} (refused : x = .error code)
    (f : Unit → Except ε β) : (x >>= f) = .error code := by
  rw [refused]
  rfl

/-- A loop of checks passes when each of its turns does. -/
theorem forM_eq_ok {turns : List α} {turn : α → Except ε PUnit}
    (passes : ∀ i ∈ turns, turn i = .ok ⟨⟩) : turns.forM turn = .ok ⟨⟩ := by
  induction turns with
  | nil => rfl
  | cons first rest ih =>
      have now := passes first List.mem_cons_self
      have later := ih fun i member => passes i (List.mem_cons_of_mem first member)
      rw [List.forM_eq_forM] at later ⊢
      rw [List.forM_cons, now]
      exact later

/-- It passes only if each of its turns does. -/
theorem forM_eq_ok_iff {turns : List α} {turn : α → Except ε Unit} :
    turns.forM turn = .ok () ↔ ∀ i ∈ turns, turn i = .ok () := by
  refine ⟨fun passed => ?_, forM_eq_ok⟩
  induction turns with
  | nil => exact fun _ never => nomatch never
  | cons first rest ih =>
      rw [List.forM_eq_forM, List.forM_cons] at passed
      obtain ⟨now, later⟩ := checks_eq_ok_iff.mp passed
      intro i member
      rcases List.mem_cons.mp member with rfl | behind
      · exact now
      · exact ih later i behind

/-- A function that refuses with one code, if it does. -/
def RefusesWith (code : ε) (x : Except ε α) : Prop := ∀ e, x = .error e → e = code

/-- Every other result comes from a value that it returned. -/
theorem RefusesWith.bind_eq_iff {code : ε} {x : Except ε α} (refuses : RefusesWith code x)
    {f : α → Except ε β} {result : Except ε β} (other : result ≠ .error code) :
    (x >>= f) = result ↔ ∃ a, x = .ok a ∧ f a = result := by
  cases x with
  | error e =>
      refine iff_of_false ?_ fun ⟨_, never, _⟩ => (nomatch never)
      rintro rfl
      cases refuses e rfl
      exact other rfl
  | ok value =>
      constructor
      · exact fun h => ⟨value, rfl, h⟩
      · rintro ⟨a, same, h⟩
        cases same
        exact h

theorem refusesWith_refuseIf (condition : Prop) [Decidable condition] (code : ε) :
    RefusesWith code (refuseIf condition code) := by
  intro e refused
  by_cases refuses : condition
  · rw [refuseIf_pos refuses] at refused
    cases refused
    rfl
  · rw [refuseIf_neg refuses] at refused
    cases refused

/-- The rule of sequence. -/
theorem RefusesWith.seq {code : ε} {x : Except ε Unit} {f : Unit → Except ε Unit}
    (first : RefusesWith code x) (second : RefusesWith code (f ())) :
    RefusesWith code (x >>= f) := by
  intro e refused
  cases x with
  | error e' =>
      cases refused
      exact first e rfl
  | ok => exact second e refused

/-- The rule of loops. -/
theorem RefusesWith.loop {code : ε} {turns : List α} {turn : α → Except ε Unit}
    (each : ∀ i, RefusesWith code (turn i)) : RefusesWith code (turns.forM turn) := by
  induction turns with
  | nil => exact fun _ never => nomatch never
  | cons first rest ih =>
      rw [List.forM_eq_forM, List.forM_cons]
      exact (each first).seq ih

end UltraLocked.Library
