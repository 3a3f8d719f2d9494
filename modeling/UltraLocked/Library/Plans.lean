import UltraLocked.Library.Effects

/-!
# Computations that follow a plan

`Follows mark x plan`: the marked events of a computation come in the order of
a plan. A computation that fails on the way has followed the start of its plan,
one that returns has followed all of it.
-/

namespace UltraLocked.Library.Traced

variable {ω ε α β μ : Type}

/-- The marked events are the start of the plan, and all of it once a value is returned. -/
structure Follows (mark : ω → Option μ) (x : Traced ω ε α) (plan : List μ) : Prop where
  start : x.events.filterMap mark <+: plan
  whole : ∀ a, x.outcome = .ok a → x.events.filterMap mark = plan

namespace Follows

variable {mark : ω → Option μ} {plan : List μ}

theorem of_silent (x : Except ε α) : Follows mark (⟨x, []⟩ : Traced ω ε α) [] :=
  ⟨List.prefix_rfl, fun _ _ => rfl⟩

theorem of_error (e : ε) (plan : List μ) : Follows mark (⟨.error e, []⟩ : Traced ω ε α) plan :=
  ⟨List.nil_prefix, by rintro a ⟨⟩⟩

/-- One marked event follows the plan of its mark, whatever comes of it. -/
theorem of_event {x : Except ε α} {event : ω} {m : μ} (marked : mark event = some m) :
    Follows mark (⟨x, [event]⟩ : Traced ω ε α) [m] := by
  have one : [event].filterMap mark = [m] := List.filterMap_cons_some marked
  exact ⟨one ▸ List.prefix_rfl, fun _ _ => one⟩

theorem bind {x : Traced ω ε α} {f : α → Traced ω ε β} {first second : List μ}
    (now : Follows mark x first) (later : ∀ a, Follows mark (f a) second) :
    Follows mark (x >>= f) (first ++ second) := by
  rcases x with ⟨e | a, events⟩
  · exact ⟨now.start.trans (List.prefix_append _ _), by rintro b ⟨⟩⟩
  · have done := now.whole a rfl
    have rest := later a
    refine ⟨?_, ?_⟩
    · rw [bind_ok, List.filterMap_append, done]
      exact (List.prefix_append_right_inj first).mpr rest.start
    · intro b returned
      rw [bind_ok, List.filterMap_append, done, rest.whole b returned]

theorem after_silent {x : Except ε α} {f : α → Traced ω ε β}
    (later : ∀ a, x = .ok a → Follows mark (f a) plan) :
    Follows mark ((⟨x, []⟩ : Traced ω ε α) >>= f) plan := by
  cases x with
  | error e => exact .of_error e plan
  | ok a => exact later a rfl

/-- So does an event without a mark. -/
theorem after_unmarked {a : α} {event : ω} {f : α → Traced ω ε β} (unmarked : mark event = none)
    (later : Follows mark (f a) plan) :
    Follows mark ((⟨.ok a, [event]⟩ : Traced ω ε α) >>= f) plan := by
  have nothing : [event].filterMap mark = [] := List.filterMap_cons_none unmarked
  refine ⟨?_, fun b returned => ?_⟩
  · rw [bind_ok, List.filterMap_append, nothing]
    exact later.start
  · rw [bind_ok, List.filterMap_append, nothing]
    exact later.whole b returned

/-- So does a check behind a computation. -/
theorem then_silent {x : Traced ω ε α} {f : α → Traced ω ε β} (now : Follows mark x plan)
    (quiet : ∀ a, (f a).events = []) : Follows mark (x >>= f) plan := by
  have later (a : α) : Follows mark (f a) [] := by
    rw [eq_of_outcome (rfl : (f a).outcome = _), quiet a]
    exact .of_silent _
  have both := now.bind later
  rwa [List.append_nil] at both

end Follows

end UltraLocked.Library.Traced
