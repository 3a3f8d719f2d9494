import Mathlib.Logic.Basic

/-!
# Fallible computations that emit events

`Traced ω ε α` is a computation which ends in a value or an error and which
lists, in order, the events it emitted on the way; an error keeps the events
emitted before it. `Proc σ ω ε α` is such a computation over a mutable state,
and an error keeps the state as it was when the error was raised. Neither
type says what the events, the errors or the states are.
-/

namespace UltraLocked.Library

/-- A result together with the events emitted on the way to it. -/
structure Traced (ω ε α : Type) where
  outcome : Except ε α
  events : List ω

namespace Traced

variable {ω ε α β : Type}

/-- Run the continuation after a value; stop at an error. -/
protected def bind (x : Traced ω ε α) (f : α → Traced ω ε β) : Traced ω ε β :=
  match x with
  | ⟨.ok a, events⟩ => ⟨(f a).outcome, events ++ (f a).events⟩
  | ⟨.error e, events⟩ => ⟨.error e, events⟩

instance : Monad (Traced ω ε) where
  pure a := ⟨.ok a, []⟩
  bind := Traced.bind

/-- A computation that emits nothing. -/
def ofExcept (x : Except ε α) : Traced ω ε α := ⟨x, []⟩

instance : MonadLift (Except ε) (Traced ω ε) := ⟨ofExcept⟩

/-- Emit one event. -/
def emit (event : ω) : Traced ω ε Unit := ⟨.ok (), [event]⟩

@[simp] theorem pure_def (a : α) : (pure a : Traced ω ε α) = ⟨.ok a, []⟩ := rfl

@[simp] theorem liftM_def (x : Except ε α) :
    (liftM x : Traced ω ε α) = ⟨x, []⟩ := rfl

@[simp] theorem bind_ok (a : α) (events : List ω) (f : α → Traced ω ε β) :
    ((⟨.ok a, events⟩ : Traced ω ε α) >>= f) =
      ⟨(f a).outcome, events ++ (f a).events⟩ := rfl

@[simp] theorem bind_error (e : ε) (events : List ω) (f : α → Traced ω ε β) :
    ((⟨.error e, events⟩ : Traced ω ε α) >>= f) = ⟨.error e, events⟩ := rfl

/-- A value got without an event is passed on. -/
theorem bind_silent (a : α) (f : α → Traced ω ε β) :
    ((⟨.ok a, []⟩ : Traced ω ε α) >>= f) = f a := rfl

@[ext] theorem ext {x y : Traced ω ε α} (outcome : x.outcome = y.outcome)
    (events : x.events = y.events) : x = y := by
  cases x; cases y; cases outcome; cases events; rfl

theorem eq_of_outcome {x : Traced ω ε α} {outcome : Except ε α}
    (ends : x.outcome = outcome) : x = ⟨outcome, x.events⟩ :=
  ext ends rfl

/-- A sequence returns exactly when both parts return. -/
theorem bind_returns_iff {x : Traced ω ε α} {f : α → Traced ω ε β}
    {b : β} {events : List ω} :
    (x >>= f) = ⟨.ok b, events⟩ ↔
      ∃ a before after, x = ⟨.ok a, before⟩ ∧ f a = ⟨.ok b, after⟩ ∧
        events = before ++ after := by
  rcases x with ⟨_ | a, before⟩
  · constructor
    · intro impossible; cases impossible
    · rintro ⟨a, before, after, impossible, _⟩; cases impossible
  · constructor
    · intro returned
      rw [bind_ok, mk.injEq] at returned
      exact ⟨a, before, (f a).events, rfl, ext returned.1 rfl, returned.2.symm⟩
    · rintro ⟨a, before, after, same, next, rfl⟩
      cases same
      rw [bind_ok, next]

/-- The same after a computation that emits nothing. -/
theorem bind_lift_returns_iff {x : Except ε α} {f : α → Traced ω ε β}
    {b : β} {events : List ω} :
    ((⟨x, []⟩ : Traced ω ε α) >>= f) = ⟨.ok b, events⟩ ↔
      ∃ a, x = .ok a ∧ f a = ⟨.ok b, events⟩ := by
  rcases x with _ | a
  · constructor
    · intro impossible; cases impossible
    · rintro ⟨a, impossible, _⟩; cases impossible
  · constructor
    · intro returned; exact ⟨a, rfl, returned⟩
    · rintro ⟨a, same, returned⟩; cases same; exact returned

/-- A silent sequence is a sequence of silent computations. -/
theorem lift_bind (x : Except ε α) (f : α → Except ε β) :
    (⟨x >>= f, []⟩ : Traced ω ε β) =
      (⟨x, []⟩ : Traced ω ε α) >>= fun a => ⟨f a, []⟩ := by
  cases x <;> rfl

/-- The same for the outcome alone. -/
theorem bind_outcome_ok_iff {x : Traced ω ε α} {f : α → Traced ω ε β} {b : β} :
    (x >>= f).outcome = .ok b ↔
      ∃ a, x.outcome = .ok a ∧ (f a).outcome = .ok b := by
  rcases x with ⟨_ | a, before⟩ <;> simp

/-- Outcomes sequence as fallible values do. -/
theorem outcome_bind (x : Traced ω ε α) (f : α → Traced ω ε β) :
    (x >>= f).outcome = x.outcome >>= fun a => (f a).outcome := by
  rcases x with ⟨_ | a, before⟩ <;> rfl

/-- A continuation that emits nothing leaves the events as they are. -/
theorem events_bind_quiet {x : Traced ω ε α} {f : α → Traced ω ε β}
    (quiet : ∀ a, (f a).events = []) : (x >>= f).events = x.events := by
  rcases x with ⟨_ | a, before⟩
  · rfl
  · rw [bind_ok, quiet a, List.append_nil]

/-- An event of a sequence is an event of one of its parts. -/
theorem mem_events_bind {x : Traced ω ε α} {f : α → Traced ω ε β} {event : ω}
    (member : event ∈ (x >>= f).events) :
    event ∈ x.events ∨ ∃ a, x.outcome = .ok a ∧ event ∈ (f a).events := by
  rcases x with ⟨_ | a, before⟩
  · exact .inl member
  · rcases List.mem_append.mp member with early | late
    · exact .inl early
    · exact .inr ⟨a, rfl, late⟩

/-! ## What holds of every event and of either end -/

/--
Every event satisfies `event`, a returned value satisfies `post`, and an error
satisfies `fail`.
-/
structure Sat (x : Traced ω ε α) (event : ω → Prop) (post : α → Prop)
    (fail : ε → Prop) : Prop where
  emitted : ∀ e ∈ x.events, event e
  returned : ∀ a, x.outcome = .ok a → post a
  failed : ∀ e, x.outcome = .error e → fail e

namespace Sat

variable {event : ω → Prop} {post : α → Prop} {next : β → Prop} {fail : ε → Prop}

theorem of_pure {a : α} (holds : post a) :
    Sat (pure a : Traced ω ε α) event post fail :=
  ⟨by simp, by rintro _ ⟨⟩; exact holds, by rintro _ ⟨⟩⟩

theorem of_except {x : Except ε α} (returned : ∀ a, x = .ok a → post a)
    (failed : ∀ e, x = .error e → fail e) :
    Sat (⟨x, []⟩ : Traced ω ε α) event post fail :=
  ⟨by simp, returned, failed⟩

theorem of_emit {e : ω} (holds : event e) :
    Sat (emit e : Traced ω ε Unit) event (fun _ => True) fail :=
  ⟨by simpa [emit] using holds, fun _ _ => trivial, by rintro _ ⟨⟩⟩

/-- The rule of sequence, through the condition `middle`. -/
theorem bind (middle : α → Prop) {x : Traced ω ε α} {f : α → Traced ω ε β}
    (first : Sat x event middle fail)
    (second : ∀ a, middle a → Sat (f a) event next fail) :
    Sat (x >>= f) event next fail := by
  rcases x with ⟨e | a, events⟩
  · exact ⟨first.emitted, by rintro _ ⟨⟩, by rintro _ ⟨⟩; exact first.failed e rfl⟩
  · have rest := second a (first.returned a rfl)
    refine ⟨?_, rest.returned, rest.failed⟩
    intro e member
    rcases List.mem_append.mp member with old | new
    · exact first.emitted e old
    · exact rest.emitted e new

end Sat

end Traced

/-- A computation over a mutable state; errors keep the state. -/
def Proc (σ ω ε α : Type) : Type := σ → Traced ω ε α × σ

namespace Proc

variable {σ ω ε α β : Type}

/-- Thread the state; stop at an error with the state reached. -/
protected def bind (x : Proc σ ω ε α) (f : α → Proc σ ω ε β) : Proc σ ω ε β :=
  fun s =>
    match x s with
    | (⟨.ok a, events⟩, s') =>
        (⟨(f a s').1.outcome, events ++ (f a s').1.events⟩, (f a s').2)
    | (⟨.error e, events⟩, s') => (⟨.error e, events⟩, s')

instance : Monad (Proc σ ω ε) where
  pure a := fun s => (⟨.ok a, []⟩, s)
  bind := Proc.bind

/-- A computation that does not touch the state. -/
def ofTraced (x : Traced ω ε α) : Proc σ ω ε α := fun s => (x, s)

instance : MonadLift (Traced ω ε) (Proc σ ω ε) := ⟨ofTraced⟩

instance : MonadLift (Except ε) (Proc σ ω ε) := ⟨fun x => ofTraced (.ofExcept x)⟩

/-- Read the state. -/
def read : Proc σ ω ε σ := fun s => (⟨.ok s, []⟩, s)

/-- Assign the state. -/
def write (s : σ) : Proc σ ω ε Unit := fun _ => (⟨.ok (), []⟩, s)

@[simp] theorem read_run (s : σ) :
    (read : Proc σ ω ε σ) s = (⟨.ok s, []⟩, s) := rfl

@[simp] theorem write_run (s t : σ) :
    (write t : Proc σ ω ε Unit) s = (⟨.ok (), []⟩, t) := rfl

@[simp] theorem lift_traced_run (x : Traced ω ε α) (s : σ) :
    (liftM x : Proc σ ω ε α) s = (x, s) := rfl

theorem bind_run_ok {x : Proc σ ω ε α} {f : α → Proc σ ω ε β} {s s' : σ}
    {a : α} {events : List ω} (first : x s = (⟨.ok a, events⟩, s')) :
    (x >>= f) s =
      (⟨(f a s').1.outcome, events ++ (f a s').1.events⟩, (f a s').2) := by
  change Proc.bind x f s = _
  rw [Proc.bind, first]

theorem bind_run_error {x : Proc σ ω ε α} {f : α → Proc σ ω ε β} {s s' : σ}
    {e : ε} {events : List ω} (first : x s = (⟨.error e, events⟩, s')) :
    (x >>= f) s = (⟨.error e, events⟩, s') := by
  change Proc.bind x f s = _
  rw [Proc.bind, first]

/-- After a value the continuation decides the result. -/
theorem bind_run {x : Proc σ ω ε α} {f : α → Proc σ ω ε β} {s s' s'' : σ} {a : α}
    {outcome : Except ε β} {before after : List ω}
    (first : x s = (⟨.ok a, before⟩, s'))
    (second : f a s' = (⟨outcome, after⟩, s'')) :
    (x >>= f) s = (⟨outcome, before ++ after⟩, s'') := by
  rw [bind_run_ok first, second]

/-- A sequence returns exactly when both parts return. -/
theorem bind_returns_iff {x : Proc σ ω ε α} {f : α → Proc σ ω ε β} {s s'' : σ}
    {b : β} {events : List ω} :
    (x >>= f) s = (⟨.ok b, events⟩, s'') ↔
      ∃ a before after s', x s = (⟨.ok a, before⟩, s') ∧
        f a s' = (⟨.ok b, after⟩, s'') ∧ events = before ++ after := by
  rcases first : x s with ⟨⟨e | a, before⟩, s'⟩
  · rw [bind_run_error first]
    constructor
    · intro impossible; cases impossible
    · rintro ⟨a, before, after, s', impossible, _⟩; cases impossible
  · rw [bind_run_ok first]
    constructor
    · intro returned
      rw [Prod.mk.injEq, Traced.mk.injEq] at returned
      obtain ⟨⟨outcome, same⟩, state⟩ := returned
      exact ⟨a, before, (f a s').1.events, s', rfl,
        Prod.ext (Traced.ext outcome rfl) state, same.symm⟩
    · rintro ⟨a, before, after, s', same, next, rfl⟩
      cases same
      rw [next]

end Proc

end UltraLocked.Library
