import Mathlib.Algebra.Order.BigOperators.Group.Finset
import UltraLocked.CArgon2.ThreadsSafety

/-!
# Every threaded run ends

Each step leads the main thread or another one further, and there is only so
far to go. While the main thread has not returned, somebody can take a step:
who is waited for is not waiting.
-/

namespace UltraLocked.CArgon2

open Library

/-! ## How far a state is -/

section Rank

variable (inst : Instance)

/-- More than the main thread does in a slice. -/
def sliceWidth : Nat := 4 * inst.lanes.toNat + 4

/-- How far the main thread is. -/
def Control.rank : Control → Nat
  | .lane r s l => (4 * r + s) * sliceWidth inst + 2 * l
  | .create r s l => (4 * r + s) * sliceWidth inst + (2 * l + 1)
  | .drain r s l ll => (4 * r + s) * sliceWidth inst + (2 * l + 2 + ll)
  | .join r s l => (4 * r + s) * sliceWidth inst + (3 * inst.lanes.toNat + 2 + l)
  | .returned _ => 4 * inst.passes.toNat * sliceWidth inst
  | .undefined => 4 * inst.passes.toNat * sliceWidth inst + 1

/-- How far a stage is in its segment. -/
def Stage.rank : Stage → Nat
  | .head cursor => 5 * cursor.i.toNat
  | .readRef cursor _ => 5 * cursor.i.toNat + 1
  | .readPrev cursor _ _ => 5 * cursor.i.toNat + 2
  | .readNext cursor _ _ _ => 5 * cursor.i.toNat + 3
  | .write cursor _ _ => 5 * cursor.i.toNat + 4

/-- How far a thread is. -/
def Thread.rank : Thread → Nat
  | .absent => 0
  | .created => 1
  | .running _ stage => 2 + stage.rank
  | .exited => 3 + 5 * inst.segmentLength.toNat

/-- How far all threads of a slice can be together. -/
def threadsWidth : Nat := inst.lanes.toNat * (3 + 5 * inst.segmentLength.toNat)

/-- How far a run is: a step of the main thread outweighs the others. -/
def Mt.rank (state : Mt) : Nat :=
  state.control.rank inst * (threadsWidth inst + 1) +
    ∑ l ∈ Finset.range inst.lanes.toNat, (state.thread l).rank inst

/-- The number of steps that no run exceeds. -/
def stepBound : Nat :=
  (4 * inst.passes.toNat * sliceWidth inst + 1) * (threadsWidth inst + 1) + threadsWidth inst

end Rank

section Progress

variable {machine : Machine} {inst : Instance} {geometry : Geometry}
  {first : Nat → Nat → Block} {state next : Mt}

/-! ## The main thread -/

theorem Mt.join_control {code : Int32} {l : Nat} {joined failed : Control}
    (steps : state.join code l joined failed = some next) :
    next.control = .undefined ∨ next.control = failed ∨ next.control = joined := by
  rcases Mt.join_cases steps with ⟨-, rfl⟩ | ⟨-, rfl⟩ | ⟨-, -, rfl⟩
  · exact .inl rfl
  · exact .inr (.inl rfl)
  · exact .inr (.inr rfl)

theorem rank_within {r s : Nat} (four : s < 4) (more : r < inst.passes.toNat) :
    (4 * r + s) * sliceWidth inst + sliceWidth inst ≤
      4 * inst.passes.toNat * sliceWidth inst := by
  rw [← Nat.succ_mul]
  exact Nat.mul_le_mul_right _ (by omega)

theorem Control.rank_sliceBegins {r s : Nat}
    (passes : r < inst.passes.toNat ∨ (r = inst.passes.toNat ∧ s = 0)) :
    (sliceBegins inst r s).rank inst = (4 * r + s) * sliceWidth inst := by
  rw [sliceBegins]
  split
  · rfl
  · obtain ⟨rfl, rfl⟩ := passes.resolve_left ‹_›
    rfl

/-- Every step of the main thread leads it further, and never beyond the end. -/
theorem Mt.Invariant.rank_mainStep (laid : inst.Laid geometry)
    (holds : state.Invariant machine inst geometry first)
    (steps : state.mainStep machine inst = some next) :
    state.control.rank inst < next.control.rank inst := by
  obtain ⟨r, s, created, low, written, sound, fits⟩ := holds
  have known := sound.known
  have lanes := laid.lanes
  have wide : sliceWidth inst = 4 * inst.lanes.toNat + 4 := rfl
  rw [Mt.mainStep] at steps
  cases control : state.control with
  | lane r' s' l =>
      obtain ⟨⟨rfl, rfl, rfl⟩, more, -⟩ := control ▸ fits
      have room := rank_within sound.slice_lt more
      simp only [control] at steps
      split at steps
      · split at steps
        · rcases Mt.join_control steps with goes | goes | goes <;> rw [goes] <;>
            simp only [Control.rank] <;> omega
        · cases steps
          simp only [Control.rank]
          omega
      · cases steps
        simp only [Control.rank]
        omega
  | create r' s' l =>
      simp only [control] at steps
      split at steps <;> cases steps <;> simp only [Control.rank] <;> omega
  | drain r' s' l ll =>
      obtain ⟨⟨rfl, rfl, rfl⟩, more, inside, within, -⟩ := control ▸ fits
      have room := rank_within sound.slice_lt more
      simp only [control] at steps
      split at steps
      · rcases Mt.join_control steps with goes | goes | goes <;> rw [goes] <;>
          simp only [Control.rank] <;> omega
      · cases steps
        simp only [Control.rank]
        omega
  | join r' s' l =>
      obtain ⟨⟨rfl, rfl, rfl⟩, more, all, within, -⟩ := control ▸ fits
      have room := rank_within sound.slice_lt more
      simp only [control] at steps
      split at steps
      · rcases Mt.join_control steps with goes | goes | goes <;> rw [goes] <;>
          simp only [Control.rank] <;> omega
      · cases steps
        obtain ⟨r', s', after, -, number, passes⟩ := sliceAfter_eq r s sound.slice_lt more
        change _ < (sliceAfter inst r s).rank inst
        rw [after, Control.rank_sliceBegins passes, number, Nat.succ_mul]
        simp only [Control.rank]
        omega
  | returned => simp only [control] at steps; cases steps
  | undefined => simp only [control] at steps; cases steps

/-! ## The other threads -/

theorem Stage.rank_step {position : Position} {stage next : Stage} {memory memory' : Memory}
    (small : stage.rank + 5 < 5 * 2 ^ 32)
    (step : stage.step inst position memory = some (some next, memory')) :
    next.rank = stage.rank + 1 := by
  cases stage with
  | head cursor =>
      rw [Stage.step] at step
      split at step
      · obtain ⟨rand, -, rest⟩ := Option.bind_eq_some_iff.mp step
        cases rest
        rfl
      · cases step
  | readRef cursor access =>
      obtain ⟨block, -, rest⟩ := Option.bind_eq_some_iff.mp step
      cases rest
      rfl
  | readPrev cursor access refBlock =>
      obtain ⟨block, -, rest⟩ := Option.bind_eq_some_iff.mp step
      cases rest
      rfl
  | readNext cursor access refBlock prevBlock =>
      rw [Stage.step] at step
      split at step
      · obtain ⟨block, -, rest⟩ := Option.bind_eq_some_iff.mp step
        cases rest
        rfl
      · cases step
        rfl
  | write cursor access block =>
      obtain ⟨written, -, rest⟩ := Option.bind_eq_some_iff.mp step
      cases rest
      have one : UInt32.toNat 1 = 1 := rfl
      have next : (cursor.next inst position).i.toNat = cursor.i.toNat + 1 := by
        change ((cursor.prepare inst position).i + 1).toNat = _
        simp only [Stage.rank] at small
        rw [Cursor.prepare_i, add_toNat (by rw [one]; omega), one]
      simp only [Stage.rank, next]
      omega

theorem Stage.Sound.rank_le {place : Place geometry} {stage : Stage}
    (sound : stage.Sound inst first place) (within : place.i ≤ geometry.segment) :
    stage.rank ≤ 5 * geometry.segment ∧ (place.i = geometry.segment → stage.rank = 5 * place.i) := by
  cases stage with
  | head cursor =>
      have here : cursor.At inst place := sound
      have rank : (Stage.head cursor).rank = 5 * place.i := by rw [Stage.rank, here.i]
      exact ⟨by omega, fun _ => rank⟩
  | _ =>
      obtain ⟨inside, here, -⟩ := sound
      simp only [Stage.rank, here.i]
      omega

section Sound

variable (laid : inst.Laid geometry) {r s created low : Nat} {written : Nat → Nat}
  (sound : state.Sound inst geometry first r s created low written)

include laid sound

theorem Mt.Sound.rank_le (l : Nat) :
    (state.thread l).rank inst ≤ 3 + 5 * inst.segmentLength.toNat := by
  have length := laid.segmentLength
  cases shown : state.thread l with
  | running position stage =>
      have thread := sound.threads l (by rw [shown]; rfl)
      rw [shown] at thread
      cases thread with
      | running _ _ _ within _ _ stands =>
          have most := (stands.rank_le within).1
          simp only [Thread.rank]
          omega
  | absent => exact Nat.zero_le _
  | created =>
      simp only [Thread.rank]
      omega
  | exited => exact Nat.le_refl _

theorem Mt.Sound.rank_threadStep {l : Nat} (steps : state.threadStep inst l = some next) :
    (state.thread l).rank inst < (next.thread l).rank inst ∧
      ∀ other, other ≠ l → next.thread other = state.thread other := by
  have length := laid.segmentLength
  have short := geometry.segment_lt
  have there := Mt.present_of_threadStep steps
  have thread := sound.threads l there
  have known := Nat.lt_of_lt_of_le (sound.window l there).2 sound.known
  rw [Mt.threadStep] at steps
  generalize state.thread l = now at thread steps
  cases thread with
  | created own opens =>
      cases steps
      refine ⟨?_, fun other differ => Function.update_of_ne differ _ _⟩
      simp only [Function.update_self, Thread.rank]
      omega
  | @running place stage pass slice lane within third own stands =>
      subst pass slice lane
      obtain ⟨most, end_⟩ := stands.rank_le within
      rcases Stage.step_cases laid within third sound.memory own stands with
        ⟨last, step⟩ | ⟨stage', -, step⟩ | ⟨stage', -, -, step⟩
      · simp only [step] at steps
        cases steps
        refine ⟨?_, fun other differ => Function.update_of_ne differ _ _⟩
        simp only [Function.update_self, Thread.rank]
        omega
      all_goals
        have further := Stage.rank_step (by omega) step
        simp only [step] at steps
        cases steps
        refine ⟨?_, fun other differ => Function.update_of_ne differ _ _⟩
        simp only [Function.update_self, Thread.rank]
        omega
  | exited done => cases steps

theorem Mt.Sound.sum_rank_le :
    ∑ l ∈ Finset.range inst.lanes.toNat, (state.thread l).rank inst ≤ threadsWidth inst := by
  refine (Finset.sum_le_card_nsmul _ _ _ fun l _ => sound.rank_le laid l).trans ?_
  rw [Finset.card_range]
  exact Nat.le_refl _

end Sound

/-! ## The whole run -/

theorem Mt.Invariant.control_rank_le (laid : inst.Laid geometry)
    (holds : state.Invariant machine inst geometry first) :
    state.control.rank inst ≤ 4 * inst.passes.toNat * sliceWidth inst + 1 := by
  obtain ⟨r, s, created, low, written, sound, fits⟩ := holds
  have known := sound.known
  have lanes := laid.lanes
  have wide : sliceWidth inst = 4 * inst.lanes.toNat + 4 := rfl
  cases control : state.control with
  | returned => exact Nat.le_succ _
  | undefined => exact Nat.le_refl _
  | drain r' s' l ll =>
      obtain ⟨⟨rfl, rfl, rfl⟩, more, inside, within, -⟩ := control ▸ fits
      have room := rank_within sound.slice_lt more
      simp only [Control.rank]
      omega
  | join r' s' l =>
      obtain ⟨⟨rfl, rfl, rfl⟩, more, all, within, -⟩ := control ▸ fits
      have room := rank_within sound.slice_lt more
      simp only [Control.rank]
      omega
  | _ =>
      obtain ⟨⟨rfl, rfl, rfl⟩, more, -⟩ := control ▸ fits
      have room := rank_within sound.slice_lt more
      simp only [Control.rank]
      omega

theorem Mt.Invariant.rank_le (laid : inst.Laid geometry)
    (holds : state.Invariant machine inst geometry first) : state.rank inst ≤ stepBound inst := by
  have control := holds.control_rank_le laid
  obtain ⟨r, s, created, low, written, sound, -⟩ := holds
  exact Nat.add_le_add (Nat.mul_le_mul_right _ control) (sound.sum_rank_le laid)

theorem Mt.rank_lt_of_control (short : ∑ l ∈ Finset.range inst.lanes.toNat,
      (state.thread l).rank inst ≤ threadsWidth inst)
    (further : state.control.rank inst < next.control.rank inst) :
    state.rank inst < next.rank inst := by
  have whole := Nat.mul_le_mul_right (threadsWidth inst + 1) further
  rw [Nat.succ_mul] at whole
  rw [Mt.rank, Mt.rank]
  omega

theorem Mt.Invariant.rank_lt (laid : inst.Laid geometry)
    (holds : state.Invariant machine inst geometry first)
    (steps : state.Steps machine inst next) : state.rank inst < next.rank inst := by
  obtain ⟨actor, steps⟩ := steps
  cases actor with
  | main =>
      have further := holds.rank_mainStep laid steps
      obtain ⟨r, s, created, low, written, sound, -⟩ := holds
      exact Mt.rank_lt_of_control (sound.sum_rank_le laid) further
  | lane l =>
      obtain ⟨r, s, created, low, written, sound, -⟩ := holds
      have threads {after : Mt} (moves : state.threadStep inst l = some after) :
          state.rank inst < after.rank inst := by
        obtain ⟨-, -, same, -⟩ := sound.threadStep laid moves
        obtain ⟨further, others⟩ := sound.rank_threadStep laid moves
        have known := Nat.lt_of_lt_of_le (sound.window l (Mt.present_of_threadStep moves)).2
          sound.known
        have sum : ∑ l ∈ Finset.range inst.lanes.toNat, (state.thread l).rank inst <
            ∑ l ∈ Finset.range inst.lanes.toNat, (after.thread l).rank inst := by
          refine Finset.sum_lt_sum (fun other _ => ?_)
            ⟨l, Finset.mem_range.mpr (laid.lanes ▸ known), further⟩
          by_cases moved : other = l
          · subst moved
            exact further.le
          · rw [others other moved]
        rw [Mt.rank, Mt.rank, same]
        exact Nat.add_lt_add_left sum _
      change state.laneStep inst l = some next at steps
      cases control : state.control with
      | undefined =>
          rw [Mt.laneStep, control] at steps
          cases steps
      | returned code =>
          rw [Mt.laneStep, control] at steps
          obtain ⟨after, -, rfl⟩ := Option.map_eq_some_iff.mp steps
          refine Mt.rank_lt_of_control (sound.sum_rank_le laid) ?_
          rw [control]
          exact Nat.lt_succ_self _
      | _ =>
          rw [Mt.laneStep, control] at steps
          exact threads steps

/-- A join waits only for a thread that can go on. -/
theorem Mt.join_waits (inst : Instance) {code : Int32} {l : Nat} {joined failed : Control}
    (waits : state.join code l joined failed = none) : (state.threadStep inst l).isSome := by
  rw [Mt.join] at waits
  rw [Mt.threadStep]
  cases shown : state.thread l with
  | absent =>
      simp only [shown] at waits
      cases waits
  | exited =>
      simp only [shown] at waits
      split at waits <;> cases waits
  | created => rfl
  | running position stage =>
      dsimp only
      split <;> rfl

/-- Until the main thread returns, somebody can take a step. -/
theorem Mt.exists_step (machine : Machine) (inst : Instance)
    (open_ : ∀ code, state.control ≠ .returned code)
    (defined : state.control ≠ .undefined) : ∃ next, state.Steps machine inst next := by
  by_contra stuck
  have main : state.mainStep machine inst = none :=
    Option.eq_none_iff_forall_ne_some.mpr fun next steps => stuck ⟨next, .main, steps⟩
  have lane (l : Nat) : state.threadStep inst l = none := by
    refine Option.eq_none_iff_forall_ne_some.mpr fun next steps => stuck ⟨next, .lane l, ?_⟩
    change state.laneStep inst l = some next
    rw [Mt.laneStep]
    split
    · exact absurd ‹_› defined
    · exact absurd ‹_› (open_ _)
    · exact steps
  have waits {code : Int32} {l : Nat} {joined failed : Control} :
      state.join code l joined failed ≠ none := by
    intro waiting
    have goes := Mt.join_waits inst waiting
    rw [lane l] at goes
    cases goes
  rw [Mt.mainStep] at main
  cases control : state.control with
  | returned code => exact open_ code control
  | undefined => exact defined control
  | lane r s l =>
      simp only [control] at main
      split at main
      · split at main
        · exact waits main
        · cases main
      · cases main
  | create r s l =>
      simp only [control] at main
      split at main <;> cases main
  | drain r s l ll =>
      simp only [control] at main
      split at main
      · exact waits main
      · cases main
  | join r s l =>
      simp only [control] at main
      split at main
      · exact waits main
      · cases main

/-- A run can always be brought to an end. -/
theorem Mt.exists_end (laid : inst.Laid geometry) (limited : inst.Limited) {memory : Memory}
    (filled : (inst.filling geometry first).Filled 0 memory) (machine : Machine) :
    ∃ state : Mt, state.Reachable machine inst memory ∧
      ((∃ code, state.control = .returned code) ∨ state.control = .undefined) := by
  have goes (left : Nat) : ∀ state : Mt, state.Reachable machine inst memory →
      stepBound inst - state.rank inst = left →
        ∃ state : Mt, state.Reachable machine inst memory ∧
          ((∃ code, state.control = .returned code) ∨ state.control = .undefined) := by
    -- induction on the steps that are left until the bound
    induction left using Nat.strong_induction_on with
    | _ left ih =>
        intro state reachable distance
        by_cases ended : (∃ code, state.control = .returned code) ∨ state.control = .undefined
        · exact ⟨state, reachable, ended⟩
        · obtain ⟨next, steps⟩ := Mt.exists_step machine inst
            (fun code returned => ended (.inl ⟨code, returned⟩))
            fun undefined => ended (.inr undefined)
          have reached := reachable.tail steps
          have further := (Mt.Reachable.invariant laid limited filled reachable).rank_lt laid steps
          have bound := (Mt.Reachable.invariant laid limited filled reached).rank_le laid
          exact ih _ (by omega) next reached rfl
  exact goes _ _ .refl rfl

/-- Where no thread fails, some order of steps returns successfully. -/
theorem Mt.exists_returned (laid : inst.Laid geometry) (limited : inst.Limited) {memory : Memory}
    (filled : (inst.filling geometry first).Filled 0 memory) (serves : machine.Serves inst) :
    ∃ state : Mt, state.Reachable machine inst memory ∧ state.control = .returned (.ok ()) := by
  obtain ⟨state, reachable, ⟨code, returned⟩ | undefined⟩ :=
    Mt.exists_end laid limited filled machine
  · obtain ⟨r, s, created, low, written, -, fits⟩ :=
      Mt.Reachable.invariant laid limited filled reachable
    rw [returned] at fits
    cases code with
    | ok => exact ⟨state, reachable, returned⟩
    | error code => exact absurd serves fits.2.1
  · rcases (Mt.Reachable.invariant laid limited filled reachable).defined undefined with
      fails | ⟨r, s, l, pass, slice, -, known, fails⟩
    · exact absurd (fun r s l pass slice known => (serves r s l pass slice known).2) fails
    · exact absurd (serves r s l pass slice known).1 fails

end Progress

end UltraLocked.CArgon2
