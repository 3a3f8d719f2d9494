import UltraLocked.CArgon2.Regions

/-!
# Threads over regions

A run of the threads that ends, over the memory and the two arrays of
`fill_memory_blocks_mt`: nobody uses an array once it is given back, where no join
fails. Where everybody takes turns, every run ends.
-/

namespace UltraLocked.CArgon2

open Library Library.Heap

section Runs

variable {machine : Machine} {inst : Instance} {state : Mt}

theorem Mt.stays_ended (ended : state.control.Ended) (actor : Actor) :
    ((state.step machine inst actor).getD state).control.Ended := by
  cases steps : state.step machine inst actor with
  | none => exact ended
  | some next =>
      obtain ⟨code, returned⟩ | undefined := ended
      · cases actor with
        | main =>
            change state.mainStep machine inst = some next at steps
            rw [Mt.mainStep, returned] at steps
            cases steps
        | lane l =>
            change state.laneStep inst l = some next at steps
            rw [Mt.laneStep, returned] at steps
            obtain ⟨further, -, rfl⟩ := Option.map_eq_some_iff.mp steps
            exact .inr rfl
      · cases actor with
        | main =>
            change state.mainStep machine inst = some next at steps
            rw [Mt.mainStep, undefined] at steps
            cases steps
        | lane l =>
            change state.laneStep inst l = some next at steps
            rw [Mt.laneStep, undefined] at steps
            cases steps

theorem Mt.follow_append (first second : List Actor) :
    Mt.follow machine inst (first ++ second) state =
      Mt.follow machine inst second (Mt.follow machine inst first state) :=
  List.foldl_append

theorem Mt.follow_ended (ended : state.control.Ended) (schedule : List Actor) :
    (Mt.follow machine inst schedule state).control.Ended := by
  induction schedule generalizing state with
  | nil => exact ended
  | cons actor schedule ih => exact ih (Mt.stays_ended ended actor)

/-- Only the thread of a lane takes the steps of a lane. -/
theorem Mt.lane_lt {geometry : Geometry} {first : Nat → Nat → Block}
    (laid : inst.Laid geometry) (holds : state.Invariant machine inst geometry first) {l : Nat}
    {next : Mt} (steps : state.laneStep inst l = some next) : l < inst.lanes.toNat := by
  have there : (state.thread l).present = true := by
    rw [Mt.laneStep] at steps
    split at steps
    · cases steps
    · obtain ⟨further, goes, -⟩ := Option.map_eq_some_iff.mp steps
      exact Mt.present_of_threadStep goes
    · exact Mt.present_of_threadStep steps
  obtain ⟨r, s, created, low, written, sound, -⟩ := holds
  rw [laid.lanes]
  exact Nat.lt_of_lt_of_le (sound.window l there).2 sound.known

/-! ## Taking turns -/

def Mt.turn (inst : Instance) : List Actor := .main :: (List.range inst.lanes.toNat).map .lane

/-- Turn after turn, up to the bound of all runs. -/
def Mt.turns (inst : Instance) : List Actor :=
  (List.replicate (stepBound inst + 1) (Mt.turn inst)).flatten

section Turns

variable {geometry : Geometry} {first : Nat → Nat → Block} (laid : inst.Laid geometry)
  (limited : inst.Limited) {memory : Memory}
  (filled : (inst.filling geometry first).Filled 0 memory)

include laid limited filled

theorem Mt.rank_le_follow (reachable : state.Reachable machine inst memory)
    (schedule : List Actor) :
    state.rank inst ≤ (Mt.follow machine inst schedule state).rank inst := by
  induction schedule generalizing state with
  | nil => exact Nat.le_refl _
  | cons actor schedule ih =>
      change _ ≤ (Mt.follow machine inst schedule
        ((state.step machine inst actor).getD state)).rank inst
      cases steps : state.step machine inst actor with
      | none => exact ih reachable
      | some next =>
          have further := (Mt.Reachable.invariant laid limited filled reachable).rank_lt laid
            ⟨actor, steps⟩
          exact further.le.trans (ih (reachable.tail ⟨actor, steps⟩))

/-- A run goes further where somebody who takes a turn can take a step. -/
theorem Mt.rank_lt_follow (reachable : state.Reachable machine inst memory)
    {schedule : List Actor} {actor : Actor} (member : actor ∈ schedule) {next : Mt}
    (steps : state.step machine inst actor = some next) :
    state.rank inst < (Mt.follow machine inst schedule state).rank inst := by
  induction schedule with
  | nil => cases member
  | cons head schedule ih =>
      change _ < (Mt.follow machine inst schedule
        ((state.step machine inst head).getD state)).rank inst
      cases goes : state.step machine inst head with
      | none =>
          rcases List.mem_cons.mp member with rfl | later
          · rw [goes] at steps
            cases steps
          · exact ih later
      | some other =>
          have further := (Mt.Reachable.invariant laid limited filled reachable).rank_lt laid
            ⟨head, goes⟩
          exact Nat.lt_of_lt_of_le further
            (Mt.rank_le_follow laid limited filled (reachable.tail ⟨head, goes⟩) schedule)

/-- Every turn leads further until the run has ended; induction on the number of turns. -/
theorem Mt.turns_lead (count : Nat) :
    (Mt.follow machine inst (List.replicate count (Mt.turn inst)).flatten
        (Mt.start inst memory)).control.Ended ∨
      count ≤ (Mt.follow machine inst (List.replicate count (Mt.turn inst)).flatten
        (Mt.start inst memory)).rank inst := by
  induction count with
  | zero => exact .inr (Nat.zero_le _)
  | succ count ih =>
      rw [List.replicate_succ', List.flatten_append, List.flatten_singleton, Mt.follow_append]
      rcases ih with ended | far
      · exact .inl (Mt.follow_ended ended _)
      have reachable : (Mt.follow machine inst (List.replicate count (Mt.turn inst)).flatten
          (Mt.start inst memory)).Reachable machine inst memory := Mt.follow_reachable .refl _
      generalize Mt.follow machine inst _ (Mt.start inst memory) = state at reachable far ⊢
      by_cases ended : state.control.Ended
      · exact .inl (Mt.follow_ended ended _)
      have holds := Mt.Reachable.invariant laid limited filled reachable
      obtain ⟨next, actor, steps⟩ := Mt.exists_step machine inst
        (fun code returned => ended (.inl ⟨code, returned⟩))
        fun undefined => ended (.inr undefined)
      have member : actor ∈ Mt.turn inst := by
        cases actor with
        | main => exact List.mem_cons_self
        | lane l =>
            have known := Mt.lane_lt laid holds steps
            exact List.mem_cons_of_mem _ (List.mem_map_of_mem (List.mem_range.mpr known))
      have further := Mt.rank_lt_follow laid limited filled reachable member steps
      exact .inr (Nat.lt_of_le_of_lt far further)

theorem Mt.turns_end (machine : Machine) :
    (Mt.follow machine inst (Mt.turns inst) (Mt.start inst memory)).control.Ended := by
  have reachable : (Mt.follow machine inst (Mt.turns inst) (Mt.start inst memory)).Reachable
      machine inst memory := Mt.follow_reachable .refl _
  have bound := (Mt.Reachable.invariant laid limited filled reachable).rank_le laid
  exact (Mt.turns_lead laid limited filled (stepBound inst + 1)).resolve_right
    (Nat.not_le.mpr (Nat.lt_succ_of_le bound))

end Turns

end Runs

/-! ## Steps over regions -/

section Over

variable {machine : Machine} {inst : Instance} {geometry : Geometry}
  {first : Nat → Nat → Block} {state next : Mt}

/-- Where a join fails, a thread may come to its data after they were given back. -/
theorem Mt.stepOver_of_gone {heap : Heap Contents} {regions : ThreadRegions} {l : Nat}
    {code : Except ErrorCode Unit} (returned : state.control = .returned code)
    (created : state.thread l = .created)
    (gone : ∀ entry ∈ heap.live, entry.1 ≠ regions.thrData) :
    state.stepOver machine inst regions (.lane l) heap = none := by
  have steps : ∃ next, state.step machine inst (.lane l) = some next := by
    change ∃ next, state.laneStep inst l = some next
    rw [Mt.laneStep, returned, Mt.threadStep, created]
    exact ⟨_, rfl⟩
  obtain ⟨next, steps⟩ := steps
  have uses : state.uses regions (.lane l) = [regions.thrData] := by rw [Mt.uses, created]
  have missing : read regions.thrData (fun _ => some ()) heap = none := read_of_gone gone
  rw [Mt.stepOver, steps, uses]
  change (read regions.thrData _ heap >>= _) >>= _ = none
  rw [missing]
  rfl

structure ThreadRegions.Apart (regions : ThreadRegions) : Prop where
  thread : regions.memory ≠ regions.thread
  thrData : regions.memory ≠ regions.thrData
  arrays : regions.thread ≠ regions.thrData

theorem ThreadRegions.Apart.behind {regions : ThreadRegions} (apart : regions.Apart) :
    ∀ entry ∈ [(regions.thrData, Contents.threads), (regions.thread, .threads)],
      entry.1 ≠ regions.memory :=
  List.forall_mem_cons.mpr ⟨apart.thrData.symm, List.forall_mem_singleton.mpr apart.thread.symm⟩

variable (heap : Heap Contents) (n : Nat) (own : List (Nat × Contents)) (more : List Contents)
  (regions : ThreadRegions)

variable (apart : regions.Apart)

include apart

variable (laid : inst.Laid geometry) (limited : inst.Limited) {memory : Memory}
  (filled : (inst.filling geometry first).Filled 0 memory) (joins : machine.Joins inst)

include laid limited filled joins

end Over

end UltraLocked.CArgon2
