import UltraLocked.CArgon2.AccessPattern
import UltraLocked.CArgon2.ThreadsProgress

/-!
# Threads compute what one thread computes

The results for the instances that the library makes: whatever the memory holds
and in whatever order the threads run.
-/

namespace UltraLocked.CArgon2

open Library

theorem CostsValid.limited {context : Context} (valid : CostsValid context) (type : UInt32) :
    (instanceOf context type).Limited := by
  have lanes := valid.lanes.1
  have threads := valid.threads.1
  have limit : (instanceOf context type).threads =
      if context.threads > context.lanes then context.lanes else context.threads := rfl
  have all : (instanceOf context type).lanes = context.lanes := rfl
  refine ⟨?_, ?_⟩ <;> rw [limit] <;> split
  · exact lanes
  · exact threads
  · exact Nat.le_refl _
  · rename_i few
    rw [all, ← UInt32.le_iff_toNat_le, ← UInt32.not_lt]
    exact few

/-! ## Two lanes -/

/-- Two lanes of eight blocks, and a thread for each. -/
def twoLanes : Context where
  out := some []
  outlen := 32
  pwd := some [1]
  pwdlen := 1
  salt := some [1, 2, 3, 4, 5, 6, 7, 8]
  saltlen := 8
  secret := none
  secretlen := 0
  ad := none
  adlen := 0
  tCost := 1
  mCost := 16
  lanes := 2
  threads := 2
  version := 0x13
  allocateCbk := none
  freeCbk := none
  flags := 0

theorem twoLanes_valid : CostsValid twoLanes :=
  ⟨by decide, by decide, by decide, by decide, by decide, rfl⟩

/-- A machine on which nothing fails. -/
def steadyMachine : Machine where
  malloc _ := some []
  calloc _ _ := some []
  create _ _ _ := 0
  join _ _ _ := 0
  finalize _ _ := []

/-- Sixteen blocks, for two lanes. -/
def blankMemory : Memory := Array.replicate 16 zeroBlock

/-- The state in which both threads of the first slice have begun. -/
def bothRunning : Mt :=
  Mt.follow steadyMachine (instanceOf twoLanes argon2id)
    [.main, .main, .main, .main, .lane 0, .lane 1]
    (Mt.start (instanceOf twoLanes argon2id) blankMemory)

section Results

variable {context : Context} (valid : CostsValid context) (type : UInt32) {machine : Machine}
  {memory : Memory} (size : memory.size = (instanceOf context type).memoryBlocks.toNat)

include valid size

theorem Mt.Reachable.invariant_of_size {state : Mt}
    (reachable : state.Reachable machine (instanceOf context type) memory) :
    state.Invariant machine (instanceOf context type) valid.geometry
      (contentsOf valid.geometry memory) :=
  Mt.Reachable.invariant (valid.laid type) (valid.limited type)
    (filled_contents _ (size.trans (valid.laid type).memoryBlocks)) reachable

/--
In every state of every run no two threads race, for a block or for the data of
a thread; no more threads are there than the instance allows; and what happens
is defined, unless a join fails or a thread fails to be created when others of
its slice have been joined.
-/
theorem threads_safe {state : Mt}
    (reachable : state.Reachable machine (instanceOf context type) memory) :
    ¬ state.Race (instanceOf context type) ∧
      ((Finset.range context.lanes.toNat).filter fun l =>
        (state.thread l).present = true).card ≤ (instanceOf context type).threads.toNat ∧
      (state.control = .undefined →
        ¬ machine.Joins (instanceOf context type) ∨ machine.FailsLate (instanceOf context type)) := by
  have holds := reachable.invariant_of_size valid type size
  exact ⟨holds.no_race (valid.laid type), holds.card_le _, holds.defined⟩

omit valid size in
theorem bothRunning_safe : ¬ bothRunning.Race (instanceOf twoLanes argon2id) := by
  have size : blankMemory.size = (instanceOf twoLanes argon2id).memoryBlocks.toNat := rfl
  have reachable : bothRunning.Reachable steadyMachine (instanceOf twoLanes argon2id) blankMemory :=
    Mt.follow_reachable .refl _
  exact (threads_safe twoLanes_valid argon2id size reachable).1

/--
A run that returns has the code of its calls made one after the other, and has
joined all of its threads unless a join failed. If it succeeds, its memory is
the one that a single thread leaves, whatever the order of steps was.
-/
theorem threads_return {state : Mt}
    (reachable : state.Reachable machine (instanceOf context type) memory)
    (handles : machine.calloc context.lanes.toUInt64 8 ≠ none)
    (data : machine.calloc context.lanes.toUInt64 24 ≠ none) {code : Except ErrorCode Unit}
    (returned : state.control = .returned code) :
    code = fillMemoryBlocksMt machine (instanceOf context type) ∧
      (machine.Joins (instanceOf context type) → ∀ l, (state.thread l).present = false) ∧
      (code = .ok () → ∃ touched, (instanceOf context type).fillMemoryBlocksSt memory =
        some (touched, state.memory)) := by
  have holds := reachable.invariant_of_size valid type size
  have laid := valid.laid type
  refine ⟨holds.code_eq (valid.limited type) handles data returned,
    fun joins => holds.none_left joins returned, fun ok => ?_⟩
  obtain ⟨memory', run, filled⟩ := fillMemoryBlocksSt_eq laid
    (filled_contents _ (size.trans laid.memoryBlocks))
  have same := Filling.Filled.unique valid.time (holds.filled (ok ▸ returned)) filled
  exact ⟨_, same ▸ run⟩

omit valid size in
/-- Some order of steps ends with the memory of one thread. -/
theorem twoLanes_return :
    ∃ state : Mt, state.Reachable steadyMachine (instanceOf twoLanes argon2id) blankMemory ∧
      ∃ touched, (instanceOf twoLanes argon2id).fillMemoryBlocksSt blankMemory =
        some (touched, state.memory) := by
  have size : blankMemory.size = (instanceOf twoLanes argon2id).memoryBlocks.toNat := rfl
  have laid := twoLanes_valid.laid argon2id
  have limited := twoLanes_valid.limited argon2id
  have serves : steadyMachine.Serves (instanceOf twoLanes argon2id) :=
    fun _ _ _ _ _ _ => ⟨rfl, rfl⟩
  obtain ⟨state, reachable, returned⟩ := Mt.exists_returned laid limited
    (filled_contents _ (size.trans laid.memoryBlocks)) serves
  exact ⟨state, reachable, (threads_return twoLanes_valid argon2id size reachable
    (Option.some_ne_none _) (Option.some_ne_none _) returned).2.2 rfl⟩

/--
No run has more steps than the bound, and a run that nobody can continue has
returned, or what happened is not defined.
-/
theorem threads_end {run : Nat → Mt} {n : Nat}
    (starts : run 0 = Mt.start (instanceOf context type) memory)
    (steps : ∀ i < n, (run i).Steps machine (instanceOf context type) (run (i + 1))) :
    n ≤ stepBound (instanceOf context type) ∧
      ((∀ next, ¬ (run n).Steps machine (instanceOf context type) next) →
        (∃ code, (run n).control = .returned code) ∨ (run n).control = .undefined) := by
  have laid := valid.laid type
  have along (i : Nat) (few : i ≤ n) :
      (run i).Reachable machine (instanceOf context type) memory ∧
        i ≤ (run i).rank (instanceOf context type) := by
    induction i with
    | zero =>
        refine ⟨?_, Nat.zero_le _⟩
        rw [starts]
        exact .refl
    | succ i ih =>
        obtain ⟨reachable, far⟩ := ih (Nat.le_of_succ_le few)
        have step := steps i few
        have further := (reachable.invariant_of_size valid type size).rank_lt laid step
        exact ⟨reachable.tail step, Nat.lt_of_le_of_lt far further⟩
  obtain ⟨reachable, far⟩ := along n (Nat.le_refl n)
  refine ⟨far.trans ((reachable.invariant_of_size valid type size).rank_le laid), fun stuck => ?_⟩
  by_contra open_
  obtain ⟨next, goes⟩ := Mt.exists_step machine (instanceOf context type)
    (fun code returned => open_ (.inl ⟨code, returned⟩)) fun undefined => open_ (.inr undefined)
  exact stuck next goes

omit valid size in
theorem bothRunning_within : 6 ≤ stepBound (instanceOf twoLanes argon2id) := by
  let run (i : Nat) : Mt := Mt.follow steadyMachine (instanceOf twoLanes argon2id)
    ([.main, .main, .main, .main, .lane 0, .lane 1].take i)
    (Mt.start (instanceOf twoLanes argon2id) blankMemory)
  have size : blankMemory.size = (instanceOf twoLanes argon2id).memoryBlocks.toNat := rfl
  have starts : run 0 = Mt.start (instanceOf twoLanes argon2id) blankMemory := rfl
  have steps (i : Nat) (few : i < 6) :
      (run i).Steps steadyMachine (instanceOf twoLanes argon2id) (run (i + 1)) := by
    rcases i with _ | _ | _ | _ | _ | _ | i
    · exact ⟨.main, rfl⟩
    · exact ⟨.main, rfl⟩
    · exact ⟨.main, rfl⟩
    · exact ⟨.main, rfl⟩
    · exact ⟨.lane 0, rfl⟩
    · exact ⟨.lane 1, rfl⟩
    · omega
  exact (threads_end twoLanes_valid argon2id size starts steps).1

end Results

end UltraLocked.CArgon2
