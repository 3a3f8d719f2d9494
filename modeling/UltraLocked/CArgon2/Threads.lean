import Mathlib.Logic.Function.Basic
import Mathlib.Logic.Relation
import UltraLocked.CArgon2.FillMemory

/-!
# Filling the memory with threads

`fill_memory_blocks_mt` and `fill_segment_thr` of `core.c` as a transition
system. The main thread and one thread for each lane take steps in any order;
between two steps of a thread lies at most one access to a shared block. Where
the source leaves what happens open, the control is `undefined`.
-/

namespace UltraLocked.CArgon2

/-! ## A thread that fills its segment -/

inductive Stage where
  /-- The loop condition, then `pseudo_rand`. -/
  | head (cursor : Cursor)
  /-- The reads of `fill_block`, in the order of the source. -/
  | readRef (cursor : Cursor) (access : Access)
  | readPrev (cursor : Cursor) (access : Access) (refBlock : Block)
  | readNext (cursor : Cursor) (access : Access) (refBlock prevBlock : Block)
  | write (cursor : Cursor) (access : Access) (block : Block)

/-- One step of `fill_segment`: the next stage, `none` at the end, and the memory. -/
def Stage.step (inst : Instance) (position : Position) (stage : Stage) (memory : Memory) :
    Option (Option Stage × Memory) :=
  match stage with
  | .head cursor =>
      if cursor.i < inst.segmentLength then do
        let rand ← pseudoRand inst position (cursor.prepare inst position) memory
        let access := accessOf inst position (cursor.prepare inst position) rand
        pure (some (.readRef cursor access), memory)
      else pure (none, memory)
  | .readRef cursor access => do
      let refBlock ← memory[access.ref]?
      pure (some (.readPrev cursor access refBlock), memory)
  | .readPrev cursor access refBlock => do
      let prevBlock ← memory[access.prev]?
      pure (some (.readNext cursor access refBlock prevBlock), memory)
  | .readNext cursor access refBlock prevBlock =>
      if mixesOld inst position then do
        let nextBlock ← memory[access.curr]?
        pure (some (.write cursor access (fillBlock prevBlock refBlock nextBlock true)), memory)
      else
        pure (some (.write cursor access (fillBlock prevBlock refBlock zeroBlock false)), memory)
  | .write cursor access block => do
      let memory ← writeBlock memory access.curr block
      pure (some (.head (cursor.next inst position)), memory)

/-- The thread of a lane, as its handle shows it. -/
inductive Thread where
  /-- Not created yet, or joined. -/
  | absent
  /-- Created, but it has not read its data. -/
  | created
  | running (position : Position) (stage : Stage)
  | exited

def Thread.present : Thread → Bool
  | .absent => false
  | _ => true

/-! ## The main thread -/

inductive Control where
  /-- The head of the loop that creates the threads. -/
  | lane (r s l : Nat)
  /-- Behind the join at the limit. -/
  | create (r s l : Nat)
  /-- The threads before `l` are waited for, since thread `l` could not be created. -/
  | drain (r s l ll : Nat)
  /-- The head of the loop that joins the remaining threads. -/
  | join (r s l : Nat)
  | returned (code : Except ErrorCode Unit)
  | undefined

structure Mt where
  control : Control
  memory : Memory
  thread : Nat → Thread
  /-- `thr_data`, the positions -/
  data : Nat → Position

/-- Slice `s` of pass `r` begins, unless all passes are done. -/
def sliceBegins (inst : Instance) (r s : Nat) : Control :=
  if r < inst.passes.toNat then .lane r s 0 else .returned (.ok ())

def sliceAfter (inst : Instance) (r s : Nat) : Control :=
  if s + 1 < syncPoints.toNat then sliceBegins inst r (s + 1) else sliceBegins inst (r + 1) 0

def Mt.start (inst : Instance) (memory : Memory) : Mt where
  control := sliceBegins inst 0 0
  memory := memory
  thread := fun _ => .absent
  data := fun _ => segmentPosition 0 0 0

namespace Mt

variable (machine : Machine) (inst : Instance) (state : Mt)

/-- `argon2_thread_join`: it waits for a thread, if it does not fail. -/
def join (code : Int32) (l : Nat) (joined failed : Control) : Option Mt :=
  match state.thread l with
  | .absent => some { state with control := .undefined }
  | thread =>
      if code ≠ 0 then some { state with control := failed }
      else match thread with
        | .exited => some { state with
            control := joined
            thread := Function.update state.thread l .absent }
        | _ => none

/-- A step of the main thread; `none` while it waits and after it has returned. -/
def mainStep : Option Mt :=
  match state.control with
  | .lane r s l =>
      if l < inst.lanes.toNat then
        if inst.threads.toNat ≤ l then
          state.join (machine.join r s (l - inst.threads.toNat)) (l - inst.threads.toNat)
            (.create r s l) (.returned (.error .threadFail))
        else some { state with control := .create r s l }
      else some { state with control := .join r s (inst.lanes - inst.threads).toNat }
  | .create r s l =>
      let data := Function.update state.data l (segmentPosition r s l)
      if machine.create r s l ≠ 0 then
        some { state with control := .drain r s l 0, data := data }
      else some { state with
        control := .lane r s (l + 1)
        thread := Function.update state.thread l .created
        data := data }
  | .drain r s l ll =>
      if ll < l then
        state.join (machine.join r s ll) ll (.drain r s l (ll + 1)) (.drain r s l (ll + 1))
      else some { state with control := .returned (.error .threadFail) }
  | .join r s l =>
      if l < inst.lanes.toNat then
        state.join (machine.join r s l) l (.join r s (l + 1)) (.returned (.error .threadFail))
      else some { state with control := sliceAfter inst r s }
  | .returned _ => none
  | .undefined => none

def threadStep (l : Nat) : Option Mt :=
  match state.thread l with
  | .absent => none
  | .created => some { state with
      thread := Function.update state.thread l (.running (state.data l)
        (.head (Cursor.start inst (state.data l)))) }
  | .running position stage =>
      match stage.step inst position state.memory with
      | none => some { state with control := .undefined }
      | some (none, memory) => some { state with
          memory := memory
          thread := Function.update state.thread l .exited }
      | some (some stage, memory) => some { state with
          memory := memory
          thread := Function.update state.thread l (.running position stage) }
  | .exited => none

/-- A step of the thread of a lane; its data are freed when the main thread returns. -/
def laneStep (l : Nat) : Option Mt :=
  match state.control with
  | .undefined => none
  | .returned _ =>
      (state.threadStep inst l).map fun state => { state with control := .undefined }
  | _ => state.threadStep inst l

end Mt

inductive Actor where
  | main
  | lane (l : Nat)
  deriving DecidableEq

def Mt.step (machine : Machine) (inst : Instance) (state : Mt) : Actor → Option Mt
  | .main => state.mainStep machine inst
  | .lane l => state.laneStep inst l

def Mt.Steps (machine : Machine) (inst : Instance) (state next : Mt) : Prop :=
  ∃ actor, state.step machine inst actor = some next

/-- The states that some order of steps leads to. -/
def Mt.Reachable (machine : Machine) (inst : Instance) (memory : Memory) (state : Mt) : Prop :=
  Relation.ReflTransGen (Mt.Steps machine inst) (Mt.start inst memory) state

/-- The run of a schedule; who cannot take a step is passed over. -/
def Mt.follow (machine : Machine) (inst : Instance) (schedule : List Actor) (state : Mt) : Mt :=
  schedule.foldl (fun state actor => (state.step machine inst actor).getD state) state

theorem Mt.follow_reachable {machine : Machine} {inst : Instance} {memory : Memory} {state : Mt}
    (reachable : state.Reachable machine inst memory) (schedule : List Actor) :
    (Mt.follow machine inst schedule state).Reachable machine inst memory := by
  induction schedule generalizing state with
  | nil => exact reachable
  | cons actor schedule ih =>
      have next : ((state.step machine inst actor).getD state).Reachable machine inst memory := by
        cases steps : state.step machine inst actor with
        | none => exact reachable
        | some next => exact reachable.tail ⟨actor, steps⟩
      exact ih next

/-! ## Races -/

inductive Location where
  | block (offset : Nat)
  | data (l : Nat)
  deriving DecidableEq

/-- The access to a shared block with which a stage continues; a write is `true`. -/
def Stage.touches (inst : Instance) (position : Position) : Stage → Option (Location × Bool)
  | .head cursor =>
      if cursor.i < inst.segmentLength ∧ dataIndependent inst position = false then
        some (.block (cursor.prepare inst position).prevOffset.toNat, false)
      else none
  | .readRef _ access => some (.block access.ref, false)
  | .readPrev _ access _ => some (.block access.prev, false)
  | .readNext _ access _ _ =>
      if mixesOld inst position then some (.block access.curr, false) else none
  | .write _ access _ => some (.block access.curr, true)

def Mt.touches (inst : Instance) (state : Mt) : Actor → Option (Location × Bool)
  | .main =>
      match state.control with
      | .create _ _ l => some (.data l, true)
      | _ => none
  | .lane l =>
      match state.thread l with
      | .created => some (.data l, false)
      | .running position stage => stage.touches inst position
      | _ => none

/-- Two next accesses meet, and one of them is a write. -/
def Mt.Race (inst : Instance) (state : Mt) : Prop :=
  ∃ a b location writes, a ≠ b ∧ state.touches inst a = some (location, true) ∧
    state.touches inst b = some (location, writes)

end UltraLocked.CArgon2
