import UltraLocked.CArgon2.ThreadsResults

/-!
# The hash of a machine

A machine gives memory with anything in it and runs its threads in some order.
What `argon2_hash` writes is the tag of the specification all the same.
-/

namespace UltraLocked.CArgon2

open Library

/-- What `fill_memory_blocks` may leave, when it succeeds. -/
def Fills (machine : Machine) (inst : Instance) (memory filled : Memory) : Prop :=
  if inst.threads = 1 then ∃ touched, inst.fillMemoryBlocksSt memory = some (touched, filled)
  else ∃ state : Mt, state.Reachable machine inst memory ∧ state.control = .returned (.ok ()) ∧
    state.memory = filled

/-- What `argon2_ctx` may write, when its checks pass and the memory is filled. -/
def Computes (machine : Machine) (context : Context) (inst : Instance) (tag : List UInt8) : Prop :=
  ∃ memory seeded filled, memory.size = inst.memoryBlocks.toNat ∧
    fillFirstBlocks (initialHash context inst.type).1 inst memory = some seeded ∧
    Fills machine inst seeded filled ∧
    finalize (initialHash context inst.type).2 inst filled = some tag

/-- The tag of a machine is that of some run, for some contents of its memory. -/
def Machine.Runs (machine : Machine) : Prop :=
  ∀ context type memory, validateInputs (some context) = .ok () →
    fillMemoryBlocks machine { instanceOf context type with memory := memory } = .ok () →
      Computes machine context { instanceOf context type with memory := memory }
        (machine.finalize context { instanceOf context type with memory := memory })

section Context

variable {machine : Machine} {context : Context} (valid : CostsValid context) (type : UInt32)
  (pointer : Pointer)

include valid

theorem CostsValid.limited_at :
    Instance.Limited { instanceOf context type with memory := pointer } :=
  ⟨(valid.limited type).positive, (valid.limited type).few⟩

theorem Fills.filled {seed : List UInt8} {seeded filled : Memory}
    (start : ((instanceOf context type).filling valid.geometry (firstBlock seed)).Filled 0 seeded)
    (fills : Fills machine { instanceOf context type with memory := pointer } seeded filled) :
    ((instanceOf context type).filling valid.geometry (firstBlock seed)).Filled
      (4 * context.tCost.toNat) filled := by
  rw [Fills] at fills
  split at fills
  · obtain ⟨touched, run⟩ := fills
    obtain ⟨memory', run', after⟩ := fillMemoryBlocksSt_eq (valid.laid_at type pointer) start
    rw [run] at run'
    cases run'
    exact after
  · obtain ⟨state, reachable, returned, rfl⟩ := fills
    exact (Mt.Reachable.invariant (valid.laid_at type pointer) (valid.limited_at type pointer)
      start reachable).filled returned

theorem Computes.tag_eq (positive : 0 < context.outlen.toNat) {tag : List UInt8}
    (computes : Computes machine context { instanceOf context type with memory := pointer } tag) :
    tag = valid.tag type := by
  obtain ⟨memory, seeded, filled, size, seeds, fills, written⟩ := computes
  have laid := valid.laid_at type pointer
  obtain ⟨seeded', seeds', start⟩ := fillFirstBlocks_eq laid
    (Blake2b.digest prehashDigestLength 0 (preimage context type)) (size.trans laid.memoryBlocks)
  have hashed : (initialHash context type).1 = _ := initialHash_eq context type
  change fillFirstBlocks (initialHash context type).1 _ memory = some seeded at seeds
  rw [hashed, seeds'] at seeds
  cases seeds
  have after := Fills.filled valid type pointer start fills
  have last := finalize_eq laid (initialHash context type).2
    (by rw [initialHash_outlen]; exact positive) valid.time after
  rw [initialHash_outlen] at last
  change finalize (initialHash context type).2 _ filled = some tag at written
  rw [last] at written
  exact (Option.some.inj written).symm

end Context

/-! ## The hash function of a machine -/

theorem ChecksPass.costsValid {machine : Machine} {arguments : HashArguments}
    (pass : ChecksPass machine arguments) (out : Pointer) :
    CostsValid (contextOf out arguments) := by
  obtain ⟨memory, memoryLanes, time, lanes, threads, callbacks⟩ :=
    (validateInputs_eq_ok_iff.mp pass.inputs).2
  exact ⟨memory, memoryLanes, time, lanes, threads, callbacks⟩

/-- A tag that `argon2_hash` returns has passed all checks. -/
theorem argon2Hash_eq_ok_iff {machine : Machine} {arguments : HashArguments} {tag : List UInt8} :
    argon2Hash machine arguments = .ok tag ↔
      (checkLengths arguments = .ok () ∧ machine.malloc arguments.hashlen ≠ none ∧
        argon2Ctx machine (contextOf (machine.malloc arguments.hashlen) arguments)
          arguments.type = .ok tag) := by
  rw [argon2Hash, checks_eq_ok_iff, checks_eq_ok_iff, refuseIf_eq_ok_iff]

theorem argon2Ctx_eq_ok_iff {machine : Machine} {context : Context} {type : UInt32}
    {tag : List UInt8} :
    argon2Ctx machine context type = .ok tag ↔
      validateInputs (some context) = .ok () ∧
        ¬ (argon2d ≠ type ∧ argon2i ≠ type ∧ argon2id ≠ type) ∧
        ∃ memory, allocateMemory machine context
            (instanceOf context type).memoryBlocks.toUInt64 blockSize = .ok memory ∧
          fillMemoryBlocks machine { instanceOf context type with memory := memory } = .ok () ∧
          machine.finalize context { instanceOf context type with memory := memory } = tag := by
  rw [argon2Ctx, checks_eq_ok_iff, checks_eq_ok_iff, refuseIf_eq_ok_iff]
  refine and_congr_right fun _ => and_congr_right fun _ => ?_
  rw [initializeInstance]
  cases allocated : allocateMemory machine context
      (instanceOf context type).memoryBlocks.toUInt64 blockSize with
  | error code =>
      constructor
      · intro never
        cases never
      · rintro ⟨memory, never, -⟩
        cases never
  | ok memory =>
      change (fillMemoryBlocks machine _ >>= fun _ => .ok _) = _ ↔ _
      rw [checks_eq_ok_iff]
      constructor
      · rintro ⟨filled, written⟩
        exact ⟨memory, rfl, filled, Except.ok.inj written⟩
      · rintro ⟨memory, same, filled, rfl⟩
        cases same
        exact ⟨filled, rfl⟩

/-- What `argon2_hash` returns is the tag of the specification. -/
theorem argon2Hash_tag {machine : Machine} (runs : machine.Runs) {arguments : HashArguments}
    {tag : List UInt8} (hashed : argon2Hash machine arguments = .ok tag) (out : Pointer) :
    ∃ valid : CostsValid (contextOf out arguments), tag = valid.tag arguments.type := by
  obtain ⟨lengths, -, written⟩ := argon2Hash_eq_ok_iff.mp hashed
  obtain ⟨inputs, -, memory, -, filled, rfl⟩ := argon2Ctx_eq_ok_iff.mp written
  have pass : ChecksPass machine arguments := ⟨lengths, inputs⟩
  have own := pass.costsValid (machine.malloc arguments.hashlen)
  have outlen := (validateInputs_eq_ok_iff.mp inputs).1.outlen
  exact ⟨pass.costsValid out, Computes.tag_eq own arguments.type memory (by omega)
    (runs _ _ memory inputs filled)⟩

/-! ## A machine that runs -/

/-- The same machine, with tags that are computed by one thread. -/
def Machine.reference (machine : Machine) : Machine :=
  { machine with
    finalize := fun context inst =>
      (tagSt context inst (Array.replicate inst.memoryBlocks.toNat zeroBlock)).getD [] }

theorem Machine.reference_provides {machine : Machine} (provides : machine.Provides) :
    machine.reference.Provides :=
  ⟨provides.malloc, provides.calloc, provides.create, provides.join⟩

theorem serves_of_fillMemoryBlocks {machine : Machine} {inst : Instance} (limited : inst.Limited)
    (filled : fillMemoryBlocks machine inst = .ok ()) (several : inst.threads ≠ 1) :
    machine.Serves inst := by
  rw [fillMemoryBlocks, checks_eq_ok_iff, if_neg several] at filled
  have threads := filled.2
  have arrays := threads
  rw [fillMemoryBlocksMt, checks_eq_ok_iff, checks_eq_ok_iff, refuseIf_eq_ok_iff,
    refuseIf_eq_ok_iff] at arrays
  exact (fillMemoryBlocksMt_eq_ok_iff limited arrays.1 arrays.2.1).mp threads

/-- Its tags are those of runs. -/
theorem Machine.reference_runs (machine : Machine) : machine.reference.Runs := by
  intro context type pointer inputs fills
  have valid := (validateInputs_eq_ok_iff.mp inputs).2
  have outlen := (validateInputs_eq_ok_iff.mp inputs).1.outlen
  have laid := valid.laid_at type pointer
  have limited := valid.limited_at type pointer
  let memory : Memory := Array.replicate (instanceOf context type).memoryBlocks.toNat zeroBlock
  have size : memory.size = (instanceOf context type).memoryBlocks.toNat := Array.size_replicate
  obtain ⟨seeded, seeds, start⟩ := fillFirstBlocks_eq laid
    (Blake2b.digest prehashDigestLength 0 (preimage context type)) (size.trans laid.memoryBlocks)
  have written : machine.reference.finalize context
      { instanceOf context type with memory := pointer } = valid.tag type := by
    change (tagSt context { instanceOf context type with memory := pointer } memory).getD [] = _
    rw [tagSt_at valid (by omega) type pointer size]
    rfl
  have hashed : (initialHash context type).1 = _ := initialHash_eq context type
  obtain ⟨filled, fill⟩ : ∃ filled, Fills machine.reference
      { instanceOf context type with memory := pointer } seeded filled := by
    by_cases alone : (instanceOf context type).threads = 1
    · obtain ⟨filled, run, -⟩ := fillMemoryBlocksSt_eq laid start
      exact ⟨filled, (if_pos alone).mpr ⟨_, run⟩⟩
    · obtain ⟨state, reachable, returned⟩ := Mt.exists_returned laid limited start
        (serves_of_fillMemoryBlocks limited fills alone)
      exact ⟨state.memory, (if_neg alone).mpr ⟨state, reachable, returned, rfl⟩⟩
  have after := Fills.filled valid type pointer start fill
  have last := finalize_eq laid (initialHash context type).2
    (by rw [initialHash_outlen]; omega) valid.time after
  rw [initialHash_outlen] at last
  refine ⟨memory, seeded, filled, size, ?_, fill, ?_⟩
  · change fillFirstBlocks (initialHash context type).1 _ memory = _
    rw [hashed]
    exact seeds
  · rw [written]
    exact last

end UltraLocked.CArgon2
