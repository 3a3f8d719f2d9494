import UltraLocked.CArgon2.Core

/-!
# libargon2: raw hashing

`argon2.c`, without the encoded form, which the package never asks for.
-/

namespace UltraLocked.CArgon2

open Library

/-- `argon2_type` -/
def argon2d : UInt32 := 0
def argon2i : UInt32 := 1
def argon2id : UInt32 := 2

def versionNumber : UInt32 := 0x13

/-- The memory of a run, cut into equal segments, and its threads. -/
def instanceOf (context : Context) (type : UInt32) : Instance :=
  let least := 2 * syncPoints * context.lanes
  let memoryBlocks := if context.mCost < least then least else context.mCost
  let segmentLength := memoryBlocks / (context.lanes * syncPoints)
  { memory := none
    version := context.version
    passes := context.tCost
    memoryBlocks := segmentLength * (context.lanes * syncPoints)
    segmentLength := segmentLength
    laneLength := segmentLength * syncPoints
    lanes := context.lanes
    threads := if context.threads > context.lanes then context.lanes else context.threads
    type := type }

/-- `argon2_ctx`: the tag that is left in the output of the context. -/
def argon2Ctx (machine : Machine) (context : Context) (type : UInt32) :
    Except ErrorCode (List UInt8) := do
  validateInputs (some context)
  refuseIf (argon2d ≠ type ∧ argon2i ≠ type ∧ argon2id ≠ type) .incorrectType
  let inst ← initializeInstance machine context (instanceOf context type)
  fillMemoryBlocks machine inst
  pure (machine.finalize context inst)

theorem argon2Ctx_returns {machine : Machine} (provides : machine.Provides) {context : Context}
    (valid : validateInputs (some context) = .ok ()) (own : context.allocateCbk = none) :
    ∃ tag, argon2Ctx machine context argon2id = .ok tag := by
  have lanes : context.lanes ≠ 0 := (validateInputs_eq_ok_iff.mp valid).2.lanes_ne_zero
  obtain ⟨memory, initialized⟩ :=
    initializeInstance_returns provides own (instanceOf context argon2id)
  have filled : fillMemoryBlocks machine { instanceOf context argon2id with memory := memory } =
      .ok () := fillMemoryBlocks_returns provides lanes
  rw [argon2Ctx, checks_of_ok valid, checks_of_ok (refuseIf_neg fun ⟨_, _, other⟩ => other rfl),
    initialized]
  exact ⟨_, checks_of_ok filled _⟩

/-- The arguments of `argon2_hash` for a raw hash. -/
structure HashArguments where
  tCost : UInt32
  mCost : UInt32
  parallelism : UInt32
  pwd : Pointer
  pwdlen : UInt64
  salt : Pointer
  saltlen : UInt64
  hashlen : UInt64
  type : UInt32
  version : UInt32

/-- The checks that `argon2_hash` makes before it narrows the lengths. -/
def checkLengths (arguments : HashArguments) : Except ErrorCode Unit := do
  refuseIf (arguments.pwdlen > maxPwdLength.toUInt64) .pwdTooLong
  refuseIf (arguments.saltlen > maxSaltLength.toUInt64) .saltTooLong
  refuseIf (arguments.hashlen > maxOutlen.toUInt64) .outputTooLong
  refuseIf (arguments.hashlen < minOutlen.toUInt64) .outputTooShort

/-- The context that `argon2_hash` fills in. -/
def contextOf (out : Pointer) (arguments : HashArguments) : Context where
  out := out
  outlen := arguments.hashlen.toUInt32
  pwd := arguments.pwd
  pwdlen := arguments.pwdlen.toUInt32
  salt := arguments.salt
  saltlen := arguments.saltlen.toUInt32
  secret := none
  secretlen := 0
  ad := none
  adlen := 0
  tCost := arguments.tCost
  mCost := arguments.mCost
  lanes := arguments.parallelism
  threads := arguments.parallelism
  allocateCbk := none
  freeCbk := none
  flags := 0
  version := arguments.version

/-- `argon2_hash`: what it copies into the hash buffer when it succeeds. -/
def argon2Hash (machine : Machine) (arguments : HashArguments) :
    Except ErrorCode (List UInt8) := do
  checkLengths arguments
  let out := machine.malloc arguments.hashlen
  refuseIf (out = none) .memoryAllocationError
  argon2Ctx machine (contextOf out arguments) arguments.type

/-- Arguments that pass every argument check of libargon2. -/
structure ChecksPass (machine : Machine) (arguments : HashArguments) : Prop where
  lengths : checkLengths arguments = .ok ()
  inputs : validateInputs
    (some (contextOf (machine.malloc arguments.hashlen) arguments)) = .ok ()

/-- Lengths that fit in 32 bits and a salt and tag that are not too short. -/
structure Measured (arguments : HashArguments) : Prop where
  pwd : arguments.pwd ≠ none
  pwdlen : arguments.pwdlen.toNat ≤ 0xFFFFFFFF
  salt : arguments.salt ≠ none
  saltlen : 8 ≤ arguments.saltlen.toNat ∧ arguments.saltlen.toNat ≤ 0xFFFFFFFF
  hashlen : 4 ≤ arguments.hashlen.toNat ∧ arguments.hashlen.toNat ≤ 0xFFFFFFFF

namespace Measured

variable {machine : Machine} {arguments : HashArguments} (measured : Measured arguments)

include measured

theorem checkLengths_eq : checkLengths arguments = .ok () := by
  have most : maxPwdLength.toUInt64.toNat = 0xFFFFFFFF := by decide +kernel
  have least : minOutlen.toUInt64.toNat = 4 := by decide +kernel
  simp only [checkLengths, checks_eq_ok_iff, refuseIf_eq_ok_iff, gt_iff_lt, UInt64.not_lt,
    UInt64.le_iff_toNat_le]
  rw [least]
  exact ⟨most ▸ measured.pwdlen, most ▸ measured.saltlen.2, most ▸ measured.hashlen.2,
    measured.hashlen.1⟩

theorem buffersValid (provides : machine.Provides) :
    BuffersValid (contextOf (machine.malloc arguments.hashlen) arguments) where
  out := provides.malloc _
  outlen := by
    have := measured.hashlen
    change 4 ≤ arguments.hashlen.toUInt32.toNat
    rw [UInt64.toNat_toUInt32]
    omega
  pwd := fun missing => absurd missing measured.pwd
  salt := fun missing => absurd missing measured.salt
  saltlen := by
    have := measured.saltlen
    change 8 ≤ arguments.saltlen.toUInt32.toNat
    rw [UInt64.toNat_toUInt32]
    omega
  secret := fun _ => rfl
  ad := fun _ => rfl

end Measured

/-- The checks of arguments in range leave only memory and lanes to compare. -/
structure InRange (arguments : HashArguments) : Prop extends Measured arguments where
  time : 1 ≤ arguments.tCost.toNat
  memory : 8 ≤ arguments.mCost.toNat
  lanes : 1 ≤ arguments.parallelism.toNat ∧ arguments.parallelism.toNat ≤ 0xFFFFFF

namespace InRange

variable {machine : Machine} (provides : machine.Provides) {arguments : HashArguments}
  (inRange : InRange arguments)

include provides inRange

theorem checksPass_iff :
    ChecksPass machine arguments ↔
      8 * arguments.parallelism.toNat ≤ arguments.mCost.toNat := by
  constructor
  · intro pass
    exact (validateInputs_eq_ok_iff.mp pass.inputs).2.memoryLanes
  · intro enough
    refine ⟨inRange.toMeasured.checkLengths_eq, validateInputs_eq_ok_iff.mpr ⟨?_, ?_⟩⟩
    · exact inRange.toMeasured.buffersValid provides
    · exact ⟨inRange.memory, enough, inRange.time, inRange.lanes, inRange.lanes, rfl⟩

theorem argon2Hash_returns (id : arguments.type = argon2id)
    (enough : 8 * arguments.parallelism.toNat ≤ arguments.mCost.toNat) :
    ∃ tag, argon2Hash machine arguments = .ok tag := by
  have pass := (inRange.checksPass_iff provides).mpr enough
  obtain ⟨tag, hashed⟩ := argon2Ctx_returns provides pass.inputs rfl
  refine ⟨tag, ?_⟩
  rw [argon2Hash, checks_of_ok pass.lengths, checks_of_ok (refuseIf_neg (provides.malloc _)), id]
  exact hashed

theorem argon2Hash_refuses (little : arguments.mCost.toNat < 8 * arguments.parallelism.toNat) :
    argon2Hash machine arguments = .error .memoryTooLittle := by
  have refused := validateInputs_of_memory (inRange.toMeasured.buffersValid provides)
    inRange.memory inRange.lanes.2 little
  rw [argon2Hash, checks_of_ok inRange.toMeasured.checkLengths_eq,
    checks_of_ok (refuseIf_neg (provides.malloc _)), argon2Ctx, checks_of_error refused]

end InRange

end UltraLocked.CArgon2
