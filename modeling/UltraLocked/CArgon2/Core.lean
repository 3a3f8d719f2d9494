import Mathlib.Order.Lattice
import UltraLocked.Library.Checks

/-!
# libargon2: argument checks and memory

`include/argon2.h` and `core.c`. A function that returns a code is a function
into `Except ErrorCode`. The machine that the library runs on and the bytes that
its block functions compute are parameters; which code is returned depends on
them only where the source asks the machine for memory or threads.
-/

namespace UltraLocked.CArgon2

open Library

/-- `argon2_error_codes` that raw hashing can return, without `ARGON2_OK`. -/
inductive ErrorCode where
  | outputPtrNull
  | outputTooShort
  | outputTooLong
  | pwdTooShort
  | pwdTooLong
  | saltTooShort
  | saltTooLong
  | adTooShort
  | adTooLong
  | secretTooShort
  | secretTooLong
  | timeTooSmall
  | timeTooLarge
  | memoryTooLittle
  | memoryTooMuch
  | lanesTooFew
  | lanesTooMany
  | pwdPtrMismatch
  | saltPtrMismatch
  | secretPtrMismatch
  | adPtrMismatch
  | memoryAllocationError
  | freeMemoryCbkNull
  | allocateMemoryCbkNull
  | incorrectParameter
  | incorrectType
  | threadsTooFew
  | threadsTooMany
  | threadFail
  deriving DecidableEq, Repr

namespace ErrorCode

def rawValue : ErrorCode → Int32
  | outputPtrNull => -1
  | outputTooShort => -2
  | outputTooLong => -3
  | pwdTooShort => -4
  | pwdTooLong => -5
  | saltTooShort => -6
  | saltTooLong => -7
  | adTooShort => -8
  | adTooLong => -9
  | secretTooShort => -10
  | secretTooLong => -11
  | timeTooSmall => -12
  | timeTooLarge => -13
  | memoryTooLittle => -14
  | memoryTooMuch => -15
  | lanesTooFew => -16
  | lanesTooMany => -17
  | pwdPtrMismatch => -18
  | saltPtrMismatch => -19
  | secretPtrMismatch => -20
  | adPtrMismatch => -21
  | memoryAllocationError => -22
  | freeMemoryCbkNull => -23
  | allocateMemoryCbkNull => -24
  | incorrectParameter => -25
  | incorrectType => -26
  | threadsTooFew => -28
  | threadsTooMany => -29
  | threadFail => -33

/-- No error is mistaken for `ARGON2_OK`. -/
theorem rawValue_ne_zero (code : ErrorCode) : code.rawValue ≠ 0 := by
  cases code <;> decide

end ErrorCode

/-- A pointer to bytes; `none` is `NULL`. The buffers of a context do not overlap. -/
abbrev Pointer : Type := Option (List UInt8)

/-! ## Parameter restrictions -/

def minLanes : UInt32 := 1
def maxLanes : UInt32 := 0xFFFFFF
def minThreads : UInt32 := 1
def maxThreads : UInt32 := 0xFFFFFF
def syncPoints : UInt32 := 4
def minOutlen : UInt32 := 4
def maxOutlen : UInt32 := 0xFFFFFFFF
def minMemory : UInt32 := 2 * syncPoints
def minTime : UInt32 := 1
def maxTime : UInt32 := 0xFFFFFFFF
def minPwdLength : UInt32 := 0
def maxPwdLength : UInt32 := 0xFFFFFFFF
def minAdLength : UInt32 := 0
def maxAdLength : UInt32 := 0xFFFFFFFF
def minSaltLength : UInt32 := 8
def maxSaltLength : UInt32 := 0xFFFFFFFF
def minSecret : UInt32 := 0
def maxSecret : UInt32 := 0xFFFFFFFF

/-- `ARGON2_MAX_MEMORY_BITS` where a pointer has 8 bytes. -/
def maxMemoryBits : UInt64 := min 32 (8 * 8 - 10 - 1)

def maxMemory : UInt64 := min 0xFFFFFFFF ((1 : UInt64) <<< maxMemoryBits)

structure Context where
  out : Pointer
  outlen : UInt32
  pwd : Pointer
  pwdlen : UInt32
  salt : Pointer
  saltlen : UInt32
  secret : Pointer
  secretlen : UInt32
  ad : Pointer
  adlen : UInt32
  tCost : UInt32
  mCost : UInt32
  lanes : UInt32
  threads : UInt32
  version : UInt32
  allocateCbk : Option (UInt64 → Pointer)
  freeCbk : Option (Pointer → UInt64 → Unit)
  flags : UInt32

/-! ## `validate_inputs` -/

/-- The checks of a required buffer; its range is checked even where it is `NULL`. -/
def checkRequired (buffer : Pointer) (length least most : UInt32)
    (mismatch tooShort tooLong : ErrorCode) : Except ErrorCode Unit := do
  refuseIf (buffer = none ∧ 0 ≠ length) mismatch
  refuseIf (least > length) tooShort
  refuseIf (most < length) tooLong

/-- The checks of an optional buffer. -/
def checkOptional (buffer : Pointer) (length least most : UInt32)
    (mismatch tooShort tooLong : ErrorCode) : Except ErrorCode Unit :=
  match buffer with
  | none => refuseIf (0 ≠ length) mismatch
  | some _ => do
      refuseIf (least > length) tooShort
      refuseIf (most < length) tooLong

/-- `validate_inputs` up to the associated data. -/
def checkBuffers (context : Context) : Except ErrorCode Unit := do
  refuseIf (context.out = none) .outputPtrNull
  refuseIf (minOutlen > context.outlen) .outputTooShort
  refuseIf (maxOutlen < context.outlen) .outputTooLong
  checkRequired context.pwd context.pwdlen minPwdLength maxPwdLength
    .pwdPtrMismatch .pwdTooShort .pwdTooLong
  checkRequired context.salt context.saltlen minSaltLength maxSaltLength
    .saltPtrMismatch .saltTooShort .saltTooLong
  checkOptional context.secret context.secretlen minSecret maxSecret
    .secretPtrMismatch .secretTooShort .secretTooLong
  checkOptional context.ad context.adlen minAdLength maxAdLength
    .adPtrMismatch .adTooShort .adTooLong

/-- `validate_inputs` from the memory cost on. -/
def checkCosts (context : Context) : Except ErrorCode Unit := do
  refuseIf (minMemory > context.mCost) .memoryTooLittle
  refuseIf (maxMemory < context.mCost.toUInt64) .memoryTooMuch
  refuseIf (context.mCost < 8 * context.lanes) .memoryTooLittle
  refuseIf (minTime > context.tCost) .timeTooSmall
  refuseIf (maxTime < context.tCost) .timeTooLarge
  refuseIf (minLanes > context.lanes) .lanesTooFew
  refuseIf (maxLanes < context.lanes) .lanesTooMany
  refuseIf (minThreads > context.threads) .threadsTooFew
  refuseIf (maxThreads < context.threads) .threadsTooMany
  refuseIf (context.allocateCbk.isSome ∧ context.freeCbk.isNone) .freeMemoryCbkNull
  refuseIf (context.allocateCbk.isNone ∧ context.freeCbk.isSome) .allocateMemoryCbkNull

def validateInputs : Option Context → Except ErrorCode Unit
  | none => .error .incorrectParameter
  | some context => do
      checkBuffers context
      checkCosts context

/-! ## Memory and threads -/

/-- `argon2_instance_t` -/
structure Instance where
  memory : Pointer
  version : UInt32
  passes : UInt32
  memoryBlocks : UInt32
  segmentLength : UInt32
  laneLength : UInt32
  lanes : UInt32
  threads : UInt32
  type : UInt32

/-- What a run of the library is given: memory, threads and the bytes of the tag. -/
structure Machine where
  malloc : UInt64 → Pointer
  calloc : UInt64 → UInt64 → Pointer
  /-- `pthread_create` and `pthread_join` for the segment of a pass, slice and lane. -/
  create : Nat → Nat → Nat → Int32
  join : Nat → Nat → Nat → Int32
  /-- What `finalize` writes to the output of a context, all segments being filled. -/
  finalize : Context → Instance → List UInt8

/-- Memory allocation and threads never fail. -/
structure Machine.Provides (machine : Machine) : Prop where
  malloc : ∀ size, machine.malloc size ≠ none
  calloc : ∀ count size, machine.calloc count size ≠ none
  create : ∀ pass slice lane, machine.create pass slice lane = 0
  join : ∀ pass slice lane, machine.join pass slice lane = 0

/-- `sizeof(block)` -/
def blockSize : UInt64 := 1024

def allocateMemory (machine : Machine) (context : Context) (num size : UInt64) :
    Except ErrorCode Pointer := do
  let memorySize := num * size
  refuseIf (size ≠ 0 ∧ memorySize / size ≠ num) .memoryAllocationError
  let memory := match context.allocateCbk with
    | some allocate => allocate memorySize
    | none => machine.malloc memorySize
  refuseIf (memory = none) .memoryAllocationError
  pure memory

/-- `initialize`: what it hashes into the first blocks shows in the tag alone. -/
def initializeInstance (machine : Machine) (context : Context) (inst : Instance) :
    Except ErrorCode Instance := do
  let memory ← allocateMemory machine context inst.memoryBlocks.toUInt64 blockSize
  pure { inst with memory := memory }

/-- The turn of `fill_memory_blocks_mt` for one lane. -/
def startSegment (machine : Machine) (inst : Instance) (r s l : Nat) :
    Except ErrorCode Unit := do
  refuseIf (inst.threads.toNat ≤ l ∧ machine.join r s (l - inst.threads.toNat) ≠ 0) .threadFail
  refuseIf (machine.create r s l ≠ 0) .threadFail

/-- One slice of one pass: start every lane, then join the remaining threads. -/
def fillSlice (machine : Machine) (inst : Instance) (r s : Nat) : Except ErrorCode Unit := do
  (List.range inst.lanes.toNat).forM (startSegment machine inst r s)
  ((List.range inst.lanes.toNat).drop (inst.lanes - inst.threads).toNat).forM
    fun l => refuseIf (machine.join r s l ≠ 0) .threadFail

/-- `fill_memory_blocks_mt`, with the sizes of a thread handle and of its data. -/
def fillMemoryBlocksMt (machine : Machine) (inst : Instance) : Except ErrorCode Unit := do
  refuseIf (machine.calloc inst.lanes.toUInt64 8 = none) .memoryAllocationError
  refuseIf (machine.calloc inst.lanes.toUInt64 24 = none) .memoryAllocationError
  (List.range inst.passes.toNat).forM fun r =>
    (List.range syncPoints.toNat).forM (fillSlice machine inst r)

/-- `fill_memory_blocks_st` only fills segments. -/
def fillMemoryBlocksSt : Except ErrorCode Unit :=
  .ok ()

def fillMemoryBlocks (machine : Machine) (inst : Instance) : Except ErrorCode Unit := do
  refuseIf (inst.lanes = 0) .incorrectParameter
  if inst.threads = 1 then fillMemoryBlocksSt else fillMemoryBlocksMt machine inst

/-! ## What passes the checks -/

theorem checkRequired_eq_ok_iff {buffer : Pointer} {length least most : UInt32}
    {mismatch tooShort tooLong : ErrorCode} :
    checkRequired buffer length least most mismatch tooShort tooLong = .ok () ↔
      (buffer = none → length = 0) ∧ least ≤ length ∧ length ≤ most := by
  simp only [checkRequired, checks_eq_ok_iff, refuseIf_eq_ok_iff, not_and, ne_eq, not_not,
    gt_iff_lt, UInt32.not_lt, @eq_comm _ 0 length]

theorem checkOptional_eq_ok_iff {buffer : Pointer} {length least most : UInt32}
    {mismatch tooShort tooLong : ErrorCode} :
    checkOptional buffer length least most mismatch tooShort tooLong = .ok () ↔
      (buffer = none → length = 0) ∧ (buffer ≠ none → least ≤ length ∧ length ≤ most) := by
  cases buffer with
  | none => simp [checkOptional, @eq_comm _ 0 length]
  | some bytes => simp [checkOptional, checks_eq_ok_iff]

/-- The buffers of a context that `validate_inputs` accepts. -/
structure BuffersValid (context : Context) : Prop where
  out : context.out ≠ none
  outlen : 4 ≤ context.outlen.toNat
  pwd : context.pwd = none → context.pwdlen = 0
  salt : context.salt = none → context.saltlen = 0
  saltlen : 8 ≤ context.saltlen.toNat
  secret : context.secret = none → context.secretlen = 0
  ad : context.ad = none → context.adlen = 0

/-- The costs that it accepts; memory and lanes are constrained together. -/
structure CostsValid (context : Context) : Prop where
  memory : 8 ≤ context.mCost.toNat
  memoryLanes : 8 * context.lanes.toNat ≤ context.mCost.toNat
  time : 1 ≤ context.tCost.toNat
  lanes : 1 ≤ context.lanes.toNat ∧ context.lanes.toNat ≤ 0xFFFFFF
  threads : 1 ≤ context.threads.toNat ∧ context.threads.toNat ≤ 0xFFFFFF
  callbacks : context.allocateCbk.isSome = context.freeCbk.isSome

theorem CostsValid.lanes_ne_zero {context : Context} (valid : CostsValid context) :
    context.lanes ≠ 0 := by
  intro zero
  have positive := valid.lanes.1
  rw [zero] at positive
  exact absurd positive (by decide)

theorem checkBuffers_eq_ok_iff {context : Context} :
    checkBuffers context = .ok () ↔ BuffersValid context := by
  simp only [checkBuffers, checks_eq_ok_iff, refuseIf_eq_ok_iff, checkRequired_eq_ok_iff,
    checkOptional_eq_ok_iff, gt_iff_lt, UInt32.not_lt, UInt32.le_iff_toNat_le]
  constructor
  · rintro ⟨out, outlen, -, ⟨pwd, -⟩, ⟨salt, saltlen, -⟩, ⟨secret, -⟩, ad, -⟩
    exact ⟨out, outlen, pwd, salt, saltlen, secret, ad⟩
  · rintro ⟨out, outlen, pwd, salt, saltlen, secret, ad⟩
    have most (length : UInt32) : length.toNat ≤ (0xFFFFFFFF : UInt32).toNat :=
      Nat.le_of_lt_succ length.toNat_lt
    have least (length : UInt32) : (0 : UInt32).toNat ≤ length.toNat := Nat.zero_le _
    exact ⟨out, outlen, most _, ⟨pwd, least _, most _⟩, ⟨salt, saltlen, most _⟩,
      ⟨secret, fun _ => ⟨least _, most _⟩⟩, ad, fun _ => ⟨least _, most _⟩⟩

/-- No 32-bit cost reaches the memory limit of a machine with 64-bit pointers. -/
theorem mCost_le_maxMemory (mCost : UInt32) : ¬ maxMemory < mCost.toUInt64 := by
  have limit : maxMemory.toNat = 0xFFFFFFFF := by decide +kernel
  rw [UInt64.lt_iff_toNat_lt, limit, UInt32.toNat_toUInt64]
  exact Nat.not_lt.mpr (Nat.le_of_lt_succ mCost.toNat_lt)

/-- The product of the joint check does not wrap for an admissible number of lanes. -/
theorem lanes_product {lanes : UInt32} (few : lanes.toNat ≤ 0xFFFFFF) :
    (8 * lanes).toNat = 8 * lanes.toNat := by
  rw [UInt32.toNat_mul]
  exact Nat.mod_eq_of_lt (show 8 * lanes.toNat < 2 ^ 32 by omega)

theorem callbacks_agree_iff {α β : Type} {allocate : Option α} {free : Option β} :
    (¬ (allocate.isSome ∧ free.isNone) ∧ ¬ (allocate.isNone ∧ free.isSome)) ↔
      allocate.isSome = free.isSome := by
  cases allocate <;> cases free <;> simp

theorem checkCosts_eq_ok_iff {context : Context} :
    checkCosts context = .ok () ↔ CostsValid context := by
  simp only [checkCosts, checks_eq_ok_iff, refuseIf_eq_ok_iff, callbacks_agree_iff]
  simp only [gt_iff_lt, UInt32.not_lt, UInt32.le_iff_toNat_le]
  constructor
  · rintro ⟨memory, -, joint, time, -, fewest, most, least, greatest, callbacks⟩
    rw [lanes_product most] at joint
    exact ⟨memory, joint, time, ⟨fewest, most⟩, ⟨least, greatest⟩, callbacks⟩
  · rintro ⟨memory, joint, time, ⟨fewest, most⟩, ⟨least, greatest⟩, callbacks⟩
    rw [← lanes_product most] at joint
    exact ⟨memory, mCost_le_maxMemory _, joint, time, Nat.le_of_lt_succ context.tCost.toNat_lt,
      fewest, most, least, greatest, callbacks⟩

theorem validateInputs_eq_ok_iff {context : Context} :
    validateInputs (some context) = .ok () ↔ BuffersValid context ∧ CostsValid context := by
  rw [validateInputs, checks_eq_ok_iff, checkBuffers_eq_ok_iff, checkCosts_eq_ok_iff]

/-- Too little memory for the lanes is refused before time and lanes are looked at. -/
theorem validateInputs_of_memory {context : Context} (buffers : BuffersValid context)
    (memory : 8 ≤ context.mCost.toNat) (few : context.lanes.toNat ≤ 0xFFFFFF)
    (little : context.mCost.toNat < 8 * context.lanes.toNat) :
    validateInputs (some context) = .error .memoryTooLittle := by
  have own : ¬ minMemory > context.mCost := by
    rw [gt_iff_lt, UInt32.not_lt, UInt32.le_iff_toNat_le]
    exact memory
  have joint : context.mCost < 8 * context.lanes := by
    rw [UInt32.lt_iff_toNat_lt, lanes_product few]
    exact little
  rw [validateInputs, checks_of_ok (checkBuffers_eq_ok_iff.mpr buffers), checkCosts,
    checks_of_ok (refuseIf_neg own), checks_of_ok (refuseIf_neg (mCost_le_maxMemory _)),
    checks_of_error (refuseIf_pos joint)]

/-! ## What a machine provides -/

section Provides

variable {machine : Machine} (provides : machine.Provides)

include provides

/-- Without a callback the blocks are allocated: their size does not wrap. -/
theorem allocateMemory_returns {context : Context} (own : context.allocateCbk = none)
    (num : UInt32) :
    ∃ memory, allocateMemory machine context num.toUInt64 blockSize = .ok memory := by
  have size : (num.toUInt64 * blockSize).toNat = num.toNat * 1024 := by
    rw [UInt64.toNat_mul, UInt32.toNat_toUInt64]
    exact Nat.mod_eq_of_lt (show num.toNat * 1024 < 2 ^ 64 by have := num.toNat_lt; omega)
  have exact : num.toUInt64 * blockSize / blockSize = num.toUInt64 := by
    rw [← UInt64.toNat_inj, UInt64.toNat_div, size, UInt32.toNat_toUInt64]
    exact Nat.mul_div_cancel _ (by decide)
  refine ⟨machine.malloc (num.toUInt64 * blockSize), ?_⟩
  rw [allocateMemory, checks_of_ok (refuseIf_neg fun ⟨_, wrapped⟩ => wrapped exact), own,
    checks_of_ok (refuseIf_neg (provides.malloc _))]
  rfl

theorem initializeInstance_returns {context : Context} (own : context.allocateCbk = none)
    (inst : Instance) :
    ∃ memory, initializeInstance machine context inst = .ok { inst with memory := memory } := by
  obtain ⟨memory, allocated⟩ := allocateMemory_returns provides own inst.memoryBlocks
  refine ⟨memory, ?_⟩
  rw [initializeInstance, allocated]
  rfl

theorem startSegment_returns (inst : Instance) (r s l : Nat) :
    startSegment machine inst r s l = .ok () := by
  rw [startSegment, checks_of_ok (refuseIf_neg fun ⟨_, failed⟩ => failed (provides.join r s _))]
  exact refuseIf_neg (not_not.mpr (provides.create r s l))

theorem fillSlice_returns (inst : Instance) (r s : Nat) :
    fillSlice machine inst r s = .ok () := by
  rw [fillSlice, checks_of_ok (forM_eq_ok fun l _ => startSegment_returns provides inst r s l)]
  exact forM_eq_ok fun l _ => refuseIf_neg (not_not.mpr (provides.join r s l))

theorem fillMemoryBlocksMt_returns (inst : Instance) :
    fillMemoryBlocksMt machine inst = .ok () := by
  rw [fillMemoryBlocksMt, checks_of_ok (refuseIf_neg (provides.calloc _ _)),
    checks_of_ok (refuseIf_neg (provides.calloc _ _))]
  exact forM_eq_ok fun r _ => forM_eq_ok fun s _ => fillSlice_returns provides inst r s

theorem fillMemoryBlocks_returns {inst : Instance} (lanes : inst.lanes ≠ 0) :
    fillMemoryBlocks machine inst = .ok () := by
  rw [fillMemoryBlocks, checks_of_ok (refuseIf_neg lanes)]
  split
  · rfl
  · exact fillMemoryBlocksMt_returns provides inst

end Provides

end UltraLocked.CArgon2
