import UltraLocked.Library.Heaps
import UltraLocked.CArgon2.Verify

/-!
# Memory taken and given back

`argon2_hash`, `argon2_verify` and what they call, with the regions of the heap that
they take, fill, wipe and give back. The process decides for every allocation whether
it fails, and in which order its threads take steps. Whatever leaves a region, writes
behind its end or uses one that is not there has no result. What is on the stack is not
part of this, and `FLAG_clear_internal_memory` is 1, which nothing changes.
-/

namespace UltraLocked.CArgon2

open Library

inductive Contents where
  | bytes (bytes : List UInt8)
  | blocks (memory : Memory)
  /-- Thread handles, or the data of threads. -/
  | threads

namespace Contents

/-- Nothing is left there of what is hashed. -/
def Clean : Contents → Prop
  | bytes buffer => ∀ byte ∈ buffer, byte = 0
  | blocks memory => ∀ block ∈ memory, block = zeroBlock
  | threads => True

def bytes? : Contents → Option (List UInt8)
  | bytes buffer => some buffer
  | _ => none

def blocks? : Contents → Option Memory
  | blocks memory => some memory
  | _ => none

end Contents

def blocksOf (bytes : List UInt8) : Memory :=
  Array.ofFn fun i : Fin (bytes.length / blockBytes) => loadBlock (bytes.drop (blockBytes * i))

def Control.isReturned : Control → Bool
  | .returned _ => true
  | _ => false

/-- The main thread has returned, or what happened is not defined. -/
def Control.Ended (control : Control) : Prop :=
  (∃ code, control = .returned code) ∨ control = .undefined

/-- What a process meets with: allocations are numbered. -/
structure Process where
  machine : Machine
  malloc : Nat → UInt64 → Pointer
  calloc : Nat → UInt64 → UInt64 → Pointer
  /-- Who takes a step, one after the other, until the main thread has returned. -/
  schedule : Instance → Memory → List Actor
  /-- What `decode_string` has written to a buffer when it fails. -/
  halfway : Nat → List UInt8
  length_malloc : ∀ n size bytes, malloc n size = some bytes → bytes.length = size.toNat
  ends : ∀ context type memory, CostsValid context →
    memory.size = (instanceOf context type).memoryBlocks.toNat →
      (Mt.follow machine (instanceOf context type) (schedule (instanceOf context type) memory)
        (Mt.start (instanceOf context type) memory)).control.Ended

/-! ## Regions of bytes and of blocks -/

/-- The bytes of a region, of which the first `n` are used. -/
def readBytes (region n : Nat) : HeapM Contents (List UInt8) :=
  Heap.read region fun contents => do
    let bytes ← contents.bytes?
    if n ≤ bytes.length then some bytes else none

/-- Bytes written to the front of a region. -/
def writeBytes (region : Nat) (written : List UInt8) : HeapM Contents Unit :=
  Heap.change region fun contents => do
    let bytes ← contents.bytes?
    if written.length ≤ bytes.length then some (.bytes (written ++ bytes.drop written.length))
    else none

def clearInternalMemory (region n : Nat) : HeapM Contents Unit :=
  writeBytes region (List.replicate n 0)

def changeBlocks (region : Nat) (f : Memory → Option Memory) : HeapM Contents Unit :=
  Heap.change region fun contents => do
    let memory ← f (← contents.blocks?)
    pure (.blocks memory)

/-- `free_memory` of `num` blocks, with a callback or without. -/
def freeMemory (memory : Nat) (num : UInt32) : HeapM Contents Unit := do
  changeBlocks memory fun blocks =>
    if num.toNat ≤ blocks.size then
      some (Array.replicate num.toNat zeroBlock ++ blocks.extract num.toNat)
    else none
  Heap.release memory

/-- The way out of `fill_memory_blocks_mt`. -/
def freeThreads (thread thrData : Option Nat) : HeapM Contents Unit := do
  Heap.releaseIf thread
  Heap.releaseIf thrData

/-- The way out of `argon2_verify`. -/
def freeBuffers (salt out desiredResult : Option Nat) : HeapM Contents Unit := do
  Heap.releaseIf salt
  Heap.releaseIf out
  Heap.releaseIf desiredResult

section Operations

variable {heap : Heap Contents} {n region : Nat} {own later : List (Nat × Contents)}
  {more : List Contents} {bytes : List UInt8} {blocks : Memory}
  (apart : ∀ entry ∈ later, entry.1 ≠ region)

include apart

theorem bytes_eq :
    Heap.read region Contents.bytes?
        (heap.after n (later ++ (region, .bytes bytes) :: own) more) =
      some (bytes, heap.after n (later ++ (region, .bytes bytes) :: own) more) :=
  Heap.read_eq apart rfl

end Operations

/-! ## Threads -/

/-- The regions of `fill_memory_blocks_mt`. -/
structure ThreadRegions where
  memory : Nat
  thread : Nat
  thrData : Nat

/-- The regions that a step works on: a thread is given its position once it has read its data. -/
def Mt.uses (state : Mt) (regions : ThreadRegions) : Actor → List Nat
  | .main => [regions.thread, regions.thrData]
  | .lane l =>
      match state.thread l with
      | .created => [regions.thrData]
      | _ => [regions.memory]

def Control.result : Control → HeapM Contents (Except ErrorCode Unit)
  | .returned code => pure code
  | _ => failure

/-- The main thread gives the arrays back when it returns. -/
def ThreadRegions.leave (regions : ThreadRegions) (control : Control) : HeapM Contents Unit :=
  if control.isReturned then freeThreads (some regions.thread) (some regions.thrData)
  else pure ()

def Mt.stepOver (machine : Machine) (inst : Instance) (regions : ThreadRegions) (state : Mt)
    (actor : Actor) : HeapM Contents Mt :=
  match state.step machine inst actor with
  | none => pure state
  | some next => do
      (state.uses regions actor).forM fun region => Heap.read region fun _ => some ()
      changeBlocks regions.memory fun _ => some next.memory
      regions.leave next.control
      pure next

/-! ## The calls of a process -/

namespace Process

variable (process : Process)

def takeBytes (size : UInt64) : HeapM Contents (Option Nat) :=
  Heap.allocate fun n => (process.malloc n size).map .bytes

def takeThreads (count size : UInt64) : HeapM Contents (Option Nat) :=
  Heap.allocate fun n => (process.calloc n count size).map fun _ => .threads

def allocateMemory (context : Context) (num size : UInt64) :
    HeapM Contents (Except ErrorCode Nat) := do
  let memorySize := num * size
  if size ≠ 0 ∧ memorySize / size ≠ num then pure (.error .memoryAllocationError)
  else
    let memory ← match context.allocateCbk with
      | some allocate => Heap.allocate fun _ => (allocate memorySize).map .bytes
      | none => process.takeBytes memorySize
    match memory with
    | none => pure (.error .memoryAllocationError)
    | some memory => pure (.ok memory)

/-- `initialize`: the first blocks are hashed into the memory. -/
def initializeInstance (context : Context) (inst : Instance) :
    HeapM Contents (Except ErrorCode Nat) := do
  match ← process.allocateMemory context inst.memoryBlocks.toUInt64 blockSize with
  | .error code => pure (.error code)
  | .ok memory => do
      Heap.change memory fun contents => do
        let blocks ← fillFirstBlocks (initialHash context inst.type).1 inst
          (blocksOf (← contents.bytes?))
        pure (.blocks blocks)
      pure (.ok memory)

/-- The threads of `fill_memory_blocks_mt`, once there is room for them. -/
def runThreads (inst : Instance) (regions : ThreadRegions) :
    HeapM Contents (Except ErrorCode Unit) := do
  let blocks ← Heap.read regions.memory Contents.blocks?
  let state ← (process.schedule inst blocks).foldlM (Mt.stepOver process.machine inst regions)
    (Mt.start inst blocks)
  state.control.result

def fillMemoryBlocksMt (inst : Instance) (memory : Nat) :
    HeapM Contents (Except ErrorCode Unit) := do
  match ← process.takeThreads inst.lanes.toUInt64 8 with
  | none => do
      freeThreads none none
      pure (.error .memoryAllocationError)
  | some thread =>
      match ← process.takeThreads inst.lanes.toUInt64 24 with
      | none => do
          freeThreads (some thread) none
          pure (.error .memoryAllocationError)
      | some thrData => process.runThreads inst ⟨memory, thread, thrData⟩

def fillMemoryBlocks (inst : Instance) (memory : Nat) :
    HeapM Contents (Except ErrorCode Unit) :=
  if inst.lanes = 0 then pure (.error .incorrectParameter)
  else if inst.threads = 1 then do
    changeBlocks memory fun blocks => (inst.fillMemoryBlocksSt blocks).map Prod.snd
    pure (.ok ())
  else process.fillMemoryBlocksMt inst memory

end Process

/-- `finalize`: the tag goes to the output. -/
def finalizeInto (context : Context) (inst : Instance) (out memory : Nat) :
    HeapM Contents Unit := do
  let blocks ← Heap.read memory Contents.blocks?
  let tag ← finalize (initialHash context inst.type).2 inst blocks
  writeBytes out tag
  freeMemory memory inst.memoryBlocks

/-- `argon2_hash` once the tag is in its output -/
def passHash (arguments : HashArguments) (encodedlen out : Nat) :
    HeapM Contents (Except FormCode Hashed) := do
  let written ← readBytes out arguments.hashlen.toNat
  let context := contextOf (some written) arguments
  let hash := written.take arguments.hashlen.toNat
  if encodedlen = 0 then do
    clearInternalMemory out arguments.hashlen.toNat
    Heap.release out
    pure (.ok ⟨hash, none⟩)
  else
    match encodeString encodedlen context arguments.type with
    | .error _ => do
        clearInternalMemory out arguments.hashlen.toNat
        Heap.release out
        pure (.error .encodingFail)
    | .ok text => do
        clearInternalMemory out arguments.hashlen.toNat
        Heap.release out
        pure (.ok ⟨hash, some text⟩)

namespace Process

variable (process : Process)

/-- `argon2_ctx` with its output in a region -/
def argon2Ctx (context : Context) (type : UInt32) (out : Nat) :
    HeapM Contents (Except ErrorCode Unit) :=
  match validateInputs (some context) with
  | .error code => pure (.error code)
  | .ok () =>
      if argon2d ≠ type ∧ argon2i ≠ type ∧ argon2id ≠ type then pure (.error .incorrectType)
      else do
        let inst := instanceOf context type
        match ← process.initializeInstance context inst with
        | .error code => pure (.error code)
        | .ok memory => do
            match ← process.fillMemoryBlocks inst memory with
            | .error code => pure (.error code)
            | .ok () => do
                finalizeInto context inst out memory
                pure (.ok ())

/-- `argon2_hash`, with the encoded form where a length for it is given -/
def argon2Hash (arguments : HashArguments) (encodedlen : Nat) :
    HeapM Contents (Except FormCode Hashed) :=
  match checkLengths arguments with
  | .error code => pure (.error (.refused code))
  | .ok () => do
      match ← process.takeBytes arguments.hashlen with
      | none => pure (.error (.refused .memoryAllocationError))
      | some out => do
          let context := contextOf (some (← Heap.read out Contents.bytes?)) arguments
          match ← process.argon2Ctx context arguments.type out with
          | .error code => do
              clearInternalMemory out arguments.hashlen.toNat
              Heap.release out
              pure (.error (.refused code))
          | .ok () => passHash arguments encodedlen out

def argon2VerifyCtx (context : Context) (hash : Nat) (type : UInt32) (out : Nat) :
    HeapM Contents (Except FormCode Unit) := do
  match ← process.argon2Ctx context type out with
  | .error code => pure (.error (.refused code))
  | .ok () => do
      let b1 ← readBytes hash context.outlen.toNat
      let b2 ← readBytes out context.outlen.toNat
      pure (refuseIf (argon2Compare b1 b2 context.outlen.toNat ≠ 0) .verifyMismatch)

/-- `argon2_verify` once it has buffers for the salt and the tag of the text -/
def verifyInto (encoded : List UInt8) (pwd : Pointer) (pwdlen : UInt64) (type : UInt32)
    (salt out : Nat) : HeapM Contents (Except FormCode Unit) := do
  let maxFieldLen := UInt32.ofNat (strlen encoded)
  let context := verifyContext (some (← Heap.read salt Contents.bytes?))
    (some (← Heap.read out Contents.bytes?)) pwd maxFieldLen pwdlen.toUInt32
  match decodeString context encoded type with
  | .error code => do
      writeBytes salt ((process.halfway salt).take maxFieldLen.toNat)
      writeBytes out ((process.halfway out).take maxFieldLen.toNat)
      freeBuffers (some salt) (some out) none
      pure (.error code)
  | .ok context => do
      writeBytes salt (context.salt.getD [])
      writeBytes out (context.out.getD [])
      let desiredResult := out
      match ← process.takeBytes context.outlen.toUInt64 with
      | none => do
          freeBuffers (some salt) none (some desiredResult)
          pure (.error (.refused .memoryAllocationError))
      | some out => do
          let context := { context with out := some (← Heap.read out Contents.bytes?) }
          let ret ← process.argon2VerifyCtx context desiredResult type out
          freeBuffers (some salt) (some out) (some desiredResult)
          pure ret

def argon2Verify (encoded pwd : Pointer) (pwdlen : UInt64) (type : UInt32) :
    HeapM Contents (Except FormCode Unit) :=
  if pwdlen > maxPwdLength.toUInt64 then pure (.error (.refused .pwdTooLong))
  else match encoded with
    | none => pure (.error .decodingFail)
    | some encoded =>
        if strlen encoded > 0xFFFFFFFF then pure (.error .decodingFail)
        else do
          let maxFieldLen := UInt32.ofNat (strlen encoded)
          match ← process.takeBytes maxFieldLen.toUInt64,
              ← process.takeBytes maxFieldLen.toUInt64 with
          | some salt, some out => process.verifyInto encoded pwd pwdlen type salt out
          | salt, out => do
              freeBuffers salt out none
              pure (.error (.refused .memoryAllocationError))

end Process

end UltraLocked.CArgon2
