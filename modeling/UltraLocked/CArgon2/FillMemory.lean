import UltraLocked.CArgon2.FillSegment
import UltraLocked.CArgon2.Blake2bLong
import UltraLocked.CArgon2.InitialHash

/-!
# Filling the memory with one thread

`fill_first_blocks`, `fill_memory_blocks_st` and `finalize` of `core.c`: all
that lies between the inputs of a hash and its tag when no other thread runs.
-/

namespace UltraLocked.CArgon2

open Library Blake2b

/-- A write to the memory; outside of it there is none. -/
def writeBlock (memory : Memory) (offset : Nat) (block : Block) : Option Memory :=
  if offset < memory.size then some (memory.setIfInBounds offset block) else none

/-- `ARGON2_BLOCK_SIZE` -/
def blockBytes : Nat := 1024

/-- The block that is hashed from the seed with two numbers behind it. -/
def seedBlock (blockhash : List UInt8) (column lane : UInt32) : Block :=
  loadBlock ((blake2bLong blockBytes (blockhash ++ store32 column ++ store32 lane)).getD [])

/-- The turn of `fill_first_blocks` for one lane. -/
def fillFirstTwo (blockhash : List UInt8) (inst : Instance) (memory : Memory) (l : Nat) :
    Option Memory := do
  let lane := UInt32.ofNat l
  let memory ← writeBlock memory (lane * inst.laneLength + 0).toNat (seedBlock blockhash 0 lane)
  writeBlock memory (lane * inst.laneLength + 1).toNat (seedBlock blockhash 1 lane)

def fillFirstBlocks (blockhash : List UInt8) (inst : Instance) (memory : Memory) :
    Option Memory :=
  (List.range inst.lanes.toNat).foldlM (fillFirstTwo blockhash inst) memory

/-- One segment more: the cells touched so far, and the memory. -/
def fillNext (inst : Instance) (r s : Nat) (filled : List Access × Memory) (l : Nat) :
    Option (List Access × Memory) := do
  let (touched, memory) ← fillSegment inst (segmentPosition r s l) filled.2
  pure (filled.1 ++ touched, memory)

/-- `fill_memory_blocks_st`, with the cells it touches in order. -/
def Instance.fillMemoryBlocksSt (inst : Instance) (memory : Memory) :
    Option (List Access × Memory) :=
  (List.range inst.passes.toNat).foldlM (fun filled r =>
    (List.range syncPoints.toNat).foldlM (fun filled s =>
      (List.range inst.lanes.toNat).foldlM (fillNext inst r s) filled) filled) ([], memory)

def lastBlock (inst : Instance) (memory : Memory) (l : UInt32) : Option Block :=
  memory[(l * inst.laneLength + (inst.laneLength - 1)).toNat]?

/-- `finalize`: the tag that it writes. -/
def finalize (context : Context) (inst : Instance) (memory : Memory) : Option (List UInt8) := do
  let first ← memory[(inst.laneLength - 1).toNat]?
  let blockhash ← ((List.range inst.lanes.toNat).drop 1).foldlM (fun blockhash l => do
    let last ← lastBlock inst memory (UInt32.ofNat l)
    pure (xorBlock blockhash last)) first
  blake2bLong context.outlen.toNat (storeBlock blockhash)

/-- From the inputs to the tag: `initial_hash` and all that follows it. -/
def tagSt (context : Context) (inst : Instance) (memory : Memory) : Option (List UInt8) := do
  let (blockhash, context) := initialHash context inst.type
  let memory ← fillFirstBlocks blockhash inst memory
  let (_, memory) ← inst.fillMemoryBlocksSt memory
  finalize context inst memory

end UltraLocked.CArgon2
