import UltraLocked.CArgon2.Addressing
import UltraLocked.CArgon2.Block

/-!
# Filling a segment

`fill_segment` of `ref.c`. The memory is an array of blocks; a read or a write
outside of it is `none`. One turn of the loop is a function of its own, since
threads take turns in between each other's.
-/

namespace UltraLocked.CArgon2

def version10 : UInt32 := 0x10

def addressesInBlock : UInt32 := 128

abbrev Memory : Type := Array Block

/-- The position at which the segment of a pass, slice and lane begins. -/
def segmentPosition (r s l : Nat) : Position where
  pass := UInt32.ofNat r
  lane := UInt32.ofNat l
  slice := UInt8.ofNat s
  index := 0

/-- `data_independent_addressing` -/
def dataIndependent (inst : Instance) (position : Position) : Bool :=
  inst.type = argon2i ∨
    (inst.type = argon2id ∧ position.pass = 0 ∧ position.slice.toUInt32 < syncPoints / 2)

/-- The variables of `fill_segment` that change from turn to turn. -/
structure Cursor where
  i : UInt32
  currOffset : UInt32
  prevOffset : UInt32
  inputBlock : Block
  addressBlock : Block

def nextAddresses (inputBlock : Block) : Block × Block :=
  let inputBlock := inputBlock.set 6 (inputBlock[6] + 1)
  let addressBlock := fillBlock zeroBlock inputBlock zeroBlock false
  (inputBlock, fillBlock zeroBlock addressBlock addressBlock false)

/-- The input block before the first call of `next_addresses`. -/
def firstInput (inst : Instance) (position : Position) : Block :=
  (((((zeroBlock.set 0 position.pass.toUInt64).set 1 position.lane.toUInt64).set 2
    position.slice.toUInt64).set 3 inst.memoryBlocks.toUInt64).set 4
    inst.passes.toUInt64).set 5 inst.type.toUInt64

/-- `starting_index`: the first two blocks of a lane are there already. -/
def startingIndex (position : Position) : UInt32 :=
  if 0 = position.pass ∧ 0 = position.slice then 2 else 0

/-- The variables before the loop; blocks that are not initialised are never read. -/
def Cursor.start (inst : Instance) (position : Position) : Cursor :=
  let inputBlock := firstInput inst position
  let blocks := if (0 = position.pass ∧ 0 = position.slice) ∧ dataIndependent inst position then
    nextAddresses inputBlock else (inputBlock, zeroBlock)
  let currOffset := position.lane * inst.laneLength +
    position.slice.toUInt32 * inst.segmentLength + startingIndex position
  { i := startingIndex position
    currOffset := currOffset
    prevOffset := if 0 = currOffset % inst.laneLength then currOffset + inst.laneLength - 1
      else currOffset - 1
    inputBlock := blocks.1
    addressBlock := blocks.2 }

/-- The variables once the turn has rotated the offset and fetched its addresses. -/
def Cursor.prepare (inst : Instance) (position : Position) (cursor : Cursor) : Cursor :=
  let cursor := if cursor.currOffset % inst.laneLength = 1 then
    { cursor with prevOffset := cursor.currOffset - 1 } else cursor
  if dataIndependent inst position ∧ cursor.i % addressesInBlock = 0 then
    { cursor with
      inputBlock := (nextAddresses cursor.inputBlock).1
      addressBlock := (nextAddresses cursor.inputBlock).2 }
  else cursor

def Cursor.next (inst : Instance) (position : Position) (cursor : Cursor) : Cursor :=
  let cursor := cursor.prepare inst position
  { cursor with
    i := cursor.i + 1
    currOffset := cursor.currOffset + 1
    prevOffset := cursor.prevOffset + 1 }

/-- `pseudo_rand`, for a prepared turn. -/
def pseudoRand (inst : Instance) (position : Position) (cursor : Cursor) (memory : Memory) :
    Option UInt64 :=
  if dataIndependent inst position then
    cursor.addressBlock[(cursor.i % addressesInBlock).toNat]?
  else (memory[cursor.prevOffset.toNat]?).map fun block => block[0]

/-- The cells that a turn touches: it reads the first two and writes the last one. -/
structure Access where
  prev : Nat
  ref : Nat
  curr : Nat
  deriving DecidableEq, Repr

/-- The cells of a prepared turn. -/
def accessOf (inst : Instance) (position : Position) (cursor : Cursor) (rand : UInt64) :
    Access :=
  let refLane := if position.pass = 0 ∧ position.slice = 0 then position.lane.toUInt64
    else (rand >>> 32) % inst.lanes.toUInt64
  let refIndex := indexAlpha inst { position with index := cursor.i }
    (rand &&& 0xFFFFFFFF).toUInt32 (refLane = position.lane.toUInt64)
  { prev := cursor.prevOffset.toNat
    ref := (inst.laneLength.toUInt64 * refLane + refIndex.toUInt64).toNat
    curr := cursor.currOffset.toNat }

/-- Version 1.2.1 and the first pass overwrite. -/
def mixesOld (inst : Instance) (position : Position) : Bool :=
  version10 ≠ inst.version ∧ 0 ≠ position.pass

/-- One turn of the loop: the cells it touches and the memory after it. -/
def turn (inst : Instance) (position : Position) (cursor : Cursor) (memory : Memory) :
    Option (Access × Memory) := do
  let cursor := cursor.prepare inst position
  let rand ← pseudoRand inst position cursor memory
  let access := accessOf inst position cursor rand
  let prevBlock ← memory[access.prev]?
  let refBlock ← memory[access.ref]?
  let currBlock ← memory[access.curr]?
  pure (access, memory.setIfInBounds access.curr
    (fillBlock prevBlock refBlock currBlock (mixesOld inst position)))

/-- The loop from a turn on: what it touches, and the memory it leaves. -/
def fillFrom (inst : Instance) (position : Position) (cursor : Cursor) (memory : Memory) :
    Option (List Access × Memory) := do
  if cursor.i < inst.segmentLength then
    let (access, memory) ← turn inst position cursor memory
    let (behind, memory) ← fillFrom inst position (cursor.next inst position) memory
    pure (access :: behind, memory)
  else pure ([], memory)
termination_by inst.segmentLength.toNat - cursor.i.toNat
decreasing_by
  rename_i more
  have same : (cursor.next inst position).i = cursor.i + 1 := by
    rw [Cursor.next, Cursor.prepare]
    split <;> split <;> rfl
  have bound := inst.segmentLength.toNat_lt
  rw [UInt32.lt_iff_toNat_lt] at more
  rw [same, add_toNat (by change cursor.i.toNat + 1 < 2 ^ 32; omega)]
  change inst.segmentLength.toNat - (cursor.i.toNat + 1) < _
  omega

def fillSegment (inst : Instance) (position : Position) (memory : Memory) :
    Option (List Access × Memory) :=
  fillFrom inst position (Cursor.start inst position) memory

end UltraLocked.CArgon2
