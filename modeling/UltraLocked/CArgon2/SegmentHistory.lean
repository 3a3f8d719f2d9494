import UltraLocked.CArgon2.LaneHistory

/-!
# Segments continue the lanes

A turn of `fill_segment` writes the next block of its lane, as long as the
memory holds the last round of every lane and no lane is more than a segment
ahead. The variables of the loop are those that count along the lane.
-/

namespace UltraLocked.CArgon2

open Library

/-! ## Addresses -/

theorem six_lt_words : 6 < 128 := by decide

/-- The input block after `n` calls of `next_addresses`. -/
def inputAfter (inst : Instance) (position : Position) (n : Nat) : Block :=
  (firstInput inst position).set 6 (UInt64.ofNat n) six_lt_words

/-- The address block of the `n`-th call. -/
def addressesAfter (inst : Instance) (position : Position) (n : Nat) : Block :=
  fillBlock zeroBlock (fillBlock zeroBlock (inputAfter inst position n) zeroBlock false)
    zeroBlock false

theorem inputAfter_zero (inst : Instance) (position : Position) :
    inputAfter inst position 0 = firstInput inst position := by
  apply Vector.ext
  intro k bound
  rw [inputAfter, Vector.getElem_set]
  split
  · rename_i six
    subst six
    simp [firstInput, zeroBlock]
  · rfl

theorem nextAddresses_inputAfter (inst : Instance) (position : Position) (n : Nat) :
    nextAddresses (inputAfter inst position n) =
      (inputAfter inst position (n + 1), addressesAfter inst position (n + 1)) := by
  have counted : (inputAfter inst position n).set 6 ((inputAfter inst position n)[6] + 1) =
      inputAfter inst position (n + 1) := by
    rw [inputAfter, inputAfter, Vector.getElem_set_self, Vector.set_set, UInt64.ofNat_add]
    rfl
  rw [nextAddresses, counted, addressesAfter]
  exact Prod.ext rfl (fillBlock_overwrites _ _ _ _)

/-- The lanes of an instance. -/
def Instance.filling (inst : Instance) (geometry : Geometry) (first : Nat → Nat → Block) :
    Filling where
  geometry := geometry
  first := first
  addressed segment := inst.type = argon2i ∨ (inst.type = argon2id ∧ segment < 2)
  address lane t :=
    let segment := t / geometry.segment
    let index := t % geometry.segment
    (addressesAfter inst (segmentPosition (segment / 4) (segment % 4) lane) (index / 128 + 1)).get
      ⟨index % 128, Nat.mod_lt _ (by decide)⟩
  mixes := version10 ≠ inst.version

@[simp] theorem Instance.filling_geometry (inst : Instance) (geometry : Geometry)
    (first : Nat → Nat → Block) : (inst.filling geometry first).geometry = geometry := rfl

/-! ## A place in a segment -/

/-- Block `i` of the segment of a pass, slice and lane. -/
structure Place (geometry : Geometry) where
  r : Nat
  s : Nat
  l : Nat
  i : Nat
  pass_lt : r < 2 ^ 32
  slice_lt : s < 4
  lane_lt : l < geometry.lanes

namespace Place

variable {geometry : Geometry} (place : Place geometry)

/-- The number of the segment. -/
def segment : Nat := 4 * place.r + place.s

/-- The column of the block. -/
def column : Nat := place.s * geometry.segment + place.i

/-- The number of the block. -/
def block : Nat := place.segment * geometry.segment + place.i

def position : Position := segmentPosition place.r place.s place.l

theorem lanes_lt : place.l < 2 ^ 32 := by
  have room := geometry.fits
  have least := geometry.two_le
  have more : geometry.lanes * 1 ≤ geometry.lanes * (4 * geometry.segment) :=
    Nat.mul_le_mul_left _ (by omega)
  have := place.lane_lt
  omega

theorem pass_toNat : place.position.pass.toNat = place.r := Nat.mod_eq_of_lt place.pass_lt

theorem lane_toNat : place.position.lane.toNat = place.l := Nat.mod_eq_of_lt place.lanes_lt

theorem slice_toNat : place.position.slice.toNat = place.s :=
  Nat.mod_eq_of_lt (Nat.lt_trans place.slice_lt (by decide))

theorem block_eq : place.block = place.r * geometry.columns + place.column := by
  rw [block, segment, column, Geometry.columns, Nat.add_mul, Nat.add_assoc, Nat.mul_comm 4,
    Nat.mul_assoc]

theorem column_lt (inside : place.i < geometry.segment) : place.column < geometry.columns := by
  have most : place.s * geometry.segment ≤ 3 * geometry.segment :=
    Nat.mul_le_mul_right _ (Nat.le_of_lt_succ place.slice_lt)
  rw [column, Geometry.columns]
  omega

theorem block_mod (inside : place.i < geometry.segment) :
    place.block % geometry.columns = place.column := by
  rw [block_eq, Nat.mul_comm, Nat.mul_add_mod, Nat.mod_eq_of_lt (place.column_lt inside)]

theorem block_div_segment (inside : place.i < geometry.segment) :
    place.block / geometry.segment = place.segment := by
  rw [block, Nat.mul_comm, Nat.mul_add_div (Nat.zero_lt_of_lt inside),
    Nat.div_eq_of_lt inside, Nat.add_zero]

theorem block_mod_segment (inside : place.i < geometry.segment) :
    place.block % geometry.segment = place.i := by
  rw [block, Nat.mul_comm, Nat.mul_add_mod, Nat.mod_eq_of_lt inside]

/-- The cell of a block of the lane. -/
theorem cell_eq (inside : place.i < geometry.segment) :
    Rings.cell geometry.columns place.l place.block =
      place.l * geometry.columns + place.column := by
  rw [Rings.cell, place.block_mod inside]

/-- The cell of the block before, up to the end of the segment. -/
theorem cell_pred (inside : place.i ≤ geometry.segment) (later : place.column ≠ 0) :
    Rings.cell geometry.columns place.l (place.block - 1) + 1 =
      place.l * geometry.columns + place.column := by
  have bound : place.column ≤ geometry.columns := by
    have most : place.s * geometry.segment ≤ 3 * geometry.segment :=
      Nat.mul_le_mul_right _ (Nat.le_of_lt_succ place.slice_lt)
    rw [column, Geometry.columns]
    omega
  have before : (place.block - 1) % geometry.columns = place.column - 1 := by
    have split : place.block - 1 = geometry.columns * place.r + (place.column - 1) := by
      rw [block_eq, Nat.mul_comm]
      omega
    rw [split, Nat.mul_add_mod, Nat.mod_eq_of_lt (by omega)]
  rw [Rings.cell, before]
  omega

/-- The block before the first column is in the last one. -/
theorem cell_pred_first (first : place.column = 0) (repeated : 0 < place.r) :
    Rings.cell geometry.columns place.l (place.block - 1) =
      place.l * geometry.columns + geometry.columns - 1 := by
  have positive := geometry.columns_pos
  obtain ⟨before, passes⟩ := Nat.exists_eq_succ_of_ne_zero (Nat.pos_iff_ne_zero.mp repeated)
  have last : (place.block - 1) % geometry.columns = geometry.columns - 1 := by
    have split : place.block - 1 = geometry.columns * before + (geometry.columns - 1) := by
      rw [block_eq, first, passes, Nat.succ_mul, Nat.mul_comm]
      omega
    rw [split, Nat.mul_add_mod, Nat.mod_eq_of_lt (by omega)]
  rw [Rings.cell, last]
  omega

/-- Whether the segment is the very first of its lane. -/
theorem opening_iff :
    (0 = place.position.pass ∧ 0 = place.position.slice) ↔ place.r = 0 ∧ place.s = 0 := by
  rw [← UInt32.toNat_inj, ← UInt8.toNat_inj, place.pass_toNat, place.slice_toNat]
  exact and_congr eq_comm eq_comm

theorem startingIndex_toNat :
    (startingIndex place.position).toNat = if place.r = 0 ∧ place.s = 0 then 2 else 0 := by
  rw [startingIndex]
  by_cases opening : place.r = 0 ∧ place.s = 0
  · rw [if_pos opening, if_pos (place.opening_iff.mpr opening)]
    rfl
  · rw [if_neg opening, if_neg (mt place.opening_iff.mp opening)]
    rfl

/-- The next block of the segment. -/
def next : Place geometry := { place with i := place.i + 1 }

end Place

/-! ## The variables of the loop -/

/-- The variables at the head of the loop, at a place. -/
structure Cursor.At (inst : Instance) {geometry : Geometry} (place : Place geometry)
    (cursor : Cursor) : Prop where
  i : cursor.i.toNat = place.i
  curr : cursor.currOffset.toNat = place.l * geometry.columns + place.column
  prev : place.column ≠ 1 →
    cursor.prevOffset.toNat = Rings.cell geometry.columns place.l (place.block - 1)
  addresses : dataIndependent inst place.position = true →
    cursor.inputBlock = inputAfter inst place.position ((place.i + 127) / 128) ∧
      (place.i % 128 ≠ 0 →
        cursor.addressBlock = addressesAfter inst place.position ((place.i + 127) / 128))

/-- The variables of a turn that is prepared. -/
structure Cursor.Ready (inst : Instance) {geometry : Geometry} (place : Place geometry)
    (cursor : Cursor) : Prop where
  i : cursor.i.toNat = place.i
  curr : cursor.currOffset.toNat = Rings.cell geometry.columns place.l place.block
  prev : cursor.prevOffset.toNat = Rings.cell geometry.columns place.l (place.block - 1)
  addresses : dataIndependent inst place.position = true →
    cursor.inputBlock = inputAfter inst place.position (place.i / 128 + 1) ∧
      cursor.addressBlock = addressesAfter inst place.position (place.i / 128 + 1)

section Loop

variable {inst : Instance} {geometry : Geometry} (laid : inst.Laid geometry)
  {place : Place geometry}

theorem Cursor.prepare_i (position : Position) (cursor : Cursor) :
    (cursor.prepare inst position).i = cursor.i := by
  rw [Cursor.prepare]
  split <;> split <;> rfl

theorem Cursor.prepare_currOffset (position : Position) (cursor : Cursor) :
    (cursor.prepare inst position).currOffset = cursor.currOffset := by
  rw [Cursor.prepare]
  split <;> split <;> rfl

theorem Cursor.prepare_prevOffset (position : Position) (cursor : Cursor) :
    (cursor.prepare inst position).prevOffset =
      if cursor.currOffset % inst.laneLength = 1 then cursor.currOffset - 1
      else cursor.prevOffset := by
  rw [Cursor.prepare]
  split <;> split <;> rfl

theorem Cursor.prepare_blocks (position : Position) (cursor : Cursor) :
    ((cursor.prepare inst position).inputBlock, (cursor.prepare inst position).addressBlock) =
      if dataIndependent inst position ∧ cursor.i % addressesInBlock = 0 then
        nextAddresses cursor.inputBlock
      else (cursor.inputBlock, cursor.addressBlock) := by
  rw [Cursor.prepare]
  split <;> split <;> rfl

include laid

/-- The column of a cell, in 32 bits. -/
theorem currOffset_mod (inside : place.i < geometry.segment) {offset : UInt32}
    (curr : offset.toNat = place.l * geometry.columns + place.column) :
    (offset % inst.laneLength).toNat = place.column := by
  rw [UInt32.toNat_mod, curr, laid.laneLength, Nat.mul_comm, Nat.mul_add_mod,
    Nat.mod_eq_of_lt (place.column_lt inside)]

/-- Preparing a turn rotates the offset behind the first column and fetches addresses. -/
theorem Cursor.At.prepare {cursor : Cursor} (here : cursor.At inst place)
    (inside : place.i < geometry.segment) :
    (cursor.prepare inst place.position).Ready inst place where
  i := by rw [Cursor.prepare_i, here.i]
  curr := by rw [Cursor.prepare_currOffset, here.curr, place.cell_eq inside]
  prev := by
    have column := currOffset_mod laid inside here.curr
    rw [Cursor.prepare_prevOffset]
    by_cases second : place.column = 1
    · have rotated : cursor.currOffset % inst.laneLength = 1 :=
        UInt32.toNat_inj.mp (column.trans second)
      have before := place.cell_pred inside.le (by omega)
      rw [if_pos rotated, sub_one_toNat (by rw [here.curr]; omega), here.curr]
      omega
    · have kept : cursor.currOffset % inst.laneLength ≠ 1 := fun rotated =>
        second (column.symm.trans (congrArg UInt32.toNat rotated))
      rw [if_neg kept, here.prev second]
  addresses := by
    intro independent
    obtain ⟨input, address⟩ := here.addresses independent
    have remainder : (cursor.i % addressesInBlock).toNat = place.i % 128 := by
      rw [UInt32.toNat_mod, here.i]
      rfl
    have blocks : ((cursor.prepare inst place.position).inputBlock,
        (cursor.prepare inst place.position).addressBlock) = _ :=
      Cursor.prepare_blocks place.position cursor
    by_cases fresh : place.i % 128 = 0
    · have fetched : cursor.i % addressesInBlock = 0 :=
        UInt32.toNat_inj.mp (remainder.trans fresh)
      have calls : (place.i + 127) / 128 = place.i / 128 := by omega
      rw [if_pos ⟨independent, fetched⟩, input, calls, nextAddresses_inputAfter] at blocks
      exact ⟨congrArg Prod.fst blocks, congrArg Prod.snd blocks⟩
    · have held : ¬ (dataIndependent inst place.position ∧ cursor.i % addressesInBlock = 0) :=
        fun both => fresh (remainder.symm.trans (congrArg UInt32.toNat both.2))
      have calls : (place.i + 127) / 128 = place.i / 128 + 1 := by omega
      rw [if_neg held, input, address fresh, calls] at blocks
      exact ⟨congrArg Prod.fst blocks, congrArg Prod.snd blocks⟩

/-- The increments lead to the next place. -/
theorem Cursor.At.next {cursor : Cursor} (here : cursor.At inst place)
    (inside : place.i < geometry.segment) :
    (cursor.next inst place.position).At inst place.next := by
  have ready := here.prepare laid inside
  have small := geometry.segment_lt
  have cell := Rings.cell_lt geometry.columns_pos place.lane_lt place.block
  have cell' := Rings.cell_lt geometry.columns_pos place.lane_lt (place.block - 1)
  have fits : geometry.lanes * geometry.columns < 2 ^ 32 := geometry.fits
  have one : UInt32.toNat 1 = 1 := rfl
  refine ⟨?_, ?_, ?_, ?_⟩
  · change ((cursor.prepare inst place.position).i + 1).toNat = place.i + 1
    rw [add_toNat (by rw [ready.i, one]; omega), ready.i, one]
  · change ((cursor.prepare inst place.position).currOffset + 1).toNat = _
    rw [add_toNat (by rw [ready.curr, one]; omega), ready.curr, one, place.cell_eq inside]
    rfl
  · intro other
    have later : place.column ≠ 0 := fun first => other (congrArg (· + 1) first)
    change ((cursor.prepare inst place.position).prevOffset + 1).toNat = _
    rw [add_toNat (by rw [ready.prev, one]; omega), ready.prev, one,
      place.cell_pred inside.le later, ← place.cell_eq inside]
    rfl
  · intro independent
    obtain ⟨input, address⟩ := ready.addresses independent
    have calls : (place.i + 1 + 127) / 128 = place.i / 128 + 1 := by omega
    change _ = inputAfter inst place.position ((place.i + 1 + 127) / 128) ∧ (_ →
      _ = addressesAfter inst place.position ((place.i + 1 + 127) / 128))
    rw [calls]
    exact ⟨input, fun _ => address⟩

/-- The offset of the first block that the loop makes. -/
theorem start_currOffset (inside : place.i ≤ geometry.segment)
    (begins : (startingIndex place.position).toNat = place.i) :
    (Cursor.start inst place.position).currOffset.toNat =
      place.l * geometry.columns + place.column := by
  have most : place.s * geometry.segment ≤ 3 * geometry.segment :=
    Nat.mul_le_mul_right _ (Nat.le_of_lt_succ place.slice_lt)
  have room : (place.l + 1) * geometry.columns ≤ geometry.lanes * geometry.columns :=
    Nat.mul_le_mul_right _ place.lane_lt
  have fits : geometry.lanes * geometry.columns < 2 ^ 32 := geometry.fits
  have columns : geometry.columns = 4 * geometry.segment := rfl
  have column : place.column = place.s * geometry.segment + place.i := rfl
  rw [Nat.succ_mul] at room
  have row : (place.position.lane * inst.laneLength).toNat = place.l * geometry.columns := by
    rw [mul_toNat (by rw [place.lane_toNat, laid.laneLength]; omega), place.lane_toNat,
      laid.laneLength]
  have slice : (place.position.slice.toUInt32 * inst.segmentLength).toNat =
      place.s * geometry.segment := by
    rw [mul_toNat (by rw [UInt8.toNat_toUInt32, place.slice_toNat, laid.segmentLength]; omega),
      UInt8.toNat_toUInt32, place.slice_toNat, laid.segmentLength]
  have segment : (place.position.lane * inst.laneLength +
      place.position.slice.toUInt32 * inst.segmentLength).toNat =
        place.l * geometry.columns + place.s * geometry.segment := by
    rw [add_toNat (by rw [row, slice]; omega), row, slice]
  change (place.position.lane * inst.laneLength +
    place.position.slice.toUInt32 * inst.segmentLength + startingIndex place.position).toNat = _
  rw [add_toNat (by rw [segment, begins]; omega), segment, begins, column]
  omega

/-- The offset in front of it, which may be at the end of the lane. -/
theorem start_prevOffset (inside : place.i ≤ geometry.segment)
    (begins : (startingIndex place.position).toNat = place.i) :
    (Cursor.start inst place.position).prevOffset.toNat =
      Rings.cell geometry.columns place.l (place.block - 1) := by
  have curr := start_currOffset laid inside begins
  have least := geometry.two_le
  have most : place.s * geometry.segment ≤ 3 * geometry.segment :=
    Nat.mul_le_mul_right _ (Nat.le_of_lt_succ place.slice_lt)
  have room : (place.l + 1) * geometry.columns ≤ geometry.lanes * geometry.columns :=
    Nat.mul_le_mul_right _ place.lane_lt
  have fits : geometry.lanes * geometry.columns < 2 ^ 32 := geometry.fits
  have columns : geometry.columns = 4 * geometry.segment := rfl
  have column : place.column = place.s * geometry.segment + place.i := rfl
  have index := place.startingIndex_toNat
  rw [begins] at index
  rw [Nat.succ_mul] at room
  have short : place.column < geometry.columns := by
    by_cases opening : place.r = 0 ∧ place.s = 0
    · rw [if_pos opening] at index
      rw [opening.2, Nat.zero_mul] at column
      omega
    · rw [if_neg opening] at index
      omega
  have remainder : ((Cursor.start inst place.position).currOffset % inst.laneLength).toNat =
      place.column := by
    rw [UInt32.toNat_mod, curr, laid.laneLength, Nat.mul_comm, Nat.mul_add_mod,
      Nat.mod_eq_of_lt short]
  change (if 0 = (Cursor.start inst place.position).currOffset % inst.laneLength then
    (Cursor.start inst place.position).currOffset + inst.laneLength - 1
    else (Cursor.start inst place.position).currOffset - 1).toNat = _
  by_cases zero : place.column = 0
  · have repeated : 0 < place.r := by
      by_contra none
      rcases Nat.eq_zero_or_pos place.s with first | later
      · rw [if_pos ⟨by omega, first⟩] at index
        omega
      · have := Nat.le_mul_of_pos_left geometry.segment later
        omega
    have wraps : 0 = (Cursor.start inst place.position).currOffset % inst.laneLength :=
      UInt32.toNat_inj.mp (by rw [remainder, zero]; rfl)
    have sum : ((Cursor.start inst place.position).currOffset + inst.laneLength).toNat =
        place.l * geometry.columns + geometry.columns := by
      rw [add_toNat (by rw [curr, laid.laneLength]; omega), curr, laid.laneLength, zero,
        Nat.add_zero]
    rw [if_pos wraps, sub_one_toNat (by rw [sum]; omega), sum,
      place.cell_pred_first zero repeated]
  · have stays : ¬ 0 = (Cursor.start inst place.position).currOffset % inst.laneLength :=
      fun wraps => zero (remainder.symm.trans (congrArg UInt32.toNat wraps.symm))
    have before := place.cell_pred inside zero
    rw [if_neg stays, sub_one_toNat (by rw [curr]; omega), curr]
    omega

/-- The loop starts at the first block that is not there yet. -/
theorem Cursor.start_at (inside : place.i ≤ geometry.segment)
    (begins : (startingIndex place.position).toNat = place.i) :
    (Cursor.start inst place.position).At inst place where
  i := begins
  curr := start_currOffset laid inside begins
  prev := fun _ => start_prevOffset laid inside begins
  addresses := by
    intro independent
    have index := place.startingIndex_toNat
    have blocks : ((Cursor.start inst place.position).inputBlock,
        (Cursor.start inst place.position).addressBlock) =
      if (0 = place.position.pass ∧ 0 = place.position.slice) ∧
          dataIndependent inst place.position then
        nextAddresses (firstInput inst place.position)
      else (firstInput inst place.position, zeroBlock) := rfl
    rw [begins] at index
    by_cases opening : place.r = 0 ∧ place.s = 0
    · rw [if_pos opening] at index
      rw [if_pos ⟨place.opening_iff.mpr opening, independent⟩, ← inputAfter_zero,
        nextAddresses_inputAfter] at blocks
      rw [index]
      exact ⟨congrArg Prod.fst blocks, fun _ => congrArg Prod.snd blocks⟩
    · rw [if_neg opening] at index
      rw [if_neg fun both => opening (place.opening_iff.mp both.1), ← inputAfter_zero] at blocks
      rw [index]
      exact ⟨congrArg Prod.fst blocks, fun started => absurd rfl started⟩

end Loop

end UltraLocked.CArgon2
