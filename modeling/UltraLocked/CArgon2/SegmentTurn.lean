import UltraLocked.CArgon2.SegmentHistory

/-!
# One turn writes one block

While all lanes are inside one slice, a turn of any of them reads blocks that
are in memory, writes the next block of its lane, and keeps the memory a ring
of the last blocks of every lane.
-/

namespace UltraLocked.CArgon2

open Library

/-- The memory while every lane is inside the slice that starts with block `start`. -/
structure InSlice (filling : Filling) (start : Nat) (written : Nat → Nat) (memory : Memory) :
    Prop where
  size : memory.size = filling.geometry.lanes * filling.geometry.columns
  keeps : Rings.KeepsAll memory filling.geometry.columns filling.geometry.lanes filling.history
    written
  started : ∀ lane < filling.geometry.lanes, start ≤ written lane
  bounded : ∀ lane < filling.geometry.lanes, written lane ≤ start + filling.geometry.segment

theorem refLane_lt (filling : Filling) {lane t : Nat} (known : lane < filling.geometry.lanes)
    (rand : UInt64) : filling.refLane lane t rand < filling.geometry.lanes := by
  rw [Filling.refLane]
  split
  · exact known
  · exact Nat.mod_lt _ filling.geometry.lanes_pos

namespace InSlice

variable {filling : Filling} {start : Nat} {written : Nat → Nat} {memory : Memory}
  (slice : InSlice filling start written memory)

include slice

theorem read_prev {lane : Nat} (known : lane < filling.geometry.lanes)
    (positive : 0 < written lane) :
    memory[(filling.access lane (written lane)).prev]? =
      some (filling.history lane (written lane - 1)) := by
  have columns := filling.geometry.columns_pos
  exact slice.keeps.read known (by omega) (by omega)

/--
The block that the next block of a lane refers to is in memory: in the same lane
it is one that the lane has written, and the other lanes have all passed it and
come no further than to a segment behind the slice.
-/
theorem ref_window {lane : Nat} (known : lane < filling.geometry.lanes)
    (third : 2 ≤ written lane) (here : filling.geometry.segmentStart (written lane) = start)
    (rand : UInt64) :
    filling.refBlock lane (written lane) rand <
        written (filling.refLane lane (written lane) rand) ∧
      start + filling.geometry.segment ≤
        filling.refBlock lane (written lane) rand + filling.geometry.columns ∧
      (filling.refLane lane (written lane) rand ≠ lane →
        filling.refBlock lane (written lane) rand < start) := by
  have window := filling.geometry.windowStart_eq (written lane)
  rw [here] at window
  by_cases same : filling.refLane lane (written lane) rand = lane
  · obtain ⟨recent, past⟩ := filling.geometry.reference_same third (rand.toNat % 2 ^ 32)
    have block : filling.refBlock lane (written lane) rand =
        filling.geometry.reference (written lane) true (rand.toNat % 2 ^ 32) := by
      rw [Filling.refBlock, decide_eq_true same]
    rw [block, same]
    exact ⟨by omega, by omega, absurd rfl⟩
  · have finished := filling.finished_of_refLane (decide_eq_false same)
    obtain ⟨recent, past⟩ := filling.geometry.reference_other finished (rand.toNat % 2 ^ 32)
    have block : filling.refBlock lane (written lane) rand =
        filling.geometry.reference (written lane) false (rand.toNat % 2 ^ 32) := by
      rw [Filling.refBlock, decide_eq_false same]
    have started := slice.started _ (refLane_lt filling (t := written lane) known rand)
    rw [here] at past
    rw [block]
    exact ⟨by omega, by omega, fun _ => past⟩

theorem read_ref {lane : Nat} (known : lane < filling.geometry.lanes)
    (third : 2 ≤ written lane) (here : filling.geometry.segmentStart (written lane) = start) :
    memory[(filling.access lane (written lane)).ref]? =
      some (filling.refHistory lane (written lane)) := by
  have target := refLane_lt filling (t := written lane) known (filling.rand lane (written lane))
  have bounded := slice.bounded _ target
  obtain ⟨past, recent, -⟩ := slice.ref_window known third here (filling.rand lane (written lane))
  exact slice.keeps.read target past (by omega)

/-- The block that is replaced is the one a round before, if there is one. -/
theorem read_curr {lane : Nat} (known : lane < filling.geometry.lanes) :
    ∃ old, memory[(filling.access lane (written lane)).curr]? = some old ∧
      (filling.geometry.columns ≤ written lane →
        old = filling.history lane (written lane - filling.geometry.columns)) := by
  have columns := filling.geometry.columns_pos
  have inside : Rings.cell filling.geometry.columns lane (written lane) < memory.size :=
    slice.size ▸ Rings.cell_lt columns known _
  refine ⟨_, Array.getElem?_eq_getElem inside, fun repeated => ?_⟩
  have round : Rings.cell filling.geometry.columns lane (written lane) =
      Rings.cell filling.geometry.columns lane (written lane - filling.geometry.columns) :=
    (Rings.cell_inj columns).mpr ⟨rfl, Nat.mod_eq_sub_mod repeated⟩
  have kept := slice.keeps.read (t := written lane - filling.geometry.columns) known
    (by omega) (by omega)
  rw [← round, Array.getElem?_eq_getElem inside] at kept
  exact Option.some.inj kept

/-- Writing the next block of a lane keeps all of this, up to the end of the slice. -/
theorem write {lane : Nat} (known : lane < filling.geometry.lanes)
    (open_ : written lane < start + filling.geometry.segment) :
    InSlice filling start (Function.update written lane (written lane + 1))
      (memory.setIfInBounds (Rings.cell filling.geometry.columns lane (written lane))
        (filling.history lane (written lane))) where
  size := by rw [Array.size_setIfInBounds, slice.size]
  keeps := slice.keeps.write filling.geometry.columns_pos known slice.size
  started other isKnown := by
    have := slice.started other isKnown
    rw [Function.update_apply]
    split
    · rename_i same
      subst same
      omega
    · exact this
  bounded other isKnown := by
    have := slice.bounded other isKnown
    rw [Function.update_apply]
    split
    · omega
    · exact this

end InSlice

section Turn

variable {inst : Instance} {geometry : Geometry} {first : Nat → Nat → Block}
  {place : Place geometry}

/-- The code and the specification agree on which segments take addresses. -/
theorem dataIndependent_eq :
    dataIndependent inst place.position =
      (inst.filling geometry first).addressed place.segment := by
  have pass : place.position.pass = 0 ↔ place.r = 0 := by
    rw [← UInt32.toNat_inj, place.pass_toNat]
    rfl
  have half : place.position.slice.toUInt32 < syncPoints / 2 ↔ place.s < 2 := by
    rw [UInt32.lt_iff_toNat_lt, UInt8.toNat_toUInt32, place.slice_toNat]
    rfl
  have early : place.r = 0 ∧ place.s < 2 ↔ place.segment < 2 := by
    rw [Place.segment]
    omega
  simp only [dataIndependent, Instance.filling, pass, half, early]

theorem pseudoRand_eq (inside : place.i < geometry.segment) {cursor : Cursor}
    (ready : cursor.Ready inst place) {memory : Memory}
    (prev : memory[Rings.cell geometry.columns place.l (place.block - 1)]? =
      some ((inst.filling geometry first).history place.l (place.block - 1))) :
    pseudoRand inst place.position cursor memory =
      some ((inst.filling geometry first).rand place.l place.block) := by
  have segment := place.block_div_segment inside
  have index := place.block_mod_segment inside
  rw [pseudoRand, Filling.rand]
  change _ = some (if (inst.filling geometry first).addressed
    (place.block / geometry.segment) = true then _ else _)
  rw [segment, ← dataIndependent_eq]
  by_cases independent : dataIndependent inst place.position = true
  · have word : (cursor.i % addressesInBlock).toNat = place.i % 128 := by
      rw [UInt32.toNat_mod, ready.i]
      rfl
    have pass : place.segment / 4 = place.r := by
      have := place.slice_lt
      rw [Place.segment]
      omega
    have slice : place.segment % 4 = place.s := by
      have := place.slice_lt
      rw [Place.segment]
      omega
    rw [if_pos independent, if_pos independent, (ready.addresses independent).2, word]
    simp only [Instance.filling, segment, index, pass, slice]
    exact Vector.getElem?_eq_getElem (Nat.mod_lt _ (by decide))
  · rw [if_neg independent, if_neg independent, ready.prev, prev]
    rfl

theorem refLane_toNat (first : Nat → Nat → Block) (laid : inst.Laid geometry) (inside : place.i < geometry.segment)
    (rand : UInt64) :
    (if place.position.pass = 0 ∧ place.position.slice = 0 then place.position.lane.toUInt64
      else (rand >>> 32) % inst.lanes.toUInt64).toNat =
        (inst.filling geometry first).refLane place.l place.block rand := by
  have opening : (place.position.pass = 0 ∧ place.position.slice = 0) ↔
      place.block < geometry.segment := by
    have first : (place.position.pass = 0 ∧ place.position.slice = 0) ↔
        place.r = 0 ∧ place.s = 0 := by
      rw [← place.opening_iff]
      exact and_congr eq_comm eq_comm
    rw [first]
    constructor
    · rintro ⟨none, start⟩
      rw [Place.block, Place.segment, none, start]
      omega
    · intro early
      have zero := place.block_div_segment inside
      rw [Nat.div_eq_of_lt early, Place.segment] at zero
      omega
  rw [Filling.refLane]
  change _ = if place.block < geometry.segment then place.l
    else rand.toNat / 2 ^ 32 % geometry.lanes
  by_cases early : place.block < geometry.segment
  · rw [if_pos (opening.mpr early), if_pos early, UInt32.toNat_toUInt64, place.lane_toNat]
  · rw [if_neg (mt opening.mp early), if_neg early, UInt64.toNat_mod, UInt64.toNat_shiftRight,
      UInt32.toNat_toUInt64, laid.lanes, Nat.shiftRight_eq_div_pow]
    rfl

theorem low_toNat (rand : UInt64) : (rand &&& 0xFFFFFFFF).toUInt32.toNat = rand.toNat % 2 ^ 32 := by
  have mask : UInt64.toNat 0xFFFFFFFF = 2 ^ 32 - 1 := rfl
  rw [UInt64.toNat_toUInt32, UInt64.toNat_and, mask, Nat.and_two_pow_sub_one_eq_mod,
    Nat.mod_mod]

theorem accessOf_eq (first : Nat → Nat → Block) (laid : inst.Laid geometry) (inside : place.i < geometry.segment)
    (third : 2 ≤ place.block) {cursor : Cursor} (ready : cursor.Ready inst place) :
    accessOf inst place.position cursor
        ((inst.filling geometry first).rand place.l place.block) =
      (inst.filling geometry first).access place.l place.block := by
  let filling := inst.filling geometry first
  let rand := filling.rand place.l place.block
  let at_ : Position := { place.position with index := cursor.i }
  have within : at_.Inside geometry := by
    refine ⟨?_, ?_, ?_⟩
    · exact place.lane_toNat.trans_lt place.lane_lt
    · exact place.slice_toNat.trans_lt place.slice_lt
    · exact ready.i.trans_lt inside
  have block : at_.block geometry = place.block := by
    change (4 * place.position.pass.toNat + place.position.slice.toNat) * geometry.segment +
      cursor.i.toNat = _
    rw [place.pass_toNat, place.slice_toNat, ready.i]
    rfl
  have lane := refLane_toNat first laid inside rand
  have known : filling.refLane place.l place.block rand < geometry.lanes :=
    refLane_lt filling place.lane_lt rand
  let refLane : UInt64 := if place.position.pass = 0 ∧ place.position.slice = 0 then
    place.position.lane.toUInt64 else (rand >>> 32) % inst.lanes.toUInt64
  change refLane.toNat = filling.refLane place.l place.block rand at lane
  have same : decide (refLane = place.position.lane.toUInt64) =
      decide (filling.refLane place.l place.block rand = place.l) := by
    refine decide_eq_decide.mpr (UInt64.toNat_inj.symm.trans ?_)
    rw [lane, UInt32.toNat_toUInt64, place.lane_toNat]
  have finished : decide (filling.refLane place.l place.block rand = place.l) = false →
      geometry.segment ≤ place.block := filling.finished_of_refLane
  have index : (indexAlpha inst at_ (rand &&& 0xFFFFFFFF).toUInt32
      (decide (refLane = place.position.lane.toUInt64))).toNat =
        filling.refBlock place.l place.block rand % geometry.columns := by
    rw [same, indexAlpha_toNat within laid (block.symm ▸ third)
      (fun other => block.symm ▸ finished other), block, low_toNat]
    rfl
  have cell := Rings.cell_lt geometry.columns_pos known
    (filling.refBlock place.l place.block rand)
  have fits : geometry.lanes * geometry.columns < 2 ^ 32 := geometry.fits
  have ref : (inst.laneLength.toUInt64 * refLane +
      (indexAlpha inst at_ (rand &&& 0xFFFFFFFF).toUInt32
        (decide (refLane = place.position.lane.toUInt64))).toUInt64).toNat =
      Rings.cell geometry.columns (filling.refLane place.l place.block rand)
        (filling.refBlock place.l place.block rand) := by
    rw [Rings.cell] at cell
    rw [UInt64.toNat_add, UInt64.toNat_mul, UInt32.toNat_toUInt64, UInt32.toNat_toUInt64, index,
      lane, laid.laneLength, Nat.mul_comm geometry.columns,
      Nat.mod_eq_of_lt (show filling.refLane place.l place.block rand * geometry.columns < 2 ^ 64 by
        omega), Nat.mod_eq_of_lt (by omega), Rings.cell]
  have prev : cursor.prevOffset.toNat =
      Rings.cell geometry.columns place.l (place.block - 1) := ready.prev
  have curr : cursor.currOffset.toNat = Rings.cell geometry.columns place.l place.block :=
    ready.curr
  rw [accessOf, Filling.access, prev, curr]
  exact congrArg (fun ref => Access.mk _ ref _) ref

/-- Old blocks are mixed in from the second pass on. -/
theorem mixesOld_eq (inst : Instance) (first : Nat → Nat → Block) (inside : place.i < geometry.segment) :
    mixesOld inst place.position = true ↔
      (inst.filling geometry first).mixes = true ∧
        (inst.filling geometry first).geometry.columns ≤ place.block := by
  have pass : 0 = place.position.pass ↔ place.r = 0 := by
    rw [← UInt32.toNat_inj, place.pass_toNat]
    exact eq_comm
  have round : geometry.columns ≤ place.block ↔ place.r ≠ 0 := by
    have column := place.column_lt inside
    rw [place.block_eq]
    constructor
    · rintro late zero
      rw [zero, Nat.zero_mul] at late
      omega
    · intro repeated
      have := Nat.le_mul_of_pos_left geometry.columns (Nat.pos_of_ne_zero repeated)
      omega
  simp only [mixesOld, Instance.filling, decide_eq_true_eq, ne_eq, pass, round]

/-- `fill_block` makes the next block of the lane. -/
theorem fillBlock_eq (first : Nat → Nat → Block) (old : Block)
    (inside : place.i < geometry.segment) (third : 2 ≤ place.block)
    (replaced : mixesOld inst place.position = true →
      old = (inst.filling geometry first).history place.l (place.block - geometry.columns)) :
    fillBlock ((inst.filling geometry first).history place.l (place.block - 1))
        ((inst.filling geometry first).refHistory place.l place.block) old
        (mixesOld inst place.position) =
      (inst.filling geometry first).history place.l place.block := by
  have mixes := mixesOld_eq inst first inside
  rw [Filling.history_eq _ third]
  by_cases mixed : mixesOld inst place.position = true
  · rw [if_pos (mixes.mp mixed), mixed, replaced mixed]
    rfl
  · rw [if_neg (mt mixes.mpr mixed), Bool.eq_false_iff.mpr mixed]
    exact fillBlock_overwrites _ _ _ _

theorem segmentStart_block (inside : place.i < geometry.segment) :
    geometry.segmentStart place.block = place.segment * geometry.segment := by
  rw [Geometry.segmentStart, place.block_div_segment inside]

/--
One turn writes the next block of its lane, and touches the cells of that block:
no read or write is outside the memory, and every block read is the one meant.
-/
theorem turn_eq (laid : inst.Laid geometry) (inside : place.i < geometry.segment)
    (third : 2 ≤ place.block) {cursor : Cursor} (here : cursor.At inst place)
    {written : Nat → Nat} {memory : Memory}
    (slice : InSlice (inst.filling geometry first) (place.segment * geometry.segment) written
      memory) (own : written place.l = place.block) :
    turn inst place.position cursor memory =
      some ((inst.filling geometry first).access place.l place.block,
        memory.setIfInBounds (Rings.cell geometry.columns place.l place.block)
          ((inst.filling geometry first).history place.l place.block)) := by
  have prev := slice.read_prev place.lane_lt (by omega)
  have ref := slice.read_ref place.lane_lt (by omega) (own.symm ▸ segmentStart_block inside)
  obtain ⟨old, curr, replaced⟩ := slice.read_curr place.lane_lt
  rw [own] at prev ref curr replaced
  have ready := here.prepare laid inside
  have rand := pseudoRand_eq inside ready prev
  have access := accessOf_eq first laid inside third ready
  have mixes := mixesOld_eq inst first inside
  have block := fillBlock_eq first old inside third fun mixed => replaced (mixes.mp mixed).2
  simp only [turn, rand, access, prev, ref, curr, Option.bind_eq_bind, Option.bind_some, block]
  rfl

end Turn

end UltraLocked.CArgon2
