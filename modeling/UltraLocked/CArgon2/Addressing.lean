import UltraLocked.CArgon2.Hash
import UltraLocked.Library.Rings

/-!
# Reference blocks

`index_alpha` of `core.c`. A lane is filled column by column, pass after pass,
so that its blocks form one sequence; block `t` of a lane stands in column
`t % laneLength`. In these terms the block that is mixed into block `t` comes
from a window of the sequence that ends in front of it.
-/

namespace UltraLocked.CArgon2

/-- `argon2_position_t` -/
structure Position where
  pass : UInt32
  lane : UInt32
  slice : UInt8
  index : UInt32

/-- The number of blocks that `index_alpha` chooses from. -/
def referenceAreaSize (inst : Instance) (position : Position) (sameLane : Bool) : UInt32 :=
  if 0 = position.pass then
    if 0 = position.slice then position.index - 1
    else if sameLane then
      position.slice.toUInt32 * inst.segmentLength + position.index - 1
    else
      position.slice.toUInt32 * inst.segmentLength + if position.index = 0 then -1 else 0
  else if sameLane then inst.laneLength - inst.segmentLength + position.index - 1
  else inst.laneLength - inst.segmentLength + if position.index = 0 then -1 else 0

/-- Where `index_alpha` starts to count. -/
def startPosition (inst : Instance) (position : Position) : UInt32 :=
  if 0 ≠ position.pass then
    if position.slice.toUInt32 = syncPoints - 1 then 0
    else (position.slice.toUInt32 + 1) * inst.segmentLength
  else 0

/-- The relative position that a random number chooses in an area. -/
def relativePosition (area pseudoRand : UInt32) : UInt64 :=
  let relative := pseudoRand.toUInt64
  let relative := (relative * relative) >>> 32
  (area - 1).toUInt64 - ((area.toUInt64 * relative) >>> 32)

def indexAlpha (inst : Instance) (position : Position) (pseudoRand : UInt32)
    (sameLane : Bool) : UInt32 :=
  let relative := relativePosition (referenceAreaSize inst position sameLane) pseudoRand
  (((startPosition inst position).toUInt64 + relative) % inst.laneLength.toUInt64).toUInt32

/-! ## Windows of a lane -/

/-- Lanes of four equal segments that 32 bits can count. -/
structure Geometry where
  lanes : Nat
  segment : Nat
  lanes_pos : 0 < lanes
  two_le : 2 ≤ segment
  fits : lanes * (4 * segment) < 2 ^ 32

namespace Geometry

variable (geometry : Geometry)

/-- The number of columns. -/
def columns : Nat := 4 * geometry.segment

/-- The first block of the segment of block `t`. -/
def segmentStart (t : Nat) : Nat := t / geometry.segment * geometry.segment

/-- The oldest block still in memory once the segment of block `t` is complete. -/
def windowStart (t : Nat) : Nat :=
  (t / geometry.segment + 1) * geometry.segment - geometry.columns

/-- The number of blocks that block `t` may refer to. -/
def area (t : Nat) (sameLane : Bool) : Nat :=
  if sameLane then t - 1 - geometry.windowStart t
  else geometry.segmentStart t - geometry.windowStart t -
    if t % geometry.segment = 0 then 1 else 0

/-- The place in an area that a random number chooses, quadratically in favour of late ones. -/
def chosen (area rand : Nat) : Nat := area - 1 - area * (rand * rand / 2 ^ 32) / 2 ^ 32

/-- The block that block `t` refers to. -/
def reference (t : Nat) (sameLane : Bool) (rand : Nat) : Nat :=
  geometry.windowStart t + chosen (geometry.area t sameLane) rand

theorem segment_lt : 4 * geometry.segment < 2 ^ 32 :=
  Nat.lt_of_le_of_lt (Nat.le_mul_of_pos_left _ geometry.lanes_pos) geometry.fits

theorem columns_pos : 0 < geometry.columns := by
  have := geometry.two_le
  rw [columns]
  omega

theorem chosen_lt {area rand : Nat} (positive : 0 < area) : chosen area rand < area := by
  rw [chosen]
  omega

theorem split (t : Nat) :
    t = geometry.segmentStart t + t % geometry.segment ∧
      t % geometry.segment < geometry.segment ∧
      (t < geometry.segment → geometry.segmentStart t = 0) ∧
      (geometry.segment ≤ t → geometry.segment ≤ geometry.segmentStart t) := by
  have positive : 0 < geometry.segment := by
    have := geometry.two_le
    omega
  have sum := Nat.div_add_mod t geometry.segment
  rw [Nat.mul_comm] at sum
  refine ⟨sum.symm, Nat.mod_lt t positive, fun early => ?_, fun late => ?_⟩
  · rw [segmentStart, Nat.div_eq_of_lt early, Nat.zero_mul]
  · exact Nat.le_mul_of_pos_left _ (Nat.div_pos late positive)

theorem windowStart_eq (t : Nat) :
    geometry.windowStart t = geometry.segmentStart t + geometry.segment - geometry.columns := by
  rw [windowStart, segmentStart, Nat.succ_mul]

/-- There is a block to refer to, from the third block of a lane on. -/
theorem area_pos {t : Nat} (third : 2 ≤ t) {sameLane : Bool}
    (finished : sameLane = false → geometry.segment ≤ t) : 0 < geometry.area t sameLane := by
  have least := geometry.two_le
  obtain ⟨sum, inside, first, later⟩ := geometry.split t
  rw [area, windowStart_eq, columns]
  cases sameLane with
  | true =>
      rw [if_pos rfl]
      omega
  | false =>
      have started := later (finished rfl)
      rw [if_neg Bool.false_ne_true]
      split <;> omega

/-- A reference within a lane is to a block of its window, but not to the last one. -/
theorem reference_same {t : Nat} (third : 2 ≤ t) (rand : Nat) :
    geometry.windowStart t ≤ geometry.reference t true rand ∧
      geometry.reference t true rand + 1 < t := by
  have positive : 0 < geometry.area t true := geometry.area_pos third fun h => nomatch h
  have chosen : chosen (geometry.area t true) rand < geometry.area t true := chosen_lt positive
  refine ⟨Nat.le_add_right _ _, ?_⟩
  rw [reference]
  rw [area, if_pos rfl] at chosen positive
  rw [area, if_pos rfl]
  omega

/-- A reference to another lane is to a segment that every lane has finished. -/
theorem reference_other {t : Nat} (finished : geometry.segment ≤ t) (rand : Nat) :
    geometry.windowStart t ≤ geometry.reference t false rand ∧
      geometry.reference t false rand < geometry.segmentStart t := by
  have least := geometry.two_le
  have positive : 0 < geometry.area t false :=
    geometry.area_pos (Nat.le_trans least finished) fun _ => finished
  have chosen : chosen (geometry.area t false) rand < geometry.area t false := chosen_lt positive
  refine ⟨Nat.le_add_right _ _, ?_⟩
  rw [reference]
  rw [area, if_neg Bool.false_ne_true] at chosen positive
  rw [area, if_neg Bool.false_ne_true]
  omega

theorem reference_lt {t : Nat} (third : 2 ≤ t) {sameLane : Bool}
    (finished : sameLane = false → geometry.segment ≤ t) (rand : Nat) :
    geometry.reference t sameLane rand < t := by
  cases sameLane with
  | true => exact Nat.lt_of_succ_lt (geometry.reference_same third rand).2
  | false =>
      have inside := (geometry.reference_other (finished rfl) rand).2
      have start := (geometry.split t).1
      omega

end Geometry

/-! ## The code finds the reference of the specification -/

/-- An instance whose sizes are those of a geometry. -/
structure Instance.Laid (inst : Instance) (geometry : Geometry) : Prop where
  lanes : inst.lanes.toNat = geometry.lanes
  segmentLength : inst.segmentLength.toNat = geometry.segment
  laneLength : inst.laneLength.toNat = geometry.columns
  memoryBlocks : inst.memoryBlocks.toNat = geometry.lanes * geometry.columns

/-- A position inside a segment. -/
structure Position.Inside (position : Position) (geometry : Geometry) : Prop where
  lane : position.lane.toNat < geometry.lanes
  slice : position.slice.toNat < 4
  index : position.index.toNat < geometry.segment

/-- The number of the segment of a position. -/
def Position.segment (position : Position) : Nat :=
  4 * position.pass.toNat + position.slice.toNat

/-- The number of the block at a position. -/
def Position.block (position : Position) (geometry : Geometry) : Nat :=
  position.segment * geometry.segment + position.index.toNat

theorem relativePosition_toNat {area : UInt32} (positive : 0 < area.toNat) (rand : UInt32) :
    (relativePosition area rand).toNat = Geometry.chosen area.toNat rand.toNat := by
  have small := rand.toNat_lt
  have few := area.toNat_lt
  have square : rand.toNat * rand.toNat < 2 ^ 32 * 2 ^ 32 := Nat.mul_lt_mul'' small small
  have high : rand.toNat * rand.toNat / 2 ^ 32 < 2 ^ 32 := Nat.div_lt_of_lt_mul square
  have product : area.toNat * (rand.toNat * rand.toNat / 2 ^ 32) < 2 ^ 32 * 2 ^ 32 :=
    Nat.mul_lt_mul'' few high
  have skipped : area.toNat * (rand.toNat * rand.toNat / 2 ^ 32) / 2 ^ 32 < area.toNat := by
    apply Nat.div_lt_of_lt_mul
    rw [Nat.mul_comm]
    exact Nat.mul_lt_mul_of_pos_right high positive
  have less : (area - 1).toNat = area.toNat - 1 :=
    UInt32.toNat_sub_of_le _ _ (UInt32.le_iff_toNat_le.mpr positive)
  have whole : 2 ^ 32 * 2 ^ 32 = 2 ^ 64 := by decide
  rw [whole] at square product
  have halved : ((rand.toUInt64 * rand.toUInt64) >>> 32).toNat =
      rand.toNat * rand.toNat / 2 ^ 32 := by
    rw [UInt64.toNat_shiftRight, UInt64.toNat_mul, UInt32.toNat_toUInt64,
      Nat.mod_eq_of_lt square, Nat.shiftRight_eq_div_pow]
    rfl
  have scaled : ((area.toUInt64 * ((rand.toUInt64 * rand.toUInt64) >>> 32)) >>> 32).toNat =
      area.toNat * (rand.toNat * rand.toNat / 2 ^ 32) / 2 ^ 32 := by
    rw [UInt64.toNat_shiftRight, UInt64.toNat_mul, halved, UInt32.toNat_toUInt64,
      Nat.mod_eq_of_lt product, Nat.shiftRight_eq_div_pow]
    rfl
  have least : ((area.toUInt64 * ((rand.toUInt64 * rand.toUInt64) >>> 32)) >>> 32) ≤
      (area - 1).toUInt64 := by
    rw [UInt64.le_iff_toNat_le, scaled, UInt32.toNat_toUInt64, less]
    omega
  rw [relativePosition, UInt64.toNat_sub_of_le _ _ least, scaled, UInt32.toNat_toUInt64, less,
    Geometry.chosen]

/-! ### Arithmetic that does not wrap -/

theorem add_toNat {v w : UInt32} (fits : v.toNat + w.toNat < 2 ^ 32) :
    (v + w).toNat = v.toNat + w.toNat := by
  rw [UInt32.toNat_add, Nat.mod_eq_of_lt fits]

theorem mul_toNat {v w : UInt32} (fits : v.toNat * w.toNat < 2 ^ 32) :
    (v * w).toNat = v.toNat * w.toNat := by
  rw [UInt32.toNat_mul, Nat.mod_eq_of_lt fits]

theorem sub_one_toNat {v : UInt32} (positive : 0 < v.toNat) : (v - 1).toNat = v.toNat - 1 :=
  UInt32.toNat_sub_of_le _ _ (UInt32.le_iff_toNat_le.mpr positive)

theorem add_ite_toNat {v index : UInt32} (positive : 0 < v.toNat) :
    (v + if index = 0 then -1 else 0).toNat =
      v.toNat - if index.toNat = 0 then 1 else 0 := by
  by_cases first : index = 0
  · subst first
    rw [if_pos rfl, if_pos (show UInt32.toNat 0 = 0 from rfl), ← UInt32.sub_eq_add_neg,
      sub_one_toNat positive]
  · have later : index.toNat ≠ 0 := fun zero => first (UInt32.toNat_inj.mp zero)
    rw [if_neg first, if_neg later, UInt32.add_zero, Nat.sub_zero]

section Inside

variable {geometry : Geometry} {position : Position} (inside : position.Inside geometry)

include inside

theorem Position.Inside.block_div :
    position.block geometry / geometry.segment = position.segment := by
  have least := geometry.two_le
  rw [Position.block, Nat.mul_comm, Nat.mul_add_div (by omega), Nat.div_eq_of_lt inside.index,
    Nat.add_zero]

theorem Position.Inside.block_mod :
    position.block geometry % geometry.segment = position.index.toNat := by
  rw [Position.block, Nat.mul_comm, Nat.mul_add_mod, Nat.mod_eq_of_lt inside.index]

theorem Position.Inside.segmentStart_eq :
    geometry.segmentStart (position.block geometry) =
      position.pass.toNat * geometry.columns + position.slice.toNat * geometry.segment := by
  rw [Geometry.segmentStart, inside.block_div, Position.segment, Geometry.columns, Nat.add_mul,
    ← Nat.mul_assoc, Nat.mul_comm 4]

variable {inst : Instance} (laid : inst.Laid geometry)

include laid

theorem slice_mul_toNat :
    (position.slice.toUInt32 * inst.segmentLength).toNat =
      position.slice.toNat * geometry.segment := by
  have most : position.slice.toNat * geometry.segment ≤ 4 * geometry.segment :=
    Nat.mul_le_mul_right _ inside.slice.le
  have fits := geometry.segment_lt
  rw [mul_toNat (by rw [UInt8.toNat_toUInt32, laid.segmentLength]; omega), laid.segmentLength,
    UInt8.toNat_toUInt32]

theorem referenceAreaSize_toNat (third : 2 ≤ position.block geometry) {sameLane : Bool}
    (finished : sameLane = false → geometry.segment ≤ position.block geometry) :
    (referenceAreaSize inst position sameLane).toNat =
      geometry.area (position.block geometry) sameLane := by
  have least := geometry.two_le
  have fits := geometry.segment_lt
  have index := inside.index
  have product := slice_mul_toNat inside laid
  have start := inside.segmentStart_eq
  have window := geometry.windowStart_eq (position.block geometry)
  have behind := inside.block_mod
  obtain ⟨sum, -, -, -⟩ := geometry.split (position.block geometry)
  have most : position.slice.toNat * geometry.segment ≤ 3 * geometry.segment :=
    Nat.mul_le_mul_right _ (Nat.le_of_lt_succ inside.slice)
  have columns : geometry.columns = 4 * geometry.segment := rfl
  rw [referenceAreaSize, Geometry.area, window, behind]
  by_cases first : 0 = position.pass
  · have zero : position.pass.toNat = 0 := by rw [← first]; rfl
    rw [zero, Nat.zero_mul, Nat.zero_add] at start
    rw [if_pos first]
    by_cases opening : 0 = position.slice
    · have none : position.slice.toNat = 0 := by rw [← opening]; rfl
      rw [none, Nat.zero_mul] at start
      have same : sameLane = true := by
        cases sameLane with
        | true => rfl
        | false =>
            have := finished rfl
            omega
      rw [if_pos opening, same, if_pos rfl, sub_one_toNat (by omega)]
      omega
    · rw [if_neg opening]
      cases sameLane with
      | true =>
          rw [if_pos rfl, if_pos rfl, sub_one_toNat (by rw [add_toNat (by omega)]; omega),
            add_toNat (by omega), product]
          omega
      | false =>
          have later : 0 < position.slice.toNat :=
            Nat.pos_of_ne_zero fun none => opening (UInt8.toNat_inj.mp none.symm)
          have started : geometry.segment ≤ position.slice.toNat * geometry.segment :=
            Nat.le_mul_of_pos_left _ later
          rw [if_neg Bool.false_ne_true, if_neg Bool.false_ne_true,
            add_ite_toNat (by rw [product]; omega), product]
          omega
  · have repeated : 0 < position.pass.toNat :=
      Nat.pos_of_ne_zero fun none => first (UInt32.toNat_inj.mp none.symm)
    have passed : geometry.columns ≤ position.pass.toNat * geometry.columns :=
      Nat.le_mul_of_pos_left _ repeated
    have laneLength := laid.laneLength
    have segmentLength := laid.segmentLength
    have others : (inst.laneLength - inst.segmentLength).toNat = 3 * geometry.segment := by
      rw [UInt32.toNat_sub_of_le _ _ (UInt32.le_iff_toNat_le.mpr (by omega))]
      omega
    rw [if_neg first]
    cases sameLane with
    | true =>
        rw [if_pos rfl, if_pos rfl, sub_one_toNat (by rw [add_toNat (by omega)]; omega),
          add_toNat (by omega), others]
        omega
    | false =>
        rw [if_neg Bool.false_ne_true, if_neg Bool.false_ne_true,
          add_ite_toNat (by rw [others]; omega), others]
        omega

/-- The code starts to count at the column of the window's first block. -/
theorem startPosition_toNat :
    ∃ rounds, geometry.windowStart (position.block geometry) =
      (startPosition inst position).toNat + geometry.columns * rounds := by
  have fits := geometry.segment_lt
  have start := inside.segmentStart_eq
  have columns : geometry.columns = 4 * geometry.segment := rfl
  rw [geometry.windowStart_eq, start, startPosition]
  by_cases first : 0 = position.pass
  · have zero : position.pass.toNat = 0 := by rw [← first]; rfl
    have most : position.slice.toNat * geometry.segment ≤ 3 * geometry.segment :=
      Nat.mul_le_mul_right _ (Nat.le_of_lt_succ inside.slice)
    refine ⟨0, ?_⟩
    rw [if_neg (not_not.mpr first), zero]
    change _ = 0
    omega
  · obtain ⟨before, passes⟩ : ∃ before, position.pass.toNat = before + 1 :=
      Nat.exists_eq_succ_of_ne_zero fun none => first (UInt32.toNat_inj.mp none.symm)
    rw [if_pos first, passes, Nat.succ_mul]
    by_cases last : position.slice.toUInt32 = syncPoints - 1
    · have three : position.slice.toNat = 3 := by
        have counted := congrArg UInt32.toNat last
        rwa [UInt8.toNat_toUInt32] at counted
      refine ⟨before + 1, ?_⟩
      rw [if_pos last, three, Nat.mul_succ, Nat.mul_comm before]
      change _ = 0 + _
      omega
    · have early : position.slice.toNat < 3 := by
        have slice := inside.slice
        have other : position.slice.toNat ≠ 3 := fun three => last (UInt32.toNat_inj.mp (by
          rw [UInt8.toNat_toUInt32, three]
          rfl))
        omega
      have next : (position.slice.toUInt32 + 1).toNat = position.slice.toNat + 1 := by
        rw [add_toNat (by rw [UInt8.toNat_toUInt32]; simp; omega), UInt8.toNat_toUInt32]
        rfl
      have most : (position.slice.toNat + 1) * geometry.segment ≤ 3 * geometry.segment :=
        Nat.mul_le_mul_right _ early
      refine ⟨before, ?_⟩
      rw [if_neg last, mul_toNat (by rw [next, laid.segmentLength]; omega), next,
        laid.segmentLength, Nat.succ_mul, Nat.mul_comm before]
      omega

/--
`index_alpha` returns the column of the block that the specification refers to:
for every pass, slice, place in the segment and random number, in the same lane
and in another one, 32-bit arithmetic and all.
-/
theorem indexAlpha_toNat (third : 2 ≤ position.block geometry) {sameLane : Bool}
    (finished : sameLane = false → geometry.segment ≤ position.block geometry)
    (rand : UInt32) :
    (indexAlpha inst position rand sameLane).toNat =
      geometry.reference (position.block geometry) sameLane rand.toNat % geometry.columns := by
  have positive := geometry.area_pos third finished
  have size := referenceAreaSize_toNat inside laid third finished
  obtain ⟨rounds, window⟩ := startPosition_toNat inside laid
  have relative : (relativePosition (referenceAreaSize inst position sameLane) rand).toNat =
      Geometry.chosen (geometry.area (position.block geometry) sameLane) rand.toNat := by
    rw [relativePosition_toNat (by rw [size]; exact positive), size]
  have few : Geometry.chosen (geometry.area (position.block geometry) sameLane) rand.toNat <
      2 ^ 32 :=
    Nat.lt_trans (Geometry.chosen_lt positive) (by rw [← size]; exact UInt32.toNat_lt _)
  have begins := (startPosition inst position).toNat_lt
  have small : geometry.columns < 2 ^ 32 := geometry.segment_lt
  have column := Nat.mod_lt
    ((startPosition inst position).toNat +
      Geometry.chosen (geometry.area (position.block geometry) sameLane) rand.toNat)
    geometry.columns_pos
  have exact : ((startPosition inst position).toUInt64 +
      relativePosition (referenceAreaSize inst position sameLane) rand).toNat =
        (startPosition inst position).toNat +
          Geometry.chosen (geometry.area (position.block geometry) sameLane) rand.toNat := by
    rw [UInt64.toNat_add, relative, UInt32.toNat_toUInt64, Nat.mod_eq_of_lt (by omega)]
  rw [indexAlpha, UInt64.toNat_toUInt32, UInt64.toNat_mod, exact, UInt32.toNat_toUInt64,
    laid.laneLength, Nat.mod_eq_of_lt (Nat.lt_trans column small), Geometry.reference, window,
    Nat.add_right_comm, Nat.add_mul_mod_self_left]

/--
Whatever the random number is, `index_alpha` finds a block of the window: one
that is in memory and stays there for the whole slice. In the same lane it is
never the block in front, and in another lane it is one of a slice that all
lanes have finished.
-/
theorem indexAlpha_window (third : 2 ≤ position.block geometry) {sameLane : Bool}
    (finished : sameLane = false → geometry.segment ≤ position.block geometry)
    (rand : UInt32) :
    ∃ block, (indexAlpha inst position rand sameLane).toNat = block % geometry.columns ∧
      geometry.segmentStart (position.block geometry) + geometry.segment ≤
        block + geometry.columns ∧
      (sameLane = true → block + 1 < position.block geometry) ∧
      (sameLane = false → block < geometry.segmentStart (position.block geometry)) := by
  have window := geometry.windowStart_eq (position.block geometry)
  refine ⟨_, indexAlpha_toNat inside laid third finished rand, ?_⟩
  cases sameLane with
  | true =>
      obtain ⟨recent, past⟩ := geometry.reference_same third rand.toNat
      exact ⟨by omega, fun _ => past, fun never => nomatch never⟩
  | false =>
      obtain ⟨recent, past⟩ := geometry.reference_other (finished rfl) rand.toNat
      exact ⟨by omega, fun never => (nomatch never), fun _ => past⟩

end Inside

/-- One lane of 8 blocks. -/
def eightBlocks : Geometry where
  lanes := 1
  segment := 2
  lanes_pos := by decide
  two_le := by decide
  fits := by decide

/-- An instance of that size. -/
def eightBlocksInstance : Instance where
  memory := none
  version := 0x13
  passes := 2
  memoryBlocks := 8
  segmentLength := 2
  laneLength := 8
  lanes := 1
  threads := 1
  type := 2

/-- At the first block of the second pass, the largest random number finds the oldest block. -/
theorem indexAlpha_oldest :
    ∃ block, (indexAlpha eightBlocksInstance ⟨1, 0, 0, 0⟩ 0xFFFFFFFF true).toNat = block % 8 ∧
      8 + 2 ≤ block + 8 ∧ block + 1 < 8 := by
  have inside : Position.Inside ⟨1, 0, 0, 0⟩ eightBlocks := ⟨by decide, by decide, by decide⟩
  have laid : eightBlocksInstance.Laid eightBlocks := ⟨rfl, rfl, rfl, rfl⟩
  have finished : true = false →
      eightBlocks.segment ≤ Position.block ⟨1, 0, 0, 0⟩ eightBlocks := fun never => nomatch never
  obtain ⟨block, column, recent, past, -⟩ :=
    indexAlpha_window inside laid (by decide) finished 0xFFFFFFFF
  exact ⟨block, column, recent, past rfl⟩

end UltraLocked.CArgon2
