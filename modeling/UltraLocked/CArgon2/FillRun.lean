import UltraLocked.CArgon2.FillMemory
import UltraLocked.CArgon2.SegmentTurn
import UltraLocked.Library.CountedLoops

/-!
# One thread fills the lanes

The loops of `fill_segment` and `fill_memory_blocks_st`, turn after turn: from a
memory in which every lane has its first two blocks, whatever else is in it,
they stay inside the memory and leave the last round of every lane.
-/

namespace UltraLocked.CArgon2

open Library

namespace Filling

variable (filling : Filling)

/-- The block that a lane makes first in slice `k`, the slices of all passes counted together. -/
def opening (k : Nat) : Nat := max 2 (k * filling.geometry.segment)

/-- The cells that a lane touches in a slice. -/
def segmentTrace (k lane : Nat) : List Access :=
  (List.range' (filling.opening k)
    ((k + 1) * filling.geometry.segment - filling.opening k)).map (filling.access lane)

/-- The cells that a slice touches, lane after lane. -/
def sliceTrace (k : Nat) : List Access :=
  (List.range filling.geometry.lanes).flatMap (filling.segmentTrace k)

/-- The cells that the first slices touch. -/
def trace (slices : Nat) : List Access := (List.range slices).flatMap filling.sliceTrace

theorem trace_succ (slices : Nat) :
    filling.trace (slices + 1) = filling.trace slices ++ filling.sliceTrace slices := by
  rw [trace, List.range_succ, List.flatMap_append, List.flatMap_singleton]
  rfl

/-- The memory between two slices. -/
def Filled (slices : Nat) (memory : Memory) : Prop :=
  InSlice filling (slices * filling.geometry.segment) (fun _ => filling.opening slices) memory

theorem opening_le (k : Nat) : filling.opening k ≤ (k + 1) * filling.geometry.segment := by
  have least := filling.geometry.two_le
  rw [opening, Nat.succ_mul]
  omega

theorem filled_succ {k : Nat} {written : Nat → Nat} {memory : Memory}
    (slice : InSlice filling (k * filling.geometry.segment) written memory)
    (all : ∀ lane < filling.geometry.lanes, written lane = (k + 1) * filling.geometry.segment) :
    filling.Filled (k + 1) memory := by
  have least := filling.geometry.two_le
  have opening : filling.opening (k + 1) = (k + 1) * filling.geometry.segment := by
    rw [Filling.opening, Nat.succ_mul]
    omega
  refine ⟨slice.size, fun lane known => ?_, fun lane known => ?_, fun lane known => ?_⟩
  · rw [opening, ← all lane known]
    exact slice.keeps lane known
  · rw [opening]
  · rw [opening]
    omega

end Filling

/-! ## Segments -/

section Opening

variable {geometry : Geometry} {r s l : Nat} (pass : r < 2 ^ 32) (four : s < 4)
  (known : l < geometry.lanes)

/-- The place at which a segment begins, behind the first blocks of its lane. -/
def Place.opens : Place geometry := ⟨r, s, l, if r = 0 ∧ s = 0 then 2 else 0, pass, four, known⟩

theorem Place.opens_block (inst : Instance) (first : Nat → Nat → Block) :
    (Place.opens pass four known).block = (inst.filling geometry first).opening (4 * r + s) := by
  have least := geometry.two_le
  change (4 * r + s) * geometry.segment + (if r = 0 ∧ s = 0 then 2 else 0) =
    max 2 ((4 * r + s) * geometry.segment)
  by_cases start : r = 0 ∧ s = 0
  · rw [if_pos start, start.1, start.2]
    omega
  · have positive := Nat.le_mul_of_pos_left geometry.segment (show 0 < 4 * r + s by omega)
    rw [if_neg start]
    omega

theorem Place.opens_within : (Place.opens pass four known).i ≤ geometry.segment := by
  have least := geometry.two_le
  change (if r = 0 ∧ s = 0 then 2 else 0) ≤ geometry.segment
  split <;> omega

end Opening

section Run

variable {inst : Instance} {geometry : Geometry} {first : Nat → Nat → Block}
  (laid : inst.Laid geometry)

include laid

/-- The loop fills what is left of its segment; induction on the number of turns. -/
theorem fillFrom_eq (n : Nat) {place : Place geometry} (left : place.i + n = geometry.segment)
    (third : 2 ≤ place.block) {cursor : Cursor} (here : cursor.At inst place)
    {written : Nat → Nat} {memory : Memory}
    (slice : InSlice (inst.filling geometry first) (place.segment * geometry.segment) written
      memory) (own : written place.l = place.block) :
    ∃ memory', fillFrom inst place.position cursor memory =
        some ((List.range' place.block n).map ((inst.filling geometry first).access place.l),
          memory') ∧
      InSlice (inst.filling geometry first) (place.segment * geometry.segment)
        (Function.update written place.l (place.block + n)) memory' := by
  induction n generalizing place cursor written memory with
  | zero =>
      have last : ¬ cursor.i < inst.segmentLength := by
        rw [UInt32.lt_iff_toNat_lt, here.i, laid.segmentLength]
        omega
      refine ⟨memory, ?_, ?_⟩
      · rw [fillFrom, if_neg last]
        rfl
      · rw [Nat.add_zero, ← own, Function.update_eq_self]
        exact slice
  | succ n filled =>
      have inside : place.i < geometry.segment := by omega
      have more : cursor.i < inst.segmentLength := by
        rw [UInt32.lt_iff_toNat_lt, here.i, laid.segmentLength]
        exact inside
      have written' := slice.write place.lane_lt
        (by rw [own, Place.block]; exact Nat.add_lt_add_left inside _)
      rw [own] at written'
      have left' : place.next.i + n = geometry.segment := by
        change place.i + 1 + n = _
        omega
      have third' : 2 ≤ place.next.block := Nat.le_succ_of_le third
      obtain ⟨memory', rest, after⟩ := filled left' third' (here.next laid inside) written'
        (Function.update_self ..)
      refine ⟨memory', ?_, ?_⟩
      · rw [fillFrom, if_pos more, turn_eq laid inside third here slice own]
        change (fillFrom inst place.next.position _ _).bind _ = _
        rw [Instance.filling_geometry] at rest
        rw [rest]
        rfl
      · change InSlice _ (place.segment * geometry.segment)
          (Function.update (Function.update written place.l _) place.l (place.block + 1 + n))
          memory' at after
        rw [Function.update_idem, Nat.add_assoc, Nat.add_comm 1] at after
        exact after

/-- `fill_segment` fills one segment of one lane. -/
theorem fillSegment_eq {r s l : Nat} (pass : r < 2 ^ 32) (four : s < 4)
    (known : l < geometry.lanes) {written : Nat → Nat} {memory : Memory}
    (slice : InSlice (inst.filling geometry first) ((4 * r + s) * geometry.segment) written
      memory)
    (own : written l = (inst.filling geometry first).opening (4 * r + s)) :
    ∃ memory', fillSegment inst (segmentPosition r s l) memory =
        some ((inst.filling geometry first).segmentTrace (4 * r + s) l, memory') ∧
      InSlice (inst.filling geometry first) ((4 * r + s) * geometry.segment)
        (Function.update written l ((4 * r + s + 1) * geometry.segment)) memory' := by
  let place := Place.opens pass four known
  have block := Place.opens_block pass four known inst first
  have few : place.i ≤ geometry.segment := Place.opens_within pass four known
  have third : 2 ≤ place.block := by
    rw [block]
    exact Nat.le_max_left ..
  have count : place.i + (geometry.segment - place.i) = geometry.segment := by omega
  have whole : place.block + (geometry.segment - place.i) =
      (4 * r + s + 1) * geometry.segment := by
    rw [Nat.succ_mul, Place.block, Nat.add_assoc, count]
    rfl
  have turns : geometry.segment - place.i = (4 * r + s + 1) * geometry.segment - place.block := by
    rw [← whole]
    omega
  obtain ⟨memory', run, after⟩ := fillFrom_eq laid _ count third
    (Cursor.start_at laid few place.startingIndex_toNat) slice (own.trans block.symm)
  rw [turns, block] at run
  rw [whole] at after
  exact ⟨memory', run, after⟩

theorem fillLanes_eq {r s : Nat} (pass : r < 2 ^ 32) (four : s < 4) (touched : List Access)
    {memory : Memory} (filled : (inst.filling geometry first).Filled (4 * r + s) memory) :
    ∃ memory', (List.range inst.lanes.toNat).foldlM (fillNext inst r s) (touched, memory) =
        some (touched ++ (inst.filling geometry first).sliceTrace (4 * r + s), memory') ∧
      (inst.filling geometry first).Filled (4 * r + s + 1) memory' := by
  let filling := inst.filling geometry first
  let k := 4 * r + s
  let behind (n lane : Nat) : Nat :=
    if lane < n then (k + 1) * geometry.segment else filling.opening k
  let P (n : Nat) (now : List Access × Memory) : Prop :=
    now.1 = touched ++ (List.range n).flatMap (filling.segmentTrace k) ∧
      InSlice filling (k * geometry.segment) (behind n) now.2
  have start : P 0 (touched, memory) := by
    refine ⟨(List.append_nil _).symm, ?_⟩
    have none : behind 0 = fun _ => filling.opening k :=
      funext fun lane => if_neg (Nat.not_lt_zero lane)
    rw [none]
    exact filled
  obtain ⟨⟨touched', memory'⟩, run, traced, after⟩ :=
    foldlM_range geometry.lanes (f := fillNext inst r s) (P := P) start (by
      rintro l known ⟨touched', memory'⟩ ⟨traced, slice⟩
      change touched' = _ at traced
      obtain ⟨memory'', run, after⟩ := fillSegment_eq laid pass four known slice
        (if_neg (Nat.lt_irrefl l))
      refine ⟨(touched' ++ filling.segmentTrace k l, memory''), ?_, ?_, ?_⟩
      · rw [fillNext, run]
        rfl
      · rw [List.range_succ, List.flatMap_append, ← List.append_assoc, ← traced]
        simp
      · have one : Function.update (behind l) l ((k + 1) * geometry.segment) = behind (l + 1) := by
          funext lane
          simp only [behind, Function.update_apply]
          split_ifs <;> omega
        rw [← one]
        exact after)
  change touched' = _ at traced
  subst traced
  refine ⟨memory', ?_, ?_⟩
  · rw [laid.lanes]
    exact run
  · exact filling.filled_succ after fun lane known => if_pos known

theorem fillSlices_eq {r : Nat} (pass : r < 2 ^ 32) {memory : Memory}
    (filled : (inst.filling geometry first).Filled (4 * r) memory) :
    ∃ memory', (List.range syncPoints.toNat).foldlM (fun filled s =>
        (List.range inst.lanes.toNat).foldlM (fillNext inst r s) filled)
          ((inst.filling geometry first).trace (4 * r), memory) =
        some ((inst.filling geometry first).trace (4 * (r + 1)), memory') ∧
      (inst.filling geometry first).Filled (4 * (r + 1)) memory' := by
  let filling := inst.filling geometry first
  obtain ⟨⟨touched, memory'⟩, run, traced, after⟩ := foldlM_range 4
    (f := fun filled s => (List.range inst.lanes.toNat).foldlM (fillNext inst r s) filled)
    (P := fun s (now : List Access × Memory) =>
      now.1 = filling.trace (4 * r + s) ∧ filling.Filled (4 * r + s) now.2)
    (s := (filling.trace (4 * r), memory)) ⟨rfl, filled⟩ (by
      rintro s four ⟨touched, memory⟩ ⟨traced, filled⟩
      obtain ⟨memory', run, after⟩ := fillLanes_eq laid pass four touched filled
      refine ⟨(touched ++ filling.sliceTrace (4 * r + s), memory'), run, ?_, after⟩
      change touched = _ at traced
      change touched ++ filling.sliceTrace (4 * r + s) = filling.trace (4 * r + s + 1)
      rw [traced, Filling.trace_succ])
  change touched = _ at traced
  subst traced
  exact ⟨memory', run, after⟩

theorem fillMemoryBlocksSt_eq {memory : Memory}
    (filled : (inst.filling geometry first).Filled 0 memory) :
    ∃ memory', inst.fillMemoryBlocksSt memory =
        some ((inst.filling geometry first).trace (4 * inst.passes.toNat), memory') ∧
      (inst.filling geometry first).Filled (4 * inst.passes.toNat) memory' := by
  let filling := inst.filling geometry first
  obtain ⟨⟨touched, memory'⟩, run, traced, after⟩ := foldlM_range
    inst.passes.toNat (f := fun filled r => (List.range syncPoints.toNat).foldlM (fun filled s =>
      (List.range inst.lanes.toNat).foldlM (fillNext inst r s) filled) filled)
    (P := fun r (now : List Access × Memory) =>
      now.1 = filling.trace (4 * r) ∧ filling.Filled (4 * r) now.2)
    (s := ([], memory)) ⟨rfl, filled⟩ (by
      rintro r few ⟨touched, memory⟩ ⟨traced, filled⟩
      have pass : r < 2 ^ 32 := Nat.lt_trans few inst.passes.toNat_lt
      change touched = _ at traced
      subst traced
      obtain ⟨memory', run, after⟩ := fillSlices_eq laid pass filled
      exact ⟨_, run, rfl, after⟩)
  change touched = _ at traced
  subst traced
  exact ⟨memory', run, after⟩

end Run

end UltraLocked.CArgon2
