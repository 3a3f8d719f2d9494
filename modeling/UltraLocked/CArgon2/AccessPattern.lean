import UltraLocked.CArgon2.Tag

/-!
# The access pattern

Which cells a run touches, and in which order. Where references come from
addresses, neither the password nor anything else that is in the memory shows
in it: that is all of Argon2i, and the first half of a pass of Argon2id.
-/

namespace UltraLocked.CArgon2

open Library

namespace Filling

variable (filling : Filling)

theorem length_segmentTrace (k lane : Nat) :
    (filling.segmentTrace k lane).length =
      (k + 1) * filling.geometry.segment - filling.opening k := by
  rw [segmentTrace, List.length_map, List.length_range']

theorem length_trace (slices : Nat) :
    (filling.trace slices).length =
      filling.geometry.lanes * (slices * filling.geometry.segment - 2) := by
  induction slices with
  | zero => simp [trace]
  | succ k before =>
      have least := filling.geometry.two_le
      have slice : (filling.sliceTrace k).length = filling.geometry.lanes *
          ((k + 1) * filling.geometry.segment - filling.opening k) := by
        simp only [sliceTrace, List.length_flatMap, length_segmentTrace, List.map_const',
          List.length_range, List.sum_replicate_nat]
      have turns : k * filling.geometry.segment - 2 +
          ((k + 1) * filling.geometry.segment - filling.opening k) =
            (k + 1) * filling.geometry.segment - 2 := by
        rcases Nat.eq_zero_or_pos k with rfl | later
        · rw [opening]
          omega
        · have := Nat.le_mul_of_pos_left filling.geometry.segment later
          rw [opening, Nat.succ_mul]
          omega
      rw [trace_succ, List.length_append, before, slice, ← Nat.mul_add, turns]

theorem trace_prefix {few many : Nat} (more : few ≤ many) :
    filling.trace few <+: filling.trace many := by
  induction many, more using Nat.le_induction with
  | base => exact List.prefix_refl _
  | succ many _ goes =>
      rw [trace_succ]
      exact goes.trans (List.prefix_append _ _)

end Filling

/-! ## Two runs -/

section TwoRuns

variable {inst : Instance} {geometry : Geometry} (first first' : Nat → Nat → Block)

/-- With addresses, the cells of a block do not depend on any block. -/
theorem access_eq {lane t : Nat}
    (addressed : (inst.filling geometry first).addressed (t / geometry.segment) = true) :
    (inst.filling geometry first).access lane t =
      (inst.filling geometry first').access lane t := by
  have rand (start : Nat → Nat → Block) :
      (inst.filling geometry start).rand lane t = (inst.filling geometry first).address lane t :=
    if_pos addressed
  rw [Filling.access, Filling.access, rand first, rand first']
  rfl

theorem trace_eq (slices : Nat)
    (addressed : ∀ k < slices, (inst.filling geometry first).addressed k = true) :
    (inst.filling geometry first).trace slices = (inst.filling geometry first').trace slices := by
  refine List.flatMap_congr fun k few => List.flatMap_congr fun lane _ => ?_
  refine List.map_congr_left fun t turn => access_eq first first' ?_
  obtain ⟨after, before⟩ := List.mem_range'_1.mp turn
  have least := geometry.two_le
  have opening := (inst.filling geometry first).opening_le k
  have from_ : k * geometry.segment ≤ t := Nat.le_trans (Nat.le_max_right ..) after
  have upTo : t < (k + 1) * geometry.segment := by
    change (inst.filling geometry first).opening k ≤ t at after
    change t < (inst.filling geometry first).opening k +
      ((k + 1) * geometry.segment - (inst.filling geometry first).opening k) at before
    change (inst.filling geometry first).opening k ≤ (k + 1) * geometry.segment at opening
    omega
  rw [Nat.div_eq_of_lt_le from_ upTo]
  exact addressed k (List.mem_range.mp few)

end TwoRuns

/-- The slices whose references come from addresses. -/
def Instance.independentSlices (inst : Instance) : Nat :=
  if inst.type = argon2i then 4 * inst.passes.toNat
  else if inst.type = argon2id then min 2 (4 * inst.passes.toNat) else 0

theorem Instance.addressed_of_independent (inst : Instance) (geometry : Geometry)
    (first : Nat → Nat → Block) {k : Nat} (early : k < inst.independentSlices) :
    (inst.filling geometry first).addressed k = true := by
  rw [independentSlices] at early
  refine decide_eq_true ?_
  split at early
  · exact .inl ‹_›
  · split at early
    · exact .inr ⟨‹_›, by omega⟩
    · exact absurd early (Nat.not_lt_zero k)

theorem Instance.independentSlices_le (inst : Instance) :
    inst.independentSlices ≤ 4 * inst.passes.toNat := by
  rw [independentSlices]
  split
  · exact Nat.le_refl _
  · split
    · exact Nat.min_le_right ..
    · exact Nat.zero_le _

/-- The blocks of a memory that a run on it begins with. -/
def contentsOf (geometry : Geometry) (memory : Memory) (lane t : Nat) : Block :=
  (memory[Rings.cell geometry.columns lane t]?).getD zeroBlock

/-- Whatever a memory holds is what a run on it begins with. -/
theorem filled_contents (inst : Instance) {geometry : Geometry} {memory : Memory}
    (size : memory.size = geometry.lanes * geometry.columns) :
    (inst.filling geometry (contentsOf geometry memory)).Filled 0 memory := by
  have least := geometry.two_le
  refine ⟨size, fun lane known t past _ => ?_, fun _ _ => ?_, fun _ _ => ?_⟩
  · have early : t < 2 := by
      rw [Filling.opening] at past
      omega
    have inside : Rings.cell geometry.columns lane t < memory.size :=
      size ▸ Rings.cell_lt geometry.columns_pos known t
    rw [Filling.history_first _ early, Instance.filling_geometry]
    change _ = some (contentsOf geometry memory lane t)
    rw [contentsOf, Array.getElem?_eq_getElem inside]
    rfl
  · rw [Nat.zero_mul]
    exact Nat.zero_le _
  · rw [Filling.opening]
    change max 2 (0 * geometry.segment) ≤ 0 * geometry.segment + geometry.segment
    omega

/--
The cells touched in the independent slices are the same in every run, whatever
the memory holds when it begins: the first of them for Argon2id, all of them for
Argon2i. They are one list, fixed by type, costs and version alone.
-/
theorem independent_accesses {context : Context} (valid : CostsValid context) (type : UInt32) :
    ∃ common : List Access,
      common.length = valid.geometry.lanes *
        ((instanceOf context type).independentSlices * valid.geometry.segment - 2) ∧
      ∀ memory : Memory, memory.size = (instanceOf context type).memoryBlocks.toNat →
        ∃ behind memory', (instanceOf context type).fillMemoryBlocksSt memory =
            some (common ++ behind, memory') ∧
          (type = argon2i → behind = []) := by
  let inst := instanceOf context type
  let blank := inst.filling valid.geometry fun _ _ => zeroBlock
  refine ⟨blank.trace inst.independentSlices, blank.length_trace _, fun memory size => ?_⟩
  have laid := valid.laid type
  obtain ⟨memory', run, -⟩ := fillMemoryBlocksSt_eq laid
    (filled_contents inst (size.trans laid.memoryBlocks))
  obtain ⟨behind, goes⟩ := Filling.trace_prefix
    (inst.filling valid.geometry (contentsOf valid.geometry memory)) inst.independentSlices_le
  have same := trace_eq (contentsOf valid.geometry memory) (fun _ _ => zeroBlock)
    inst.independentSlices fun k early => inst.addressed_of_independent valid.geometry _ early
  rw [same] at goes
  refine ⟨behind, memory', ?_, fun i => ?_⟩
  · rw [run, ← goes]
  · have all : inst.independentSlices = 4 * inst.passes.toNat := if_pos i
    have counted := congrArg List.length goes
    rw [List.length_append, Filling.length_trace, Filling.length_trace, all] at counted
    exact List.eq_nil_of_length_eq_zero (Nat.add_left_cancel (counted.trans (Nat.add_zero _).symm))

/-- The six turns of Argon2i over eight blocks. -/
theorem plainContext_accesses :
    ∃ common : List Access, common.length = 6 ∧ ∀ memory : Memory, memory.size = 8 →
      ∃ memory', (instanceOf (plainContext [112] []) argon2i).fillMemoryBlocksSt memory =
        some (common, memory') := by
  obtain ⟨common, six, runs⟩ := independent_accesses (plainContext_valid [112] []) argon2i
  refine ⟨common, six, fun memory eight => ?_⟩
  obtain ⟨behind, memory', run, none_⟩ := runs memory eight
  rw [none_ rfl, List.append_nil] at run
  exact ⟨memory', run⟩

end UltraLocked.CArgon2
