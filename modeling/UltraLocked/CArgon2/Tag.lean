import UltraLocked.CArgon2.FillRun

/-!
# The tag of one thread

From the context to the tag: the first blocks are hashed from the seed, the
passes fill the memory, and the last blocks of all lanes are hashed together.
Stated over the lanes, none of this mentions a memory.
-/

namespace UltraLocked.CArgon2

open Library Blake2b

/-! ## The specification -/

/-- The two blocks that begin a lane. -/
def firstBlock (seed : List UInt8) (lane t : Nat) : Block :=
  loadBlock (longDigest blockBytes
    (seed ++ store32 (UInt32.ofNat t) ++ store32 (UInt32.ofNat lane)))

/-- Block `t` of all lanes together. -/
def Filling.combined (filling : Filling) (t : Nat) : Block :=
  (List.range' 1 (filling.geometry.lanes - 1)).foldl
    (fun block lane => xorBlock block (filling.history lane t)) (filling.history 0 t)

/-- The memory is cut into lanes of four segments with at least two blocks. -/
def CostsValid.geometry {context : Context} (valid : CostsValid context) : Geometry where
  lanes := context.lanes.toNat
  segment := context.mCost.toNat / (4 * context.lanes.toNat)
  lanes_pos := valid.lanes.1
  two_le := by
    have positive := valid.lanes.1
    have enough := valid.memoryLanes
    rw [Nat.le_div_iff_mul_le (by omega)]
    omega
  fits := by
    have most := Nat.div_mul_le_self context.mCost.toNat (4 * context.lanes.toNat)
    have bound := context.mCost.toNat_lt
    have same : context.lanes.toNat * (4 * (context.mCost.toNat / (4 * context.lanes.toNat))) =
        context.mCost.toNat / (4 * context.lanes.toNat) * (4 * context.lanes.toNat) := by ring
    omega

/-- What the lanes of a hash are filled with. -/
def CostsValid.filling {context : Context} (valid : CostsValid context) (type : UInt32) :
    Filling :=
  (instanceOf context type).filling valid.geometry
    (firstBlock (digest prehashDigestLength 0 (preimage context type)))

/-- The tag of a hash. -/
def CostsValid.tag {context : Context} (valid : CostsValid context) (type : UInt32) :
    List UInt8 :=
  longDigest context.outlen.toNat (storeBlock
    ((valid.filling type).combined (context.tCost.toNat * valid.geometry.columns - 1)))

/-! ## The sizes of an instance -/

/-- Admissible costs lead to the sizes of the geometry, without a product that wraps. -/
theorem CostsValid.laid {context : Context} (valid : CostsValid context) (type : UInt32) :
    (instanceOf context type).Laid valid.geometry := by
  have positive := valid.lanes.1
  have few := valid.lanes.2
  have enough := valid.memoryLanes
  have fits := valid.geometry.fits
  have short := valid.geometry.segment_lt
  have sync : syncPoints.toNat = 4 := rfl
  have least : (2 * syncPoints * context.lanes).toNat = 8 * context.lanes.toNat :=
    lanes_product few
  have memoryBlocks : ¬ context.mCost < 2 * syncPoints * context.lanes := by
    rw [UInt32.not_lt, UInt32.le_iff_toNat_le, least]
    exact enough
  have quarters : (context.lanes * syncPoints).toNat = 4 * context.lanes.toNat := by
    rw [mul_toNat (by rw [sync]; omega), sync, Nat.mul_comm]
  have segment : (context.mCost / (context.lanes * syncPoints)).toNat =
      valid.geometry.segment := by
    rw [UInt32.toNat_div, quarters]
    rfl
  have all : valid.geometry.segment * (4 * context.lanes.toNat) =
      valid.geometry.lanes * (4 * valid.geometry.segment) := by
    change valid.geometry.segment * (4 * valid.geometry.lanes) = _
    ring
  simp only [instanceOf, if_neg memoryBlocks]
  refine ⟨rfl, segment, ?_, ?_⟩
  · rw [mul_toNat (by rw [segment, sync]; omega), segment, sync, Nat.mul_comm]
    rfl
  · rw [mul_toNat (by rw [segment, quarters, all]; exact fits), segment, quarters, all]
    rfl

theorem Geometry.last_column (geometry : Geometry) {passes : Nat} (some_ : 0 < passes) :
    (passes * geometry.columns - 1) % geometry.columns = geometry.columns - 1 := by
  have columns := geometry.columns_pos
  obtain ⟨before, rfl⟩ : ∃ before, passes = before + 1 :=
    Nat.exists_eq_succ_of_ne_zero (Nat.pos_iff_ne_zero.mp some_)
  have split : (before + 1) * geometry.columns - 1 =
      geometry.columns * before + (geometry.columns - 1) := by
    rw [Nat.succ_mul, Nat.mul_comm]
    omega
  rw [split, Nat.mul_add_mod, Nat.mod_eq_of_lt (by omega)]

theorem Filling.opening_passes (filling : Filling) {passes : Nat} (some_ : 0 < passes) :
    filling.opening (4 * passes) = passes * filling.geometry.columns := by
  have least := filling.geometry.two_le
  have whole := Nat.le_mul_of_pos_left filling.geometry.columns some_
  have four : filling.geometry.columns = 4 * filling.geometry.segment := rfl
  have all : 4 * passes * filling.geometry.segment = passes * filling.geometry.columns := by
    rw [Geometry.columns]
    ring
  rw [Filling.opening, all]
  omega

theorem Filling.Filled.read_last {filling : Filling} {passes : Nat} (some_ : 0 < passes)
    {memory : Memory} (filled : filling.Filled (4 * passes) memory) {lane : Nat}
    (known : lane < filling.geometry.lanes) :
    memory[lane * filling.geometry.columns + (filling.geometry.columns - 1)]? =
      some (filling.history lane (passes * filling.geometry.columns - 1)) := by
  have columns := filling.geometry.columns_pos
  have opening := filling.opening_passes some_
  have whole := Nat.le_mul_of_pos_left filling.geometry.columns some_
  have block := filled.keeps.read (t := passes * filling.geometry.columns - 1) known
    (by omega) (by omega)
  rwa [Rings.cell, filling.geometry.last_column some_] at block

section Memory

variable {inst : Instance} {geometry : Geometry} (laid : inst.Laid geometry)

include laid

/-! ## The first blocks -/

theorem fillFirstTwo_eq (seed : List UInt8) {l : Nat} (known : l < geometry.lanes)
    {memory : Memory} (size : memory.size = geometry.lanes * geometry.columns) :
    fillFirstTwo seed inst memory l =
      some ((memory.setIfInBounds (Rings.cell geometry.columns l 0) (firstBlock seed l 0))
        |>.setIfInBounds (Rings.cell geometry.columns l 1) (firstBlock seed l 1)) := by
  have least := geometry.two_le
  have fits : geometry.lanes * geometry.columns < 2 ^ 32 := geometry.fits
  have columns : geometry.columns = 4 * geometry.segment := rfl
  have cell := Rings.cell_lt geometry.columns_pos known 1
  have one : Rings.cell geometry.columns l 1 = l * geometry.columns + 1 := by
    rw [Rings.cell, Nat.mod_eq_of_lt (by omega)]
  have zero : Rings.cell geometry.columns l 0 = l * geometry.columns := by
    rw [Rings.cell, Nat.zero_mod, Nat.add_zero]
  have lane : (UInt32.ofNat l).toNat = l :=
    Nat.mod_eq_of_lt (Nat.lt_of_lt_of_le known (by
      have := Nat.le_mul_of_pos_right geometry.lanes geometry.columns_pos
      omega))
  have row : (UInt32.ofNat l * inst.laneLength).toNat = l * geometry.columns := by
    rw [mul_toNat (by rw [lane, laid.laneLength]; omega), lane, laid.laneLength]
  have first : (UInt32.ofNat l * inst.laneLength + 0).toNat = Rings.cell geometry.columns l 0 := by
    rw [UInt32.add_zero, row, zero]
  have second : (UInt32.ofNat l * inst.laneLength + 1).toNat = Rings.cell geometry.columns l 1 := by
    rw [add_toNat (by rw [row]; change _ + 1 < _; omega), row, one]
    rfl
  have block (column : UInt32) :
      seedBlock seed column (UInt32.ofNat l) = loadBlock (longDigest blockBytes
        (seed ++ store32 column ++ store32 (UInt32.ofNat l))) := by
    rw [seedBlock, blake2bLong_eq (by decide) (by decide), Option.getD_some]
  have inside : Rings.cell geometry.columns l 0 < memory.size := by omega
  have inside' : Rings.cell geometry.columns l 1 < memory.size := by omega
  simp only [fillFirstTwo, first, second, block, writeBlock, if_pos inside, Option.bind_eq_bind,
    Option.bind_some, Array.size_setIfInBounds, if_pos inside']
  rfl

/-- After the first blocks the memory is that before the first slice, whatever was in it. -/
theorem fillFirstBlocks_eq (seed : List UInt8) {memory : Memory}
    (size : memory.size = geometry.lanes * geometry.columns) :
    ∃ memory', fillFirstBlocks seed inst memory = some memory' ∧
      (inst.filling geometry (firstBlock seed)).Filled 0 memory' := by
  let filling := inst.filling geometry (firstBlock seed)
  let done (n lane : Nat) : Nat := if lane < n then 2 else 0
  obtain ⟨memory', run, size', keeps⟩ := foldlM_range geometry.lanes
    (f := fillFirstTwo seed inst)
    (P := fun n memory => memory.size = geometry.lanes * geometry.columns ∧
      Rings.KeepsAll memory geometry.columns geometry.lanes filling.history (done n))
    (s := memory) ⟨size, fun _ _ _ past => nomatch past⟩ (by
      rintro l known memory ⟨size, keeps⟩
      refine ⟨_, fillFirstTwo_eq laid seed known size, ?_, ?_⟩
      · simp only [Array.size_setIfInBounds, size]
      · have none : done l l = 0 := if_neg (Nat.lt_irrefl l)
        have first := keeps.write geometry.columns_pos known size
        have second := first.write geometry.columns_pos known
          (by rw [Array.size_setIfInBounds, size])
        rw [Function.update_self, Function.update_idem, none, Nat.zero_add,
          filling.history_first (by decide), filling.history_first (by decide)] at second
        have both : Function.update (done l) l 2 = done (l + 1) := by
          funext lane
          simp only [done, Function.update_apply]
          split_ifs <;> omega
        rw [← both]
        exact second)
  have least := geometry.two_le
  have opening : filling.opening 0 = 2 := by
    rw [Filling.opening, Nat.zero_mul]
    rfl
  refine ⟨memory', ?_, size', fun lane known => ?_, fun _ _ => ?_, fun _ _ => ?_⟩
  · rw [fillFirstBlocks, laid.lanes]
    exact run
  · have two : done geometry.lanes lane = 2 := if_pos known
    rw [opening, ← two]
    exact keeps lane known
  · rw [Nat.zero_mul]
    exact Nat.zero_le _
  · rw [opening, Nat.zero_mul, Nat.zero_add]
    exact least

/-! ## The last blocks -/

theorem laneLength_sub_one : (inst.laneLength - 1).toNat = geometry.columns - 1 := by
  rw [sub_one_toNat (by rw [laid.laneLength]; exact geometry.columns_pos), laid.laneLength]

theorem lastBlock_eq {first : Nat → Nat → Block} {passes : Nat} (some_ : 0 < passes)
    {memory : Memory} (filled : (inst.filling geometry first).Filled (4 * passes) memory)
    {l : Nat} (known : l < geometry.lanes) :
    lastBlock inst memory (UInt32.ofNat l) =
      some ((inst.filling geometry first).history l (passes * geometry.columns - 1)) := by
  have fits : geometry.lanes * geometry.columns < 2 ^ 32 := geometry.fits
  have columns := geometry.columns_pos
  have cell := Rings.cell_lt columns known (passes * geometry.columns - 1)
  rw [Rings.cell, geometry.last_column some_] at cell
  have few := Nat.le_mul_of_pos_right geometry.lanes columns
  have lane : (UInt32.ofNat l).toNat = l := Nat.mod_eq_of_lt (by omega)
  have row : (UInt32.ofNat l * inst.laneLength).toNat = l * geometry.columns := by
    rw [mul_toNat (by rw [lane, laid.laneLength]; omega), lane, laid.laneLength]
  have end_ := laneLength_sub_one laid
  rw [lastBlock, add_toNat (by rw [row, end_]; omega), row, end_]
  exact filled.read_last some_ known

/-- `finalize` hashes the last blocks of a filled memory. -/
theorem finalize_eq (context : Context) (positive : 0 < context.outlen.toNat)
    {first : Nat → Nat → Block} {passes : Nat} (some_ : 0 < passes) {memory : Memory}
    (filled : (inst.filling geometry first).Filled (4 * passes) memory) :
    finalize context inst memory = some (longDigest context.outlen.toNat (storeBlock
      ((inst.filling geometry first).combined (passes * geometry.columns - 1)))) := by
  let filling := inst.filling geometry first
  let last := passes * geometry.columns - 1
  let mix (block : Block) (lane : Nat) : Block := xorBlock block (filling.history lane last)
  let step (block : Block) (l : Nat) : Option Block := do
    let next ← lastBlock inst memory (UInt32.ofNat l)
    pure (xorBlock block next)
  have opens : memory[(inst.laneLength - 1).toNat]? = some (filling.history 0 last) := by
    have block := filled.read_last some_ geometry.lanes_pos
    rwa [Nat.zero_mul, Nat.zero_add, Instance.filling_geometry,
      ← laneLength_sub_one laid] at block
  have dropped : (List.range inst.lanes.toNat).drop 1 = List.range' 1 (geometry.lanes - 1) := by
    rw [laid.lanes, List.range_eq_range', List.drop_range']
  obtain ⟨blockhash, run, combined⟩ := foldlM_range' 1 (geometry.lanes - 1) (f := step)
    (s := filling.history 0 last)
    (P := fun n block => block = (List.range' 1 (n - 1)).foldl mix (filling.history 0 last))
    rfl (by
      intro n more few block combined
      refine ⟨mix block n, ?_, ?_⟩
      · change (lastBlock inst memory (UInt32.ofNat n)).bind _ = _
        rw [lastBlock_eq laid some_ filled (by omega)]
        rfl
      · obtain ⟨before, rfl⟩ : ∃ before, n = 1 + before := ⟨n - 1, by omega⟩
        rw [Nat.add_sub_cancel_left] at combined
        rw [Nat.add_sub_cancel, Nat.add_comm 1 before, List.range'_1_concat, List.foldl_append,
          ← combined, Nat.add_comm before]
        rfl)
  rw [Nat.add_sub_cancel_left] at combined
  rw [finalize, opens]
  change ((List.foldlM step (filling.history 0 last) _).bind fun blockhash =>
    blake2bLong context.outlen.toNat (storeBlock blockhash)) = _
  rw [dropped, run, combined]
  exact blake2bLong_eq positive (Nat.le_of_lt_succ context.outlen.toNat_lt) _

end Memory

/-! ## The whole hash -/

@[simp] theorem initialHash_outlen (context : Context) (type : UInt32) :
    (initialHash context type).2.outlen = context.outlen := by
  have pwd : (clearPassword context).outlen = context.outlen := by
    rw [clearPassword]
    split <;> rfl
  change (clearSecret (clearPassword context)).outlen = context.outlen
  rw [← pwd, clearSecret]
  split <;> rfl

/-- The address of the memory does not count. -/
theorem CostsValid.laid_at {context : Context} (valid : CostsValid context) (type : UInt32)
    (pointer : Pointer) :
    Instance.Laid { instanceOf context type with memory := pointer } valid.geometry :=
  ⟨(valid.laid type).lanes, (valid.laid type).segmentLength, (valid.laid type).laneLength,
    (valid.laid type).memoryBlocks⟩

theorem tagSt_at {context : Context} (valid : CostsValid context)
    (positive : 0 < context.outlen.toNat) (type : UInt32) (pointer : Pointer) {memory : Memory}
    (size : memory.size = (instanceOf context type).memoryBlocks.toNat) :
    tagSt context { instanceOf context type with memory := pointer } memory =
      some (valid.tag type) := by
  have laid := valid.laid_at type pointer
  obtain ⟨memory₁, seeded, filled⟩ := fillFirstBlocks_eq laid
    (digest prehashDigestLength 0 (preimage context type)) (size.trans laid.memoryBlocks)
  obtain ⟨memory₂, run, after⟩ := fillMemoryBlocksSt_eq laid filled
  have tag := finalize_eq laid (initialHash context type).2
    (by rw [initialHash_outlen]; exact positive) valid.time after
  rw [tagSt]
  change ((fillFirstBlocks (initialHash context type).1
    { instanceOf context type with memory := pointer } memory).bind fun memory =>
      (Instance.fillMemoryBlocksSt { instanceOf context type with memory := pointer } memory).bind
        fun filled => finalize (initialHash context type).2
          { instanceOf context type with memory := pointer } filled.2) = _
  rw [initialHash_eq, seeded, Option.bind_some, run, Option.bind_some, tag, initialHash_outlen]
  rfl

/--
With one thread, the code computes the tag of the specification from any memory
of the right size: it never reads a block that it did not write, it never reads
or writes outside of the memory, and overwriting the blocks of the pass before
loses nothing that is needed.
-/
theorem tagSt_eq {context : Context} (valid : CostsValid context)
    (positive : 0 < context.outlen.toNat) (type : UInt32) {memory : Memory}
    (size : memory.size = (instanceOf context type).memoryBlocks.toNat) :
    tagSt context (instanceOf context type) memory = some (valid.tag type) :=
  tagSt_at valid positive type none size

theorem plainContext_valid (pwd salt : List UInt8) : CostsValid (plainContext pwd salt) :=
  ⟨by simp [plainContext], by simp [plainContext], by simp [plainContext],
    by simp [plainContext], by simp [plainContext], rfl⟩

/-- Two lanes, whose blocks are overwritten in a second pass. -/
def twoPasses : Context :=
  { plainContext [112] (List.replicate 8 1) with lanes := 2, mCost := 16, tCost := 2 }

theorem twoPasses_valid : CostsValid twoPasses :=
  ⟨by decide, by decide, by decide, by decide, by decide, rfl⟩

theorem twoPasses_tag :
    tagSt twoPasses (instanceOf twoPasses argon2id) (Array.replicate 16 zeroBlock) =
      some (twoPasses_valid.tag argon2id) :=
  tagSt_eq twoPasses_valid (by decide) argon2id rfl

end UltraLocked.CArgon2
