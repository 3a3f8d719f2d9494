import UltraLocked.Format.BundleHeader

/-!
# The header codec

A header is laid out as ten consecutive fields. A byte string starts with the
encoding of a header exactly when each field of the layout reads as the bytes
of that field, and that is what parsing establishes.
-/

namespace UltraLocked.Format

open Library

/-! ## Multi-byte fields -/

theorem littleEndian16_eq (value : UInt16) :
    littleEndian16 value = LittleEndian.encode 2 value.toNat := by
  simp only [littleEndian16, LittleEndian.encode, List.cons.injEq, and_true]
  constructor
  · exact UInt8.toNat_inj.mp (by simp)
  · exact UInt8.toNat_inj.mp (by simp [Nat.shiftRight_eq_div_pow])

theorem littleEndian32_eq (value : UInt32) :
    littleEndian32 value = LittleEndian.encode 4 value.toNat := by
  simp only [littleEndian32, LittleEndian.encode, List.cons.injEq, and_true]
  refine ⟨?_, ?_, ?_, ?_⟩
  · exact UInt8.toNat_inj.mp (by simp)
  · exact UInt8.toNat_inj.mp (by simp [Nat.shiftRight_eq_div_pow])
  · exact UInt8.toNat_inj.mp (by simp [Nat.shiftRight_eq_div_pow, Nat.div_div_eq_div_mul])
  · exact UInt8.toNat_inj.mp (by simp [Nat.shiftRight_eq_div_pow, Nat.div_div_eq_div_mul])

/-- Joining a low part with a shifted high part adds them. -/
theorem or_shiftLeft_eq {low high width : Nat} (small : low < 2 ^ width) :
    low ||| high <<< width = low + 2 ^ width * high := by
  rw [Nat.or_comm, ← Nat.shiftLeft_add_eq_or_of_lt small, Nat.shiftLeft_eq, Nat.add_comm,
    Nat.mul_comm]

theorem join16_toNat (b0 b1 : UInt8) :
    (b0.toUInt16 ||| (b1.toUInt16 <<< 8)).toNat = LittleEndian.decode [b0, b1] := by
  have small0 := b0.toNat_lt
  have small1 := b1.toNat_lt
  have shifted : (b1.toNat <<< 8) % 2 ^ 16 = b1.toNat <<< 8 := by
    rw [Nat.shiftLeft_eq, Nat.mod_eq_of_lt (by omega)]
  simp only [UInt16.toNat_or, UInt16.toNat_shiftLeft, UInt8.toNat_toUInt16]
  change b0.toNat ||| (b1.toNat <<< 8) % 2 ^ 16 = _
  rw [shifted, or_shiftLeft_eq (by omega)]
  simp [LittleEndian.decode]

theorem join32_toNat (b0 b1 b2 b3 : UInt8) :
    (b0.toUInt32 ||| (b1.toUInt32 <<< 8) ||| (b2.toUInt32 <<< 16) |||
      (b3.toUInt32 <<< 24)).toNat = LittleEndian.decode [b0, b1, b2, b3] := by
  have small0 := b0.toNat_lt
  have small1 := b1.toNat_lt
  have small2 := b2.toNat_lt
  have small3 := b3.toNat_lt
  have shifted1 : (b1.toNat <<< 8) % 2 ^ 32 = b1.toNat <<< 8 := by
    rw [Nat.shiftLeft_eq, Nat.mod_eq_of_lt (by omega)]
  have shifted2 : (b2.toNat <<< 16) % 2 ^ 32 = b2.toNat <<< 16 := by
    rw [Nat.shiftLeft_eq, Nat.mod_eq_of_lt (by omega)]
  have shifted3 : (b3.toNat <<< 24) % 2 ^ 32 = b3.toNat <<< 24 := by
    rw [Nat.shiftLeft_eq, Nat.mod_eq_of_lt (by omega)]
  simp only [UInt32.toNat_or, UInt32.toNat_shiftLeft, UInt8.toNat_toUInt32]
  change b0.toNat ||| (b1.toNat <<< 8) % 2 ^ 32 ||| (b2.toNat <<< 16) % 2 ^ 32 |||
    (b3.toNat <<< 24) % 2 ^ 32 = _
  have two : b0.toNat ||| b1.toNat <<< 8 = b0.toNat + 2 ^ 8 * b1.toNat :=
    or_shiftLeft_eq (by omega)
  have three : b0.toNat + 2 ^ 8 * b1.toNat ||| b2.toNat <<< 16 =
      b0.toNat + 2 ^ 8 * b1.toNat + 2 ^ 16 * b2.toNat := or_shiftLeft_eq (by omega)
  rw [shifted1, shifted2, shifted3, two, three, or_shiftLeft_eq (by omega)]
  simp only [LittleEndian.decode]
  omega

theorem littleEndian16_injective {left right : UInt16}
    (same : littleEndian16 left = littleEndian16 right) : left = right := by
  rw [littleEndian16_eq, littleEndian16_eq] at same
  exact UInt16.toNat_inj.mp
    (LittleEndian.encode_injective left.toNat_lt right.toNat_lt same)

theorem littleEndian32_injective {left right : UInt32}
    (same : littleEndian32 left = littleEndian32 right) : left = right := by
  rw [littleEndian32_eq, littleEndian32_eq] at same
  exact UInt32.toNat_inj.mp
    (LittleEndian.encode_injective left.toNat_lt right.toNat_lt same)

/-- Inside the buffer, reading two bytes returns the value whose bytes they are. -/
theorem Data.readLittleEndian16_returns {data : Data} (fresh : data.startIndex = 0)
    (offset : Nat) (inside : offset + 2 ≤ data.bytes.length) :
    ∃ value, data.readLittleEndian16 offset = .ok value ∧
      (data.bytes.drop offset).take 2 = littleEndian16 value := by
  have next : ((offset : Int) + 1) = (offset + 1 : Nat) := by omega
  have field : (data.bytes.drop offset).take 2 =
      [data.bytes[offset], data.bytes[offset + 1]] := by
    rw [List.drop_eq_getElem_cons (by omega), List.drop_eq_getElem_cons (by omega)]
    rfl
  refine ⟨data.bytes[offset].toUInt16 ||| (data.bytes[offset + 1].toUInt16 <<< 8), ?_, ?_⟩
  · rw [readLittleEndian16, subscript_eq fresh (by omega), throwing_bind_ok, next,
      subscript_eq fresh (by omega)]
    rfl
  · rw [field, littleEndian16_eq, join16_toNat]
    exact (LittleEndian.encode_decode [_, _]).symm

/-- Inside the buffer, reading four bytes returns the value whose bytes they are. -/
theorem Data.readLittleEndian32_returns {data : Data} (fresh : data.startIndex = 0)
    (offset : Nat) (inside : offset + 4 ≤ data.bytes.length) :
    ∃ value, data.readLittleEndian32 offset = .ok value ∧
      (data.bytes.drop offset).take 4 = littleEndian32 value := by
  have next1 : ((offset : Int) + 1) = (offset + 1 : Nat) := by omega
  have next2 : ((offset : Int) + 2) = (offset + 2 : Nat) := by omega
  have next3 : ((offset : Int) + 3) = (offset + 3 : Nat) := by omega
  have field : (data.bytes.drop offset).take 4 =
      [data.bytes[offset], data.bytes[offset + 1], data.bytes[offset + 2],
        data.bytes[offset + 3]] := by
    rw [List.drop_eq_getElem_cons (by omega), List.drop_eq_getElem_cons (by omega),
      List.drop_eq_getElem_cons (by omega), List.drop_eq_getElem_cons (by omega)]
    rfl
  refine ⟨data.bytes[offset].toUInt32 ||| (data.bytes[offset + 1].toUInt32 <<< 8) |||
    (data.bytes[offset + 2].toUInt32 <<< 16) |||
    (data.bytes[offset + 3].toUInt32 <<< 24), ?_, ?_⟩
  · rw [readLittleEndian32, subscript_eq fresh (by omega), throwing_bind_ok, next1,
      subscript_eq fresh (by omega), throwing_bind_ok, next2,
      subscript_eq fresh (by omega), throwing_bind_ok, next3,
      subscript_eq fresh (by omega)]
    rfl
  · rw [field, littleEndian32_eq, join32_toNat]
    exact (LittleEndian.encode_decode [_, _, _, _]).symm

/-- Inside the buffer, a subscript returns the byte of a one-byte field. -/
theorem Data.subscript_returns {data : Data} (fresh : data.startIndex = 0)
    (offset : Nat) (inside : offset + 1 ≤ data.bytes.length) :
    ∃ value, data.subscript offset = .ok value ∧
      (data.bytes.drop offset).take 1 = [value] := by
  refine ⟨data.bytes[offset], subscript_eq fresh (by omega), ?_⟩
  rw [List.drop_eq_getElem_cons (by omega), List.take_succ_cons, List.take_zero]

namespace BundleHeader

/-! ## The encoding of a header -/

/-- The 96 bytes of a header. -/
def encoded (header : BundleHeader) : Bytes :=
  magic ++ (littleEndian16 header.version ++ ([header.kdfID] ++
    (littleEndian32 header.argon2TimeCost ++ (littleEndian32 header.argon2MemoryKiB ++
    ([header.argon2Parallelism] ++ (header.salt ++ (header.manifestNonce ++
    (littleEndian32 header.manifestSize ++ List.replicate 44 0))))))))

@[simp] theorem length_encoded (header : BundleHeader) : header.encoded.length = 96 := by
  simp [encoded, magic, littleEndian16, littleEndian32, header.length_salt,
    header.length_manifestNonce]

theorem padded_eq {data : Bytes} (fields : data.length = 52) :
    padded data = .ok (data ++ List.replicate 44 0) := by
  have count : byteCount data = 52 := by simp [byteCount, fields]
  have size : (totalSize - 52).toNat = 44 := rfl
  have total : byteCount (data ++ List.replicate 44 0) = totalSize := by
    simp [byteCount, totalSize, fields]
  simp only [padded, count, if_pos (by decide : totalSize - 52 > 0), size,
    precondition_pos total]
  rfl

/-- Serialization never fails: its precondition holds for every header. -/
theorem serialize_eq (header : BundleHeader) : header.serialize = .ok header.encoded := by
  rw [serialize, padded_eq]
  · simp only [encoded, List.append_assoc]
  · simp [magic, littleEndian16, littleEndian32, header.length_salt,
      header.length_manifestNonce]

/-- A byte string starts with an append when it starts with each part in turn. -/
theorem append_isPrefix_iff {α : Type} {first rest whole : List α} :
    first ++ rest <+: whole ↔
      whole.take first.length = first ∧ rest <+: whole.drop first.length := by
  constructor
  · rintro ⟨tail, rfl⟩
    simp
  · rintro ⟨head, tail, same⟩
    refine ⟨tail, ?_⟩
    rw [List.append_assoc, same, ← head, List.length_take]
    conv_rhs => rw [← List.take_append_drop first.length whole]
    rw [head]
    simp

/-- Field by field, what it means to start with the encoding of a header. -/
theorem encoded_isPrefix_iff {header : BundleHeader} {bytes : Bytes} :
    header.encoded <+: bytes ↔
      bytes.take 8 = magic ∧
      (bytes.drop 8).take 2 = littleEndian16 header.version ∧
      (bytes.drop 10).take 1 = [header.kdfID] ∧
      (bytes.drop 11).take 4 = littleEndian32 header.argon2TimeCost ∧
      (bytes.drop 15).take 4 = littleEndian32 header.argon2MemoryKiB ∧
      (bytes.drop 19).take 1 = [header.argon2Parallelism] ∧
      (bytes.drop 20).take 16 = header.salt ∧
      (bytes.drop 36).take 12 = header.manifestNonce ∧
      (bytes.drop 48).take 4 = littleEndian32 header.manifestSize ∧
      (bytes.drop 52).take 44 = List.replicate 44 0 := by
  have magics : magic.length = 8 := rfl
  have words (value : UInt16) : (littleEndian16 value).length = 2 := rfl
  have longs (value : UInt32) : (littleEndian32 value).length = 4 := rfl
  have zeros : List.replicate 44 (0 : UInt8) <+: bytes.drop 52 ↔
      (bytes.drop 52).take 44 = List.replicate 44 0 := by
    rw [List.prefix_iff_eq_take, List.length_replicate, eq_comm]
  simp only [encoded, append_isPrefix_iff, magics, words, longs, header.length_salt,
    header.length_manifestNonce, List.length_singleton, List.drop_drop]
  norm_num only [zeros]

/-! ## Parsing -/

theorem checkMagic_eq_ok_iff {data : Data} (fresh : data.startIndex = 0)
    (expected : Bytes) (i : Nat) (inside : i + expected.length ≤ data.bytes.length) :
    checkMagic data expected i = .ok () ↔
      (data.bytes.drop i).take expected.length = expected := by
  induction expected generalizing i with
  | nil => simp [checkMagic, pure, Except.pure]
  | cons byte rest ih =>
      simp only [List.length_cons] at inside
      rw [checkMagic, Data.subscript_eq fresh (by omega), throwing_bind_ok,
        guards_eq_ok_iff, guardElse_eq_ok_iff, ih (i + 1) (by omega),
        List.drop_eq_getElem_cons (show i < data.bytes.length by omega),
        List.length_cons, List.take_succ_cons, List.cons.injEq]

theorem checkMagic_clean {data : Data} (fresh : data.startIndex = 0)
    (expected : Bytes) (i : Nat) (inside : i + expected.length ≤ data.bytes.length) :
    Clean (checkMagic data expected i) := by
  induction expected generalizing i with
  | nil => exact .of_ok ()
  | cons byte rest ih =>
      simp only [List.length_cons] at inside
      rw [checkMagic, Data.subscript_eq fresh (by omega), throwing_bind_ok]
      exact .guards .of_guard (ih (i + 1) (by omega))

/-- The fixed-size prefix that parsing works on. -/
def headerPart (input : Data) : Data := (input.take totalSize.toNat).copy

theorem headerPart_field {input : Data} {start size : Nat} (inside : start + size ≤ 96) :
    ((headerPart input).bytes.drop start).take size =
      (input.bytes.drop start).take size := by
  change ((input.bytes.take 96).drop start).take size = _
  rw [List.drop_take, List.take_take, Nat.min_eq_left (by omega)]

theorem length_headerPart {input : Data} (long : 96 ≤ input.bytes.length) :
    (headerPart input).bytes.length = 96 := by
  change (input.bytes.take 96).length = 96
  rw [List.length_take, Nat.min_eq_left long]

theorem checkMagic_headerPart_eq_ok_iff {input : Data} (long : 96 ≤ input.bytes.length) :
    checkMagic (headerPart input) magic 0 = .ok () ↔ input.bytes.take 8 = magic := by
  have inside : 0 + magic.length ≤ (headerPart input).bytes.length := by
    rw [length_headerPart long]
    decide
  rw [checkMagic_eq_ok_iff rfl magic 0 inside]
  change ((headerPart input).bytes.drop 0).take 8 = magic ↔ _
  rw [headerPart_field (by omega), List.drop_zero]

/-- The reserved bytes pass their check exactly when they are those of an encoding. -/
theorem reserved_all_zero_iff {input : Data} (long : 96 ≤ input.bytes.length) :
    ((input.bytes.drop 52).take 44).all (· = 0) ↔
      (input.bytes.drop 52).take 44 = List.replicate 44 0 := by
  rw [List.all_eq_true, List.eq_replicate_iff, List.length_take, List.length_drop]
  simp only [decide_eq_true_eq]
  exact ⟨fun all => ⟨by omega, all⟩, And.right⟩

/-- What parsing reads from the fixed-size prefix, each value with the bytes it stands for. -/
structure Reads (input : Data) where
  version : UInt16
  kdfID : UInt8
  argon2TimeCost : UInt32
  argon2MemoryKiB : UInt32
  argon2Parallelism : UInt8
  manifestSize : UInt32
  versionRead : (headerPart input).readLittleEndian16 8 = .ok version
  kdfRead : (headerPart input).subscript 10 = .ok kdfID
  timeRead : (headerPart input).readLittleEndian32 11 = .ok argon2TimeCost
  memoryRead : (headerPart input).readLittleEndian32 15 = .ok argon2MemoryKiB
  lanesRead : (headerPart input).subscript 19 = .ok argon2Parallelism
  sizeRead : (headerPart input).readLittleEndian32 48 = .ok manifestSize
  versionField : (input.bytes.drop 8).take 2 = littleEndian16 version
  kdfField : (input.bytes.drop 10).take 1 = [kdfID]
  timeField : (input.bytes.drop 11).take 4 = littleEndian32 argon2TimeCost
  memoryField : (input.bytes.drop 15).take 4 = littleEndian32 argon2MemoryKiB
  lanesField : (input.bytes.drop 19).take 1 = [argon2Parallelism]
  sizeField : (input.bytes.drop 48).take 4 = littleEndian32 manifestSize

/-- An input that is long enough can be read. -/
theorem exists_reads {input : Data} (long : 96 ≤ input.bytes.length) :
    Nonempty (Reads input) := by
  have fresh : (headerPart input).startIndex = 0 := rfl
  have length := length_headerPart long
  obtain ⟨version, versionRead, versionField⟩ :=
    Data.readLittleEndian16_returns fresh 8 (by omega)
  obtain ⟨kdfID, kdfRead, kdfField⟩ := Data.subscript_returns fresh 10 (by omega)
  obtain ⟨argon2TimeCost, timeRead, timeField⟩ :=
    Data.readLittleEndian32_returns fresh 11 (by omega)
  obtain ⟨argon2MemoryKiB, memoryRead, memoryField⟩ :=
    Data.readLittleEndian32_returns fresh 15 (by omega)
  obtain ⟨argon2Parallelism, lanesRead, lanesField⟩ :=
    Data.subscript_returns fresh 19 (by omega)
  obtain ⟨manifestSize, sizeRead, sizeField⟩ :=
    Data.readLittleEndian32_returns fresh 48 (by omega)
  rw [headerPart_field (by omega)] at versionField kdfField timeField
  rw [headerPart_field (by omega)] at memoryField lanesField sizeField
  exact ⟨⟨version, kdfID, argon2TimeCost, argon2MemoryKiB, argon2Parallelism, manifestSize,
    versionRead, kdfRead, timeRead, memoryRead, lanesRead, sizeRead, versionField, kdfField,
    timeField, memoryField, lanesField, sizeField⟩⟩

/-- A range of the prefix, as parsing takes it. -/
theorem headerPart_subdata {input : Data} (long : 96 ≤ input.bytes.length)
    (lower upper : Nat) (ordered : lower ≤ upper) (inside : upper ≤ 96) :
    ∃ part : Data, (headerPart input).subdata lower upper = .ok part ∧
      part.bytes = (input.bytes.drop lower).take (upper - lower) := by
  have length := length_headerPart long
  refine ⟨_, Data.subdata_eq rfl lower upper ordered (by omega), ?_⟩
  rw [Data.part_bytes, headerPart_field (by omega)]

/-- Past the magic bytes only the last checks are left of parsing. -/
theorem Reads.parse_eq {input : Data} (long : 96 ≤ input.bytes.length)
    (reads : Reads input) :
    parse input = (do
      checkMagic (headerPart input) magic 0
      guardElse (((input.bytes.drop 52).take 44).all (· = 0))
        (.invalidHeader "reserved bytes must be zero")
      init reads.version reads.kdfID reads.argon2TimeCost reads.argon2MemoryKiB
        reads.argon2Parallelism ((input.bytes.drop 20).take 16)
        ((input.bytes.drop 36).take 12) reads.manifestSize) := by
  obtain ⟨salt, saltRead, saltBytes⟩ :=
    headerPart_subdata long 20 36 (by omega) (by omega)
  obtain ⟨nonce, nonceRead, nonceBytes⟩ :=
    headerPart_subdata long 36 48 (by omega) (by omega)
  obtain ⟨reserved, reservedRead, reservedBytes⟩ :=
    headerPart_subdata long 52 96 (by omega) (by omega)
  simp only [Nat.cast_ofNat] at saltRead nonceRead reservedRead
  change (headerPart input).subdata 52 totalSize = _ at reservedRead
  have enough : input.count ≥ totalSize := by
    simp only [Data.count, byteCount, totalSize]; omega
  have whole : (input.take totalSize.toNat).copy = headerPart input := rfl
  rw [parse, guardElse_pos enough, throwing_bind_ok]
  simp only [whole]
  cases checkMagic (headerPart input) magic 0 with
  | error stop => rfl
  | ok passed =>
      rw [throwing_bind_ok, reads.versionRead, throwing_bind_ok, reads.kdfRead,
        throwing_bind_ok, reads.timeRead, throwing_bind_ok, reads.memoryRead,
        throwing_bind_ok, reads.lanesRead, throwing_bind_ok, saltRead, throwing_bind_ok,
        nonceRead, throwing_bind_ok, reads.sizeRead, throwing_bind_ok, reservedRead,
        throwing_bind_ok, saltBytes, nonceBytes, reservedBytes]
      rfl

theorem parse_of_short {input : Data} (short : input.bytes.length < 96) :
    parse input = throwBundle (.truncated totalSize input.count) := by
  have few : ¬ input.count ≥ totalSize := by
    simp only [Data.count, byteCount, totalSize]; omega
  rw [parse, guardElse_neg few]
  rfl

/-- Parsing never traps, and throws nothing but a `BundleError`. -/
theorem parse_clean (input : Data) : Clean (parse input) := by
  by_cases long : 96 ≤ input.bytes.length
  · obtain ⟨reads⟩ := exists_reads long
    rw [reads.parse_eq long]
    refine .guards (checkMagic_clean rfl magic 0 ?_) (.guards .of_guard init_clean)
    rw [length_headerPart long]
    decide
  · rw [parse_of_short (Nat.lt_of_not_le long)]
    exact .of_throw _

/-- Parsing accepts exactly the byte strings that start with an encoding. -/
theorem parse_eq_ok_iff {input : Data} {header : BundleHeader} :
    parse input = .ok header ↔ header.encoded <+: input.bytes := by
  by_cases long : 96 ≤ input.bytes.length
  · obtain ⟨reads⟩ := exists_reads long
    rw [reads.parse_eq long, encoded_isPrefix_iff, reads.versionField, reads.kdfField,
      reads.timeField, reads.memoryField, reads.lanesField, reads.sizeField,
      ← reserved_all_zero_iff long, ← checkMagic_headerPart_eq_ok_iff long]
    constructor
    · intro built
      obtain ⟨matched, rest⟩ := guards_eq_ok_iff.mp built
      obtain ⟨reserved, rest⟩ := guards_eq_ok_iff.mp rest
      obtain ⟨versions, kdfs, times, memories, lanes, salt, manifestNonce, sizes⟩ :=
        init_eq_ok_iff.mp rest
      rw [versions, kdfs, times, memories, lanes, sizes]
      exact ⟨matched, rfl, rfl, rfl, rfl, rfl, salt.symm, manifestNonce.symm, rfl,
        guardElse_eq_ok_iff.mp reserved⟩
    · rintro ⟨matched, versions, kdfs, times, memories, lanes, salt, manifestNonce, sizes,
        reserved⟩
      rw [matched, throwing_bind_ok, guardElse_pos reserved, throwing_bind_ok]
      exact init_eq_ok_iff.mpr ⟨(littleEndian16_injective versions).symm,
        (List.singleton_inj.mp kdfs).symm, (littleEndian32_injective times).symm,
        (littleEndian32_injective memories).symm, (List.singleton_inj.mp lanes).symm,
        salt.symm, manifestNonce.symm, (littleEndian32_injective sizes).symm⟩
  · rw [parse_of_short (Nat.lt_of_not_le long)]
    constructor
    · intro impossible; cases impossible
    · intro starts
      have bound := starts.length_le
      rw [length_encoded] at bound
      exact absurd bound long

/-- The first 96 bytes of an accepted input are the encoding of its header. -/
theorem take_of_parse {input : Data} {header : BundleHeader}
    (parsed : parse input = .ok header) : input.bytes.take 96 = header.encoded := by
  have starts := List.prefix_iff_eq_take.mp (parse_eq_ok_iff.mp parsed)
  rw [length_encoded] at starts
  exact starts.symm

/-- Every header is parsed from its own encoding. -/
theorem exists_parsed (header : BundleHeader) :
    ∃ input, input.bytes = header.encoded ∧ parse input = .ok header := by
  have bound : 0 + header.encoded.length < 2 ^ 63 := by rw [length_encoded]; omega
  exact ⟨⟨header.encoded, 0, bound⟩, rfl, parse_eq_ok_iff.mpr (List.prefix_refl _)⟩

theorem encoded_injective {left right : BundleHeader}
    (same : left.encoded = right.encoded) : left = right := by
  obtain ⟨input, encoded, first⟩ := exists_parsed left
  have second : parse input = .ok right :=
    parse_eq_ok_iff.mpr ((encoded.trans same) ▸ List.prefix_rfl)
  exact Except.ok.inj (first.symm.trans second)

/--
The header codec is a bijection between headers and the 96-byte prefixes that
parsing accepts, whatever follows the prefix and wherever the slice starts.
-/
theorem header_codec_bijection (input : Data) (header : BundleHeader) :
    (parse input = .ok header ↔
      ∃ bytes tail, header.serialize = .ok bytes ∧ input.bytes = bytes ++ tail) ∧
    (∃ bytes, header.serialize = .ok bytes ∧ bytes.length = 96) ∧
    (∀ accepted, parse input = .ok accepted →
      accepted.serialize = .ok (input.bytes.take 96)) ∧
    (∀ other : BundleHeader, other.serialize = header.serialize → other = header) ∧
    (∀ other : Data, other.bytes.take 96 = input.bytes.take 96 →
      (parse other = .ok header ↔ parse input = .ok header)) := by
  refine ⟨?_, ⟨_, header.serialize_eq, header.length_encoded⟩, ?_, ?_, ?_⟩
  · rw [parse_eq_ok_iff]
    constructor
    · rintro ⟨tail, same⟩
      exact ⟨header.encoded, tail, header.serialize_eq, same.symm⟩
    · rintro ⟨bytes, tail, serialized, same⟩
      rw [serialize_eq, Except.ok.injEq] at serialized
      exact ⟨tail, by rw [serialized, same]⟩
  · intro accepted parsed
    rw [serialize_eq, take_of_parse parsed]
  · intro other same
    rw [serialize_eq, serialize_eq, Except.ok.injEq] at same
    exact encoded_injective same
  · intro other same
    rw [parse_eq_ok_iff, parse_eq_ok_iff, List.prefix_iff_eq_take, List.prefix_iff_eq_take,
      length_encoded, same]

end BundleHeader

end UltraLocked.Format
