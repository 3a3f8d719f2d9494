import UltraLocked.Format.CallLimits

/-!
# Why a header is refused

Which error `parse` throws is decided by the order of its checks: the reserved
bytes are checked before the initialiser looks at the version and the KDF.
-/

namespace UltraLocked.Format

open Library BundleParser

namespace BundleLimits

/-- Every failure of a check is reported as a parameter out of bounds. -/
def OutOfBounds (check : Throwing Unit) : Prop :=
  ∀ stop, check = .error stop →
    ∃ message, stop = .thrown (.bundle (.parameterOutOfBounds message))

namespace OutOfBounds

theorem of_guard {condition : Prop} [Decidable condition] {message : String} :
    OutOfBounds (guardElse condition (.parameterOutOfBounds message)) :=
  fun _ failed => ⟨message, (guardElse_eq_error_iff.mp failed).2⟩

theorem guards {first second : Throwing Unit} (now : OutOfBounds first)
    (later : OutOfBounds second) : OutOfBounds (first >>= fun _ => second) := by
  intro stop failed
  rcases throwing_bind_eq_error_iff.mp failed with here | ⟨_, -, there⟩
  · exact now stop here
  · exact later stop there

end OutOfBounds

theorem validateArgon2Params_outOfBounds (timeCost memoryKiB : UInt32) (parallelism : UInt8) :
    OutOfBounds (validateArgon2Params timeCost memoryKiB parallelism) :=
  .guards .of_guard (.guards .of_guard .of_guard)

theorem validateManifestSize_outOfBounds (size : UInt64) :
    OutOfBounds (validateManifestSize size) :=
  .guards .of_guard .of_guard

end BundleLimits

namespace BundleHeader

/-- The reserved bytes of an input are zero. -/
def ReservedZero (input : Data) : Prop :=
  (input.bytes.drop 52).take 44 = List.replicate 44 0

/-- The costs and the manifest size of an input are in their ranges. -/
structure InRange (input : Data) : Prop where
  timeCost : 1 ≤ field input 11 4 ∧ field input 11 4 ≤ 10
  memoryKiB : 8 ≤ field input 15 4 ∧ field input 15 4 ≤ 262144
  parallelism : 1 ≤ field input 19 1 ∧ field input 19 1 ≤ 8
  manifestSize : 16 ≤ field input 48 4 ∧ field input 48 4 ≤ 1048576

namespace Reads

variable {input : Data} (reads : Reads input)

theorem field_version : field input 8 2 = reads.version.toNat := by
  rw [field, reads.versionField, decode_littleEndian16]

theorem field_kdfID : field input 10 1 = reads.kdfID.toNat := by
  rw [field, reads.kdfField, decode_singleton]

theorem version_eq_iff : field input 8 2 = 1 ↔ reads.version = 1 := by
  rw [reads.field_version, ← UInt16.toNat_inj]
  rfl

theorem kdfID_eq_iff : field input 10 1 = 1 ↔ reads.kdfID = 1 := by
  rw [reads.field_kdfID, ← UInt8.toNat_inj]
  rfl

/-- The ranges are those that the two validators check. -/
theorem inRange_iff : InRange input ↔
    BundleLimits.validateArgon2Params reads.argon2TimeCost reads.argon2MemoryKiB
        reads.argon2Parallelism = .ok () ∧
      BundleLimits.validateManifestSize reads.manifestSize.toUInt64 = .ok () := by
  have timeCost : field input 11 4 = reads.argon2TimeCost.toNat := by
    rw [field, reads.timeField, decode_littleEndian32]
  have memoryKiB : field input 15 4 = reads.argon2MemoryKiB.toNat := by
    rw [field, reads.memoryField, decode_littleEndian32]
  have parallelism : field input 19 1 = reads.argon2Parallelism.toNat := by
    rw [field, reads.lanesField, decode_singleton]
  have manifestSize : field input 48 4 = reads.manifestSize.toNat := by
    rw [field, reads.sizeField, decode_littleEndian32]
  rw [BundleLimits.validateArgon2Params_eq_ok_iff, BundleLimits.validateManifestSize_eq_ok_iff,
    UInt32.toNat_toUInt64, ← timeCost, ← memoryKiB, ← parallelism, ← manifestSize]
  constructor
  · rintro ⟨time, memory, lanes, size⟩
    exact ⟨⟨time, memory, lanes⟩, size⟩
  · rintro ⟨⟨time, memory, lanes⟩, size⟩
    exact ⟨time, memory, lanes, size⟩

end Reads

/-! ## The first check that fails -/

/-- A byte that differs from the magic is reported with its position. -/
theorem checkMagic_error {data : Data} (fresh : data.startIndex = 0) {expected : Bytes} {i : Nat}
    (inside : i + expected.length ≤ data.bytes.length) {stop : Stop}
    (failed : checkMagic data expected i = .error stop) :
    ∃ message, stop = .thrown (.bundle (.invalidHeader message)) := by
  induction expected generalizing i with
  | nil => cases failed
  | cons byte rest ih =>
      simp only [List.length_cons] at inside
      rw [checkMagic, Data.subscript_eq fresh (by omega), throwing_bind_ok] at failed
      rcases throwing_bind_eq_error_iff.mp failed with now | ⟨_, -, later⟩
      · exact ⟨_, (guardElse_eq_error_iff.mp now).2⟩
      · exact ih (by omega) later

theorem parse_of_magic {input : Data} (long : 96 ≤ input.bytes.length)
    (wrong : input.bytes.take 8 ≠ magic) :
    ∃ message, parse input = throwBundle (.invalidHeader message) := by
  obtain ⟨reads⟩ := exists_reads long
  rw [reads.parse_eq long]
  cases checked : checkMagic (headerPart input) magic 0 with
  | ok passed => exact absurd ((checkMagic_headerPart_eq_ok_iff long).mp checked) wrong
  | error stop =>
      have inside : 0 + magic.length ≤ (headerPart input).bytes.length := by
        rw [length_headerPart long]
        decide
      obtain ⟨message, rfl⟩ := checkMagic_error rfl inside checked
      exact ⟨message, rfl⟩

section Long

variable {input : Data} (long : 96 ≤ input.bytes.length)
  (marked : input.bytes.take 8 = magic)

include long marked

/-- A non-zero reserved byte is reported before anything else. -/
theorem parse_of_reserved (nonzero : ¬ ReservedZero input) :
    parse input = throwBundle (.invalidHeader "reserved bytes must be zero") := by
  obtain ⟨reads⟩ := exists_reads long
  rw [reads.parse_eq long, (checkMagic_headerPart_eq_ok_iff long).mpr marked, throwing_bind_ok,
    guardElse_neg (mt (reserved_all_zero_iff long).mp nonzero)]
  rfl

/-- Zero reserved bytes leave the decision to the initialiser. -/
theorem parse_of_zero (zero : ReservedZero input) (reads : Reads input) :
    parse input = init reads.version reads.kdfID reads.argon2TimeCost reads.argon2MemoryKiB
      reads.argon2Parallelism ((input.bytes.drop 20).take 16)
      ((input.bytes.drop 36).take 12) reads.manifestSize := by
  rw [reads.parse_eq long, (checkMagic_headerPart_eq_ok_iff long).mpr marked, throwing_bind_ok,
    guardElse_pos ((reserved_all_zero_iff long).mpr zero), throwing_bind_ok]

theorem parse_of_version (zero : ReservedZero input) (reads : Reads input)
    (wrong : reads.version ≠ 1) : parse input = throwBundle (.unsupportedVersion reads.version) := by
  rw [parse_of_zero long marked zero reads]
  refine init_eq_error_iff.mpr ?_
  rw [check, guardElse_neg wrong]
  rfl

theorem parse_of_kdfID (zero : ReservedZero input) (reads : Reads input)
    (version : reads.version = 1) (wrong : reads.kdfID ≠ 1) :
    parse input = throwBundle (.unsupportedKDF reads.kdfID) := by
  rw [parse_of_zero long marked zero reads]
  refine init_eq_error_iff.mpr ?_
  rw [check, guardElse_pos version, throwing_bind_ok, guardElse_neg (show _ ≠ kdfArgon2id from wrong)]
  rfl

/-- Under the supported version and KDF only the ranges are left to check. -/
theorem parse_of_supported (zero : ReservedZero input) (reads : Reads input)
    (version : reads.version = 1) (kdfID : reads.kdfID = 1) {stop : Stop} :
    parse input = .error stop ↔
      (BundleLimits.validateArgon2Params reads.argon2TimeCost reads.argon2MemoryKiB
          reads.argon2Parallelism >>= fun _ =>
        BundleLimits.validateManifestSize reads.manifestSize.toUInt64) = .error stop := by
  have salt : byteCount ((input.bytes.drop 20).take 16) = saltSize := by
    rw [byteCount, List.length_take, List.length_drop, Nat.min_eq_left (by omega)]
    rfl
  have nonce : byteCount ((input.bytes.drop 36).take 12) = manifestNonceSize := by
    rw [byteCount, List.length_take, List.length_drop, Nat.min_eq_left (by omega)]
    rfl
  rw [parse_of_zero long marked zero reads, init_eq_error_iff, check, guardElse_pos version,
    throwing_bind_ok, guardElse_pos (show reads.kdfID = kdfArgon2id from kdfID),
    throwing_bind_ok, guardElse_pos salt, throwing_bind_ok, guardElse_pos nonce,
    throwing_bind_ok]

/-- A field out of its range is reported as a parameter out of bounds. -/
theorem parse_of_outside (zero : ReservedZero input) (reads : Reads input)
    (version : reads.version = 1) (kdfID : reads.kdfID = 1) (outside : ¬ InRange input) :
    ∃ message, parse input = throwBundle (.parameterOutOfBounds message) := by
  have refused (stop : Stop) := @parse_of_supported input long marked zero reads version kdfID stop
  have bounds : BundleLimits.OutOfBounds
      (BundleLimits.validateArgon2Params reads.argon2TimeCost reads.argon2MemoryKiB
          reads.argon2Parallelism >>= fun _ =>
        BundleLimits.validateManifestSize reads.manifestSize.toUInt64) :=
    .guards (BundleLimits.validateArgon2Params_outOfBounds _ _ _)
      (BundleLimits.validateManifestSize_outOfBounds _)
  cases checked : (BundleLimits.validateArgon2Params reads.argon2TimeCost reads.argon2MemoryKiB
      reads.argon2Parallelism >>= fun _ =>
        BundleLimits.validateManifestSize reads.manifestSize.toUInt64) with
  | error stop =>
      obtain ⟨message, rfl⟩ := bounds stop checked
      exact ⟨message, (refused _).mpr checked⟩
  | ok passed => exact absurd (reads.inRange_iff.mpr (guards_eq_ok_iff.mp checked)) outside

/-- With every field in its range nothing is reported. -/
theorem parse_of_inRange (zero : ReservedZero input) (reads : Reads input)
    (version : reads.version = 1) (kdfID : reads.kdfID = 1) (inRange : InRange input) :
    ∃ header, parse input = .ok header := by
  obtain ⟨params, size⟩ := reads.inRange_iff.mp inRange
  cases parsed : parse input with
  | ok header => exact ⟨header, rfl⟩
  | error stop =>
      rw [parse_of_supported long marked zero reads version kdfID, params, throwing_bind_ok,
        size] at parsed
      cases parsed

end Long

/-- What parsing an input comes to, with the first check that decides it. -/
inductive Verdict (input : Data) : Throwing BundleHeader → Prop where
  | short (few : input.bytes.length < 96) (expected actual : Int) :
      Verdict input (throwBundle (.truncated expected actual))
  | unmarked (long : 96 ≤ input.bytes.length) (wrong : input.bytes.take 8 ≠ magic)
      (message : String) : Verdict input (throwBundle (.invalidHeader message))
  | reserved (long : 96 ≤ input.bytes.length) (nonzero : ¬ ReservedZero input) :
      Verdict input (throwBundle (.invalidHeader "reserved bytes must be zero"))
  | version (long : 96 ≤ input.bytes.length) (zero : ReservedZero input) (v : UInt16)
      (read : field input 8 2 = v.toNat) (wrong : field input 8 2 ≠ 1) :
      Verdict input (throwBundle (.unsupportedVersion v))
  | kdfID (long : 96 ≤ input.bytes.length) (zero : ReservedZero input)
      (supported : field input 8 2 = 1) (k : UInt8) (read : field input 10 1 = k.toNat)
      (wrong : field input 10 1 ≠ 1) : Verdict input (throwBundle (.unsupportedKDF k))
  | outside (long : 96 ≤ input.bytes.length) (zero : ReservedZero input)
      (supported : field input 8 2 = 1) (argon2id : field input 10 1 = 1)
      (outside : ¬ InRange input) (message : String) :
      Verdict input (throwBundle (.parameterOutOfBounds message))
  | accepted (long : 96 ≤ input.bytes.length) (zero : ReservedZero input)
      (supported : field input 8 2 = 1) (argon2id : field input 10 1 = 1)
      (inRange : InRange input) (header : BundleHeader) : Verdict input (.ok header)

theorem parse_verdict (input : Data) : Verdict input (parse input) := by
  by_cases long : 96 ≤ input.bytes.length
  · by_cases marked : input.bytes.take 8 = magic
    · by_cases zero : ReservedZero input
      · obtain ⟨reads⟩ := exists_reads long
        by_cases version : reads.version = 1
        · have supported := reads.version_eq_iff.mpr version
          by_cases kdfID : reads.kdfID = 1
          · have argon2id := reads.kdfID_eq_iff.mpr kdfID
            by_cases inRange : InRange input
            · obtain ⟨header, parsed⟩ :=
                parse_of_inRange long marked zero reads version kdfID inRange
              rw [parsed]
              exact .accepted long zero supported argon2id inRange header
            · obtain ⟨message, parsed⟩ :=
                parse_of_outside long marked zero reads version kdfID inRange
              rw [parsed]
              exact .outside long zero supported argon2id inRange message
          · rw [parse_of_kdfID long marked zero reads version kdfID]
            exact .kdfID long zero supported _ reads.field_kdfID
              (mt reads.kdfID_eq_iff.mp kdfID)
        · rw [parse_of_version long marked zero reads version]
          exact .version long zero _ reads.field_version (mt reads.version_eq_iff.mp version)
      · rw [parse_of_reserved long marked zero]
        exact .reserved long zero
    · obtain ⟨message, parsed⟩ := parse_of_magic long marked
      rw [parsed]
      exact .unmarked long marked message
  · rw [parse_of_short (Nat.lt_of_not_le long)]
    exact .short (Nat.lt_of_not_le long) _ _

/-! ## The true cause -/

/-- The error that parsing an input throws names what is wrong with it. -/
structure NamesCause (input : Data) : Prop where
  truncated : (∃ expected actual, parse input = throwBundle (.truncated expected actual)) ↔
    input.bytes.length < 96
  version : 96 ≤ input.bytes.length → input.bytes.take 8 = magic → ∀ v : UInt16,
    parse input = throwBundle (.unsupportedVersion v) ↔
      v.toNat = field input 8 2 ∧ field input 8 2 ≠ 1
  kdfID : 96 ≤ input.bytes.length → input.bytes.take 8 = magic → field input 8 2 = 1 →
    ∀ k : UInt8, parse input = throwBundle (.unsupportedKDF k) ↔
      k.toNat = field input 10 1 ∧ field input 10 1 ≠ 1
  reserved : 96 ≤ input.bytes.length → input.bytes.take 8 = magic → field input 8 2 = 1 →
    field input 10 1 = 1 →
    ((∃ message, parse input = throwBundle (.invalidHeader message)) ↔ ¬ ReservedZero input)
  range : 96 ≤ input.bytes.length → input.bytes.take 8 = magic → field input 8 2 = 1 →
    field input 10 1 = 1 →
    ((∃ message, parse input = throwBundle (.parameterOutOfBounds message)) ↔
      ReservedZero input ∧ ¬ InRange input)

theorem truncated_iff (input : Data) :
    (∃ expected actual, parse input = throwBundle (.truncated expected actual)) ↔
      input.bytes.length < 96 := by
  have verdict := parse_verdict input
  generalize parse input = result at verdict
  constructor
  · rintro ⟨expected, actual, rfl⟩
    cases verdict with
    | short few => exact few
  · intro few
    cases verdict with
    | short _ expected actual => exact ⟨expected, actual, rfl⟩
    | _ => omega

section Marked

variable {input : Data} (long : 96 ≤ input.bytes.length)
  (marked : input.bytes.take 8 = magic)

include long marked

theorem unsupportedVersion_iff (legible : ReservedZero input ∨ field input 8 2 = 1)
    (v : UInt16) :
    parse input = throwBundle (.unsupportedVersion v) ↔
      v.toNat = field input 8 2 ∧ field input 8 2 ≠ 1 := by
  have verdict := parse_verdict input
  generalize parse input = result at verdict
  constructor
  · rintro rfl
    cases verdict with
    | version _ _ _ read wrong => exact ⟨read.symm, wrong⟩
  · rintro ⟨same, wrong⟩
    cases verdict with
    | short few => omega
    | unmarked _ unmarked => exact absurd marked unmarked
    | reserved _ nonzero => exact absurd (legible.resolve_left nonzero) wrong
    | version _ _ w read => rw [UInt16.toNat_inj.mp (same.trans read)]
    | kdfID _ _ supported => exact absurd supported wrong
    | outside _ _ supported => exact absurd supported wrong
    | accepted _ _ supported => exact absurd supported wrong

theorem unsupportedKDF_iff (supported : field input 8 2 = 1)
    (legible : ReservedZero input ∨ field input 10 1 = 1) (k : UInt8) :
    parse input = throwBundle (.unsupportedKDF k) ↔
      k.toNat = field input 10 1 ∧ field input 10 1 ≠ 1 := by
  have verdict := parse_verdict input
  generalize parse input = result at verdict
  constructor
  · rintro rfl
    cases verdict with
    | kdfID _ _ _ _ read wrong => exact ⟨read.symm, wrong⟩
  · rintro ⟨same, wrong⟩
    cases verdict with
    | short few => omega
    | unmarked _ unmarked => exact absurd marked unmarked
    | reserved _ nonzero => exact absurd (legible.resolve_left nonzero) wrong
    | version _ _ _ _ unsupported => exact absurd supported unsupported
    | kdfID _ _ _ l read => rw [UInt8.toNat_inj.mp (same.trans read)]
    | outside _ _ _ argon2id => exact absurd argon2id wrong
    | accepted _ _ _ argon2id => exact absurd argon2id wrong

theorem invalidHeader_iff :
    (∃ message, parse input = throwBundle (.invalidHeader message)) ↔ ¬ ReservedZero input := by
  have verdict := parse_verdict input
  generalize parse input = result at verdict
  constructor
  · rintro ⟨message, rfl⟩
    cases verdict with
    | unmarked _ unmarked => exact absurd marked unmarked
    | reserved _ nonzero => exact nonzero
  · intro nonzero
    cases verdict with
    | short few => omega
    | unmarked _ unmarked => exact absurd marked unmarked
    | reserved => exact ⟨_, rfl⟩
    | version _ zero => exact absurd zero nonzero
    | kdfID _ zero => exact absurd zero nonzero
    | outside _ zero => exact absurd zero nonzero
    | accepted _ zero => exact absurd zero nonzero

theorem parameterOutOfBounds_iff (supported : field input 8 2 = 1)
    (argon2id : field input 10 1 = 1) :
    (∃ message, parse input = throwBundle (.parameterOutOfBounds message)) ↔
      ReservedZero input ∧ ¬ InRange input := by
  have verdict := parse_verdict input
  generalize parse input = result at verdict
  constructor
  · rintro ⟨message, rfl⟩
    cases verdict with
    | outside _ zero _ _ outside => exact ⟨zero, outside⟩
  · rintro ⟨zero, outside⟩
    cases verdict with
    | short few => omega
    | unmarked _ unmarked => exact absurd marked unmarked
    | reserved _ nonzero => exact absurd zero nonzero
    | version _ _ _ _ unsupported => exact absurd supported unsupported
    | kdfID _ _ _ _ _ wrong => exact absurd argon2id wrong
    | outside _ _ _ _ _ message => exact ⟨message, rfl⟩
    | accepted _ _ _ _ inRange => exact absurd inRange outside

end Marked

/--
The error names the true cause exactly unless the reserved bytes of a marked
header of another version or KDF are not zero.
-/
theorem namesCause_iff (input : Data) :
    NamesCause input ↔
      input.bytes.length < 96 ∨ input.bytes.take 8 ≠ magic ∨ ReservedZero input ∨
        (field input 8 2 = 1 ∧ field input 10 1 = 1) := by
  constructor
  · intro names
    by_contra other
    simp only [not_or, Nat.not_lt, not_not] at other
    obtain ⟨long, marked, nonzero, unsupported⟩ := other
    obtain ⟨reads⟩ := exists_reads long
    have reported := parse_of_reserved long marked nonzero
    by_cases supported : field input 8 2 = 1
    · have wrong : field input 10 1 ≠ 1 := fun argon2id => unsupported ⟨supported, argon2id⟩
      have named := (names.kdfID long marked supported reads.kdfID).mpr
        ⟨reads.field_kdfID.symm, wrong⟩
      cases reported.symm.trans named
    · have named := (names.version long marked reads.version).mpr
        ⟨reads.field_version.symm, supported⟩
      cases reported.symm.trans named
  · intro condition
    have legible (long : 96 ≤ input.bytes.length) (marked : input.bytes.take 8 = magic) :
        ReservedZero input ∨ (field input 8 2 = 1 ∧ field input 10 1 = 1) :=
      (condition.resolve_left (Nat.not_lt.mpr long)).resolve_left (not_not.mpr marked)
    exact
      { truncated := truncated_iff input
        version := fun long marked =>
          unsupportedVersion_iff long marked ((legible long marked).imp_right And.left)
        kdfID := fun long marked supported =>
          unsupportedKDF_iff long marked supported ((legible long marked).imp_right And.right)
        reserved := fun long marked _ _ => invalidHeader_iff long marked
        range := parameterOutOfBounds_iff }

/-- A header of version 2 with a byte in its reserved area. -/
def laterHeader : Data :=
  Data.ofBytes (magic ++ [2, 0, 1] ++ List.replicate 41 0 ++ [1] ++ List.replicate 43 0)
    (by decide)

/-- It is reported as a corrupt header, not as an unsupported version. -/
theorem laterHeader_misreported :
    parse laterHeader = throwBundle (.invalidHeader "reserved bytes must be zero") ∧
      ¬ NamesCause laterHeader := by
  have reported : parse laterHeader =
      throwBundle (.invalidHeader "reserved bytes must be zero") :=
    parse_of_reserved (by decide +kernel) (by decide +kernel) (by unfold ReservedZero; decide +kernel)
  refine ⟨reported, fun names => ?_⟩
  have named := (names.version (by decide +kernel) (by decide +kernel) 2).mpr
    ⟨by decide +kernel, by decide +kernel⟩
  cases reported.symm.trans named

end BundleHeader

end UltraLocked.Format
