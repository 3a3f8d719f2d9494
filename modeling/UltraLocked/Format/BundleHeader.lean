import UltraLocked.Format.BundleLimits
import UltraLocked.Library.LittleEndian

/-!
# The 96-byte public header

`BundleHeader.swift`. A header value carries the fact that the checks of its
initialiser passed, which is its only way into existence.
-/

namespace UltraLocked.Format

open Library (LittleEndian.encode LittleEndian.decode)

/-! ## Byte helpers -/

/-- `appendLittleEndian` of a `UInt16`: the bytes appended. -/
def littleEndian16 (value : UInt16) : Bytes :=
  [value.toUInt8, (value >>> 8).toUInt8]

/-- `appendLittleEndian` of a `UInt32`: the bytes appended. -/
def littleEndian32 (value : UInt32) : Bytes :=
  [value.toUInt8, (value >>> 8).toUInt8, (value >>> 16).toUInt8, (value >>> 24).toUInt8]

def Data.readLittleEndian16 (data : Data) (offset : Int) : Throwing UInt16 := do
  let lo ← data.subscript offset
  let hi ← data.subscript (offset + 1)
  pure (lo.toUInt16 ||| (hi.toUInt16 <<< 8))

def Data.readLittleEndian32 (data : Data) (offset : Int) : Throwing UInt32 := do
  let b0 ← data.subscript offset
  let b1 ← data.subscript (offset + 1)
  let b2 ← data.subscript (offset + 2)
  let b3 ← data.subscript (offset + 3)
  pure (b0.toUInt32 ||| (b1.toUInt32 <<< 8) ||| (b2.toUInt32 <<< 16) |||
    (b3.toUInt32 <<< 24))

namespace BundleHeader

/-- ASCII "ULOCKED1". -/
def magic : Bytes := [0x55, 0x4C, 0x4F, 0x43, 0x4B, 0x45, 0x44, 0x31]

def totalSize : Int := 96
def kdfArgon2id : UInt8 := 1
def saltSize : Int := 16
def manifestNonceSize : Int := 12

/-- The guards of the initialiser, in order. -/
def check (version : UInt16) (kdfID : UInt8) (argon2TimeCost argon2MemoryKiB : UInt32)
    (argon2Parallelism : UInt8) (salt manifestNonce : Bytes) (manifestSize : UInt32) :
    Throwing Unit := do
  guardElse (version = 1) (.unsupportedVersion version)
  guardElse (kdfID = kdfArgon2id) (.unsupportedKDF kdfID)
  guardElse (byteCount salt = saltSize)
    (.invalidHeader s!"salt must be exactly {saltSize} bytes, got {byteCount salt}")
  guardElse (byteCount manifestNonce = manifestNonceSize)
    (.invalidHeader
      s!"manifest_nonce must be exactly {manifestNonceSize} bytes, got {byteCount manifestNonce}")
  BundleLimits.validateArgon2Params argon2TimeCost argon2MemoryKiB argon2Parallelism
  BundleLimits.validateManifestSize manifestSize.toUInt64

end BundleHeader

structure BundleHeader where
  version : UInt16
  kdfID : UInt8
  argon2TimeCost : UInt32
  argon2MemoryKiB : UInt32
  argon2Parallelism : UInt8
  salt : Bytes
  manifestNonce : Bytes
  manifestSize : UInt32
  checked : BundleHeader.check version kdfID argon2TimeCost argon2MemoryKiB
    argon2Parallelism salt manifestNonce manifestSize = .ok ()

namespace BundleHeader

def init (version : UInt16) (kdfID : UInt8) (argon2TimeCost argon2MemoryKiB : UInt32)
    (argon2Parallelism : UInt8) (salt manifestNonce : Bytes) (manifestSize : UInt32) :
    Throwing BundleHeader :=
  match passed : check version kdfID argon2TimeCost argon2MemoryKiB argon2Parallelism
      salt manifestNonce manifestSize with
  | .ok () => .ok ⟨version, kdfID, argon2TimeCost, argon2MemoryKiB, argon2Parallelism,
      salt, manifestNonce, manifestSize, passed⟩
  | .error stop => .error stop

/-- The end of `serialize()`: zeros up to the fixed size, then the size check. -/
def padded (data : Bytes) : Throwing Bytes := do
  let padding := totalSize - byteCount data
  let data := if padding > 0 then data ++ List.replicate padding.toNat 0 else data
  precondition (byteCount data = totalSize) "header serialization size mismatch"
  pure data

/-- Encode the header to its 96-byte on-disk form. -/
def serialize (header : BundleHeader) : Throwing Bytes :=
  padded
    (magic ++ littleEndian16 header.version ++ [header.kdfID] ++
      littleEndian32 header.argon2TimeCost ++ littleEndian32 header.argon2MemoryKiB ++
      [header.argon2Parallelism] ++ header.salt ++ header.manifestNonce ++
      littleEndian32 header.manifestSize)

/-- The loop that compares the magic bytes from position `i` on. -/
def checkMagic (data : Data) : Bytes → Nat → Throwing Unit
  | [], _ => pure ()
  | expected :: rest, i => do
      let byte ← data.subscript i
      guardElse (byte = expected) (.invalidHeader s!"magic mismatch at byte {i}")
      checkMagic data rest (i + 1)

/-- Parse a header from its 96-byte on-disk form. -/
def parse (input : Data) : Throwing BundleHeader := do
  guardElse (input.count ≥ totalSize) (.truncated totalSize input.count)
  let data := (input.take totalSize.toNat).copy
  checkMagic data magic 0
  let version ← data.readLittleEndian16 8
  let kdfID ← data.subscript 10
  let argon2TimeCost ← data.readLittleEndian32 11
  let argon2MemoryKiB ← data.readLittleEndian32 15
  let argon2Parallelism ← data.subscript 19
  let salt ← data.subdata 20 36
  let manifestNonce ← data.subdata 36 48
  let manifestSize ← data.readLittleEndian32 48
  let reserved ← data.subdata 52 totalSize
  guardElse (reserved.bytes.all (· = 0)) (.invalidHeader "reserved bytes must be zero")
  init version kdfID argon2TimeCost argon2MemoryKiB argon2Parallelism salt.bytes
    manifestNonce.bytes manifestSize

/-! ## What the initialiser guarantees -/

theorem check_eq_ok_iff {version : UInt16} {kdfID : UInt8}
    {argon2TimeCost argon2MemoryKiB : UInt32} {argon2Parallelism : UInt8}
    {salt manifestNonce : Bytes} {manifestSize : UInt32} :
    check version kdfID argon2TimeCost argon2MemoryKiB argon2Parallelism salt
        manifestNonce manifestSize = .ok () ↔
      version = 1 ∧ kdfID = 1 ∧ salt.length = 16 ∧ manifestNonce.length = 12 ∧
      BundleLimits.validateArgon2Params argon2TimeCost argon2MemoryKiB
        argon2Parallelism = .ok () ∧
      (16 ≤ manifestSize.toNat ∧ manifestSize.toNat ≤ 1048576) := by
  have salts : byteCount salt = saltSize ↔ salt.length = 16 := by
    simp only [byteCount, saltSize]; omega
  have nonces : byteCount manifestNonce = manifestNonceSize ↔
      manifestNonce.length = 12 := by
    simp only [byteCount, manifestNonceSize]; omega
  simp only [check, guards_eq_ok_iff, guardElse_eq_ok_iff, salts, nonces,
    BundleLimits.validateManifestSize_eq_ok_iff, UInt32.toNat_toUInt64]
  exact Iff.rfl

theorem check_clean (version : UInt16) (kdfID : UInt8)
    (argon2TimeCost argon2MemoryKiB : UInt32) (argon2Parallelism : UInt8)
    (salt manifestNonce : Bytes) (manifestSize : UInt32) :
    Clean (check version kdfID argon2TimeCost argon2MemoryKiB argon2Parallelism salt
      manifestNonce manifestSize) :=
  .guards .of_guard <| .guards .of_guard <| .guards .of_guard <| .guards .of_guard <|
    .guards (BundleLimits.validateArgon2Params_clean _ _ _)
      (BundleLimits.validateManifestSize_clean _)

section Initialiser

variable {version : UInt16} {kdfID : UInt8} {argon2TimeCost argon2MemoryKiB : UInt32}
  {argon2Parallelism : UInt8} {salt manifestNonce : Bytes} {manifestSize : UInt32}

/-- The initialiser returns exactly when its guards pass, with the given fields. -/
theorem init_eq_ok_iff {header : BundleHeader} :
    init version kdfID argon2TimeCost argon2MemoryKiB argon2Parallelism salt
        manifestNonce manifestSize = .ok header ↔
      header.version = version ∧ header.kdfID = kdfID ∧
      header.argon2TimeCost = argon2TimeCost ∧
      header.argon2MemoryKiB = argon2MemoryKiB ∧
      header.argon2Parallelism = argon2Parallelism ∧ header.salt = salt ∧
      header.manifestNonce = manifestNonce ∧ header.manifestSize = manifestSize := by
  unfold init
  constructor
  · intro built
    split at built
    · cases built; simp
    · cases built
  · rintro ⟨rfl, rfl, rfl, rfl, rfl, rfl, rfl, rfl⟩
    split
    · rfl
    · rename_i failed
      rw [header.checked] at failed
      cases failed

theorem init_eq_error_iff {stop : Stop} :
    init version kdfID argon2TimeCost argon2MemoryKiB argon2Parallelism salt
        manifestNonce manifestSize = .error stop ↔
      check version kdfID argon2TimeCost argon2MemoryKiB argon2Parallelism salt
        manifestNonce manifestSize = .error stop := by
  unfold init
  split
  · rename_i passed; simp [passed]
  · rename_i failed; simp [failed]

theorem init_clean :
    Clean (init version kdfID argon2TimeCost argon2MemoryKiB argon2Parallelism salt
      manifestNonce manifestSize) :=
  fun stop failed => check_clean _ _ _ _ _ _ _ _ stop (init_eq_error_iff.mp failed)

end Initialiser

section Fields

variable (header : BundleHeader)

theorem version_eq : header.version = 1 :=
  (check_eq_ok_iff.mp header.checked).1

theorem kdfID_eq : header.kdfID = 1 :=
  (check_eq_ok_iff.mp header.checked).2.1

theorem length_salt : header.salt.length = 16 :=
  (check_eq_ok_iff.mp header.checked).2.2.1

theorem length_manifestNonce : header.manifestNonce.length = 12 :=
  (check_eq_ok_iff.mp header.checked).2.2.2.1

theorem argon2Params_valid :
    BundleLimits.validateArgon2Params header.argon2TimeCost header.argon2MemoryKiB
      header.argon2Parallelism = .ok () :=
  (check_eq_ok_iff.mp header.checked).2.2.2.2.1

theorem manifestSize_bounds :
    16 ≤ header.manifestSize.toNat ∧ header.manifestSize.toNat ≤ 1048576 :=
  (check_eq_ok_iff.mp header.checked).2.2.2.2.2

end Fields

theorem ext_fields {left right : BundleHeader} (version : left.version = right.version)
    (kdfID : left.kdfID = right.kdfID)
    (argon2TimeCost : left.argon2TimeCost = right.argon2TimeCost)
    (argon2MemoryKiB : left.argon2MemoryKiB = right.argon2MemoryKiB)
    (argon2Parallelism : left.argon2Parallelism = right.argon2Parallelism)
    (salt : left.salt = right.salt) (manifestNonce : left.manifestNonce = right.manifestNonce)
    (manifestSize : left.manifestSize = right.manifestSize) : left = right := by
  cases left; cases right
  simp_all

end BundleHeader

end UltraLocked.Format
