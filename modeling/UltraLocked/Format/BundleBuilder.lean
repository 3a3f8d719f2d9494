import UltraLocked.Format.Argon2id
import UltraLocked.Format.ItemRecord
import UltraLocked.Format.Manifest

/-!
# The builder

`BundleBuilder.swift`. The state of a build is the number of draws made from
the system random number generator; everything after the staging loop is
independent of it.
-/

namespace UltraLocked.Format

open Library

/-- `array[i]` -/
def element {α : Type} (array : List α) (i : Nat) : Throwing α :=
  match array[i]? with
  | some x => .ok x
  | none => .error (.trapped .indexOutOfRange)

structure BundleBuilder where
  items : List ItemContent
  parameters : Argon2idParameters
  exportLabel : Option String
  exportedAt : Date

namespace BundleBuilder

def init (parameters : Argon2idParameters) (exportLabel : Option String)
    (exportedAt : Date) : BundleBuilder :=
  ⟨[], parameters, exportLabel, exportedAt⟩

def add (builder : BundleBuilder) (item : ItemContent) : BundleBuilder :=
  { builder with items := builder.items ++ [item] }

/-- The turn of the staging loop after the draw: the item's descriptor. -/
def describe (item : ItemContent) (nonce : Bytes) : Throwing ItemDescriptor := do
  let itemSize ← addUInt64 (← uint64OfInt item.plaintext.count)
    (← uint64OfInt ItemRecord.tagSize)
  BundleLimits.validateItemSize itemSize
  ItemDescriptor.init item.id item.name item.mimeType
    (← uint64OfInt item.plaintext.count) item.createdAt item.modifiedAt item.ttlSeconds
    item.ttlOriginEpoch nonce itemSize

/-- One turn of the staging loop: the item's descriptor and nonce. -/
def stageItem (random : SystemRandom) (item : ItemContent) :
    Method Nat (ItemDescriptor × Bytes) := do
  let nonce ← Random.bytes random 12
  let descriptor ← describe item nonce
  pure (descriptor, nonce)

/-- Step 1: stage per-item nonces and predicted item sizes. -/
def stageItems (random : SystemRandom) : List ItemContent → List ItemDescriptor →
    List Bytes → Method Nat (List ItemDescriptor × List Bytes)
  | [], descriptors, itemNonces => pure (descriptors, itemNonces)
  | item :: rest, descriptors, itemNonces => do
      let (descriptor, nonce) ← stageItem random item
      stageItems random rest (descriptors ++ [descriptor]) (itemNonces ++ [nonce])

/-- Step 5 from item `i` on: encrypt each item with (header || item_id) as AAD. -/
def encryptItems (kit : CryptoKit) (masterKey : SymmetricKey) (headerBytes : Bytes)
    (descriptors : List ItemDescriptor) (itemNonces : List Bytes) :
    Nat → List ItemContent → List Bytes → UInt64 → Calling (List Bytes × UInt64)
  | _, [], itemRecords, totalItemBytes => pure (itemRecords, totalItemBytes)
  | i, item :: rest, itemRecords, totalItemBytes => do
      let record ← ItemRecord.encrypt kit item.plaintext.bytes masterKey item.id
        (← element itemNonces i) headerBytes
      let recordSize ← uint64OfInt (byteCount record)
      let descriptor ← element descriptors i
      precondition (recordSize = descriptor.itemSize)
        s!"item record size mismatch for {item.id}"
      let totalItemBytes ← addUInt64 totalItemBytes recordSize
      encryptItems kit masterKey headerBytes descriptors itemNonces (i + 1) rest
        (itemRecords ++ [record]) totalItemBytes

/-- Step 6: check the total size and concatenate. -/
def concatenate (headerBytes ciphertext tag : Bytes) (itemRecords : List Bytes)
    (manifestCiphertextSize totalItemBytes : UInt64) : Throwing Data := do
  let totalSize64 ← addUInt64
    (← addUInt64 (← uint64OfInt BundleHeader.totalSize) manifestCiphertextSize)
    totalItemBytes
  BundleLimits.validateTotalFileSize totalSize64
  let totalSize ← intOfUInt64 totalSize64
  let output := itemRecords.foldl (· ++ ·) (headerBytes ++ ciphertext ++ tag)
  precondition (byteCount output = totalSize) "final bundle size mismatch"
  if fits : output.length < 2 ^ 63 then pure (Data.ofBytes output fits)
  else .error (.trapped .arithmeticOverflow)

/-- Steps 2 and 3: the manifest JSON, its size on disk and the public header. -/
def planHeader (json : JSONCoding Manifest) (builder : BundleBuilder)
    (salt manifestNonce : Bytes) (manifest : Manifest) :
    Throwing (UInt64 × BundleHeader) := do
  let manifestPlaintext ← manifest.encodeJSON json
  let manifestCiphertextSize ← addUInt64 (← uint64OfInt manifestPlaintext.count)
    (← uint64OfInt ItemRecord.tagSize)
  BundleLimits.validateManifestSize manifestCiphertextSize
  let header ← BundleHeader.init 1 BundleHeader.kdfArgon2id builder.parameters.timeCost
    builder.parameters.memoryKiB builder.parameters.parallelism salt manifestNonce
    (← uint32OfUInt64 manifestCiphertextSize)
  pure (manifestCiphertextSize, header)

/-- Steps 2 to 6. -/
def sealStaged (kit : CryptoKit) (json : JSONCoding Manifest) (builder : BundleBuilder)
    (masterKey : SymmetricKey) (salt manifestNonce : Bytes)
    (descriptors : List ItemDescriptor) (itemNonces : List Bytes) : Calling Data := do
  let manifest := Manifest.init builder.exportedAt builder.exportLabel descriptors
  let (manifestCiphertextSize, header) ←
    planHeader json builder salt manifestNonce manifest
  let headerBytes ← header.serialize
  let (ciphertext, tag) ← manifest.encrypt kit json masterKey manifestNonce headerBytes
  let encryptedSize ← uint64OfInt (← addInt (byteCount ciphertext) (byteCount tag))
  precondition (encryptedSize = manifestCiphertextSize)
    "manifest ciphertext+tag size mismatch"
  let (itemRecords, totalItemBytes) ← encryptItems kit masterKey headerBytes descriptors
    itemNonces 0 builder.items [] 0
  concatenate headerBytes ciphertext tag itemRecords manifestCiphertextSize totalItemBytes

def buildBundle (platform : Platform) (builder : BundleBuilder)
    (masterKey : SymmetricKey) (salt manifestNonce : Bytes) : Method Nat Data := do
  let (descriptors, itemNonces) ← stageItems platform.random builder.items [] []
  sealStaged platform.kit platform.json builder masterKey salt manifestNonce descriptors
    itemNonces

/-- `build(passphrase:)` -/
def buildPassphrase (platform : Platform) (builder : BundleBuilder)
    (passphrase : String) : Method Nat Data := do
  let salt ← Random.bytes platform.random BundleHeader.saltSize.toNat
  let manifestNonce ← Random.bytes platform.random BundleHeader.manifestNonceSize.toNat
  let masterKey ← Argon2id.deriveKey platform.argon2 passphrase salt builder.parameters
  buildBundle platform builder masterKey salt manifestNonce

/-- `build(masterKey:salt:manifestNonce:)` -/
def buildMasterKey (platform : Platform) (builder : BundleBuilder)
    (masterKey : SymmetricKey) (salt manifestNonce : Bytes) : Method Nat Data :=
  buildBundle platform builder masterKey salt manifestNonce

/-! ## The builder as an object -/

inductive Call where
  | add (item : ItemContent)
  | buildPassphrase (passphrase : String)
  | buildMasterKey (masterKey : SymmetricKey) (salt manifestNonce : Bytes)

/-- One call: its outcome (the bundle, if it was a build), and the builder and the
number of draws after it. -/
def step (platform : Platform) :
    BundleBuilder × Nat → Call → Calling (Option Data) × (BundleBuilder × Nat)
  | (builder, draws), .add item => (pure none, (builder.add item, draws))
  | (builder, draws), .buildPassphrase passphrase =>
      let (result, draws) := buildPassphrase platform builder passphrase draws
      (result >>= fun bundle => pure (some bundle), (builder, draws))
  | (builder, draws), .buildMasterKey masterKey salt manifestNonce =>
      let (result, draws) :=
        buildMasterKey platform builder masterKey salt manifestNonce draws
      (result >>= fun bundle => pure (some bundle), (builder, draws))

end BundleBuilder

/-- A call that trapped ended the process. -/
def Survives {α : Type} (result : Calling α) : Prop :=
  ∀ trap, result.outcome ≠ .error (.trapped trap)

theorem survives_of_ok {α : Type} {result : Calling α} {value : α}
    (returned : result.outcome = .ok value) : Survives result := by
  intro trap trapped
  cases returned.symm.trans trapped

end UltraLocked.Format
