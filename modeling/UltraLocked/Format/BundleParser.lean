import UltraLocked.Format.BundleBuilder

/-!
# The parser

`BundleParser.swift`. The object keeps the normalized file and its header, and
between an unlock and a lock the master key and the manifest.
-/

namespace UltraLocked.Format

open Library

/-- The properties of a parser that never change. -/
structure BundleFile where
  header : BundleHeader
  data : Data
  headerBytes : Data

structure BundleParser extends BundleFile where
  masterKey : Option SymmetricKey
  cachedManifest : Option Manifest

namespace BundleParser

/-- `Int(header.manifestSize)` past the header. -/
def manifestEnd (header : BundleHeader) : Throwing Int :=
  addInt BundleHeader.totalSize header.manifestSize.toNat

def init (data : Data) : Throwing BundleParser := do
  BundleLimits.validateTotalFileSize (← uint64OfInt data.count)
  let normalized := data.copy
  let parsedHeader ← BundleHeader.parse normalized
  let manifestEnd ← manifestEnd parsedHeader
  guardElse (normalized.count ≥ manifestEnd) (.truncated manifestEnd normalized.count)
  let headerBytes ← normalized.subdata 0 BundleHeader.totalSize
  pure ⟨⟨parsedHeader, normalized, headerBytes⟩, none, none⟩

def totalItemBytes (items : List ItemDescriptor) : Throwing UInt64 :=
  items.foldlM (fun sum item => addUInt64 sum item.itemSize) 0

/-- The encrypted manifest section, split into ciphertext and tag. -/
def manifestSection (file : BundleFile) : Throwing (Bytes × Bytes) := do
  let manifestStart := BundleHeader.totalSize
  let manifestEnd ← manifestEnd file.header
  let manifestBytes ← file.data.subdata manifestStart manifestEnd
  ItemRecord.splitTag manifestBytes

/-- The item sizes must sum to no more than the bytes after the manifest section. -/
def checkBudget (file : BundleFile) (manifest : Manifest) : Throwing Unit := do
  let itemsByteBudget ← uint64OfInt
    (← subInt file.data.count (← manifestEnd file.header))
  let totalItemBytes ← totalItemBytes manifest.items
  guardElse (totalItemBytes ≤ itemsByteBudget)
    (.manifestParseFailed
      s!"manifest item sizes ({totalItemBytes}) exceed file space ({itemsByteBudget})")

/-- `unlockWithKey` up to the assignments: read the manifest under a key. -/
def openManifest (platform : Platform) (file : BundleFile) (key : SymmetricKey) :
    Calling Manifest := do
  let (ciphertext, tag) ← manifestSection file
  let manifest ← Manifest.decrypt platform.kit platform.json ciphertext tag key
    file.header.manifestNonce file.headerBytes.bytes
  checkBudget file manifest
  pure manifest

def unlockWithKey (platform : Platform) (key : SymmetricKey) :
    Method BundleParser Manifest := do
  let parser ← Proc.read
  let manifest ← openManifest platform parser.toBundleFile key
  Proc.write { parser with masterKey := some key, cachedManifest := some manifest }
  pure manifest

/-- The key that `unlock(passphrase:)` derives from the header. -/
def passphraseKey (platform : Platform) (header : BundleHeader) (passphrase : String) :
    Calling SymmetricKey := do
  let parameters ← Argon2idParameters.init header.argon2TimeCost header.argon2MemoryKiB
    header.argon2Parallelism
  Argon2id.deriveKey platform.argon2 passphrase header.salt parameters

/-- `unlock(passphrase:)` -/
def unlockPassphrase (platform : Platform) (passphrase : String) :
    Method BundleParser Manifest := do
  let parser ← Proc.read
  let key ← passphraseKey platform parser.header passphrase
  unlockWithKey platform key

/-- `unlock(masterKey:)` -/
def unlockMasterKey (platform : Platform) (key : SymmetricKey) :
    Method BundleParser Manifest :=
  unlockWithKey platform key

/-- The offset of the item at `index`: the loop over the preceding item sizes. -/
def recordOffset (header : BundleHeader) (items : List ItemDescriptor) (index : Nat) :
    Throwing Int := do
  (List.range index).foldlM
    (fun offset i => do addInt offset (← intOfUInt64 (← element items i).itemSize))
    (← manifestEnd header)

/-- `decrypt(item:)` once the parser is unlocked. -/
def decryptUnlocked (platform : Platform) (file : BundleFile) (key : SymmetricKey)
    (manifest : Manifest) (item : ItemDescriptor) : Calling Bytes := do
  match manifest.items.findIdx? (fun descriptor => descriptor.id = item.id) with
  | none =>
      (throwBundle (.manifestParseFailed
        s!"item {item.id} is not in this bundle's manifest") : Throwing Bytes)
  | some index =>
      let descriptor ← element manifest.items index
      let offset ← recordOffset file.header manifest.items index
      let recordEnd ← addInt offset (← intOfUInt64 descriptor.itemSize)
      guardElse (file.data.count ≥ recordEnd) (.truncated recordEnd file.data.count)
      let record ← file.data.subdata offset recordEnd
      ItemRecord.decrypt platform.kit record key descriptor.id descriptor.itemNonce
        file.headerBytes.bytes

/-- `decrypt(item:)` -/
def decrypt (platform : Platform) (item : ItemDescriptor) :
    Method BundleParser Bytes := do
  let parser ← Proc.read
  match parser.masterKey, parser.cachedManifest with
  | some key, some manifest =>
      decryptUnlocked platform parser.toBundleFile key manifest item
  | _, _ =>
      (throwBundle (.parameterOutOfBounds
        "must call unlock(...) before decrypt(item:)") : Throwing Bytes)

def lock : Method BundleParser Unit := do
  let parser ← Proc.read
  Proc.write { parser with masterKey := none, cachedManifest := none }

/-! ## The parser as an object -/

inductive Call where
  | unlockPassphrase (passphrase : String)
  | unlockMasterKey (key : SymmetricKey)
  | decrypt (item : ItemDescriptor)
  | lock

inductive Reply where
  | manifest (manifest : Manifest)
  | plaintext (bytes : Bytes)
  | done
  deriving DecidableEq, Repr

/-- One call: its outcome and foreign calls, and the parser after it. -/
def step (platform : Platform) (parser : BundleParser) :
    Call → Calling Reply × BundleParser
  | .unlockPassphrase passphrase =>
      (unlockPassphrase platform passphrase >>= fun manifest =>
        pure (.manifest manifest)) parser
  | .unlockMasterKey key =>
      (unlockMasterKey platform key >>= fun manifest => pure (.manifest manifest)) parser
  | .decrypt item =>
      (decrypt platform item >>= fun plaintext => pure (.plaintext plaintext)) parser
  | .lock => (lock >>= fun _ => pure .done) parser

end BundleParser

end UltraLocked.Format
