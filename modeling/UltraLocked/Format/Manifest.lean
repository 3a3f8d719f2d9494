import UltraLocked.Format.BundleLimits
import UltraLocked.Format.Crypto

/-!
# The manifest

`Manifest.swift` and `ItemContent.swift`. A descriptor is built either by its
validating initialiser or by the synthesized decoder, which checks nothing, so
its type promises nothing; `validate` is the second check.
-/

namespace UltraLocked.Format

open Library

/-- `ItemContent`: one item handed to the builder. -/
structure ItemContent where
  id : UUID
  name : String
  mimeType : String
  plaintext : Data
  createdAt : Date
  modifiedAt : Date
  ttlSeconds : Option UInt64
  ttlOriginEpoch : Option Date

/-- `ItemDescriptor`: one entry of the manifest. -/
structure ItemDescriptor where
  id : UUID
  name : String
  mimeType : String
  sizeBytes : UInt64
  createdAt : Date
  modifiedAt : Date
  ttlSeconds : Option UInt64
  ttlOriginEpoch : Option Date
  itemNonce : Bytes
  itemSize : UInt64
  deriving DecidableEq, Repr

namespace ItemDescriptor

def validateTTLConsistency (ttlSeconds : Option UInt64) (ttlOriginEpoch : Option Date)
    (itemID : UUID) : Throwing Unit :=
  match ttlSeconds, ttlOriginEpoch with
  | none, none => .ok ()
  | some _, some _ => .ok ()
  | _, _ => throwBundle (.manifestParseFailed
      s!"TTL fields for {itemID} must be both present or both absent")

/-- The validating initialiser: its checks, then the fields as given. -/
def init (id : UUID) (name mimeType : String) (sizeBytes : UInt64)
    (createdAt modifiedAt : Date) (ttlSeconds : Option UInt64)
    (ttlOriginEpoch : Option Date) (itemNonce : Bytes) (itemSize : UInt64) :
    Throwing ItemDescriptor := do
  guardElse (byteCount itemNonce = 12)
    (.parameterOutOfBounds s!"item_nonce must be 12 bytes, got {byteCount itemNonce}")
  BundleLimits.validateItemSize itemSize
  validateTTLConsistency ttlSeconds ttlOriginEpoch id
  pure ⟨id, name, mimeType, sizeBytes, createdAt, modifiedAt, ttlSeconds, ttlOriginEpoch,
    itemNonce, itemSize⟩

/-- Validate fields after JSON decode. -/
def validate (item : ItemDescriptor) : Throwing Unit := do
  guardElse (byteCount item.itemNonce = 12)
    (.manifestParseFailed
      s!"item_nonce for {item.id} must be 12 bytes, got {byteCount item.itemNonce}")
  BundleLimits.validateItemSize item.itemSize
  validateTTLConsistency item.ttlSeconds item.ttlOriginEpoch item.id

/-- Every date cut to the whole second. -/
def wholeSeconds (item : ItemDescriptor) : ItemDescriptor :=
  { item with
    createdAt := item.createdAt.wholeSecond
    modifiedAt := item.modifiedAt.wholeSecond
    ttlOriginEpoch := item.ttlOriginEpoch.map Date.wholeSecond }

/-- What both checks require of a descriptor. -/
structure Valid (item : ItemDescriptor) : Prop where
  nonce : item.itemNonce.length = 12
  size : 16 ≤ item.itemSize.toNat ∧ item.itemSize.toNat ≤ 262144000
  ttl : item.ttlSeconds.isSome = item.ttlOriginEpoch.isSome

theorem validateTTLConsistency_eq_ok_iff {ttlSeconds : Option UInt64}
    {ttlOriginEpoch : Option Date} {itemID : UUID} :
    validateTTLConsistency ttlSeconds ttlOriginEpoch itemID = .ok () ↔
      ttlSeconds.isSome = ttlOriginEpoch.isSome := by
  cases ttlSeconds <;> cases ttlOriginEpoch <;>
    simp [validateTTLConsistency, throwBundle]

theorem validateTTLConsistency_clean (ttlSeconds : Option UInt64)
    (ttlOriginEpoch : Option Date) (itemID : UUID) :
    Clean (validateTTLConsistency ttlSeconds ttlOriginEpoch itemID) := by
  unfold validateTTLConsistency
  split
  · exact .of_ok ()
  · exact .of_ok ()
  · exact .of_throw _

theorem validate_eq_ok_iff {item : ItemDescriptor} :
    item.validate = .ok () ↔ item.Valid := by
  have nonces : byteCount item.itemNonce = 12 ↔ item.itemNonce.length = 12 := by
    simp only [byteCount]; omega
  simp only [validate, guards_eq_ok_iff, guardElse_eq_ok_iff, nonces,
    BundleLimits.validateItemSize_eq_ok_iff, validateTTLConsistency_eq_ok_iff]
  exact ⟨fun ⟨nonce, size, ttl⟩ => ⟨nonce, size, ttl⟩,
    fun valid => ⟨valid.nonce, valid.size, valid.ttl⟩⟩

theorem validate_clean (item : ItemDescriptor) : Clean item.validate :=
  .guards .of_guard <| .guards (BundleLimits.validateItemSize_clean _)
    (validateTTLConsistency_clean _ _ _)

/-- The initialiser builds exactly the valid descriptors, with the given fields. -/
theorem init_eq_ok_iff {id : UUID} {name mimeType : String} {sizeBytes : UInt64}
    {createdAt modifiedAt : Date} {ttlSeconds : Option UInt64}
    {ttlOriginEpoch : Option Date} {itemNonce : Bytes} {itemSize : UInt64}
    {item : ItemDescriptor} :
    init id name mimeType sizeBytes createdAt modifiedAt ttlSeconds ttlOriginEpoch
        itemNonce itemSize = .ok item ↔
      item = ⟨id, name, mimeType, sizeBytes, createdAt, modifiedAt, ttlSeconds,
        ttlOriginEpoch, itemNonce, itemSize⟩ ∧ item.Valid := by
  have nonces : byteCount itemNonce = 12 ↔ itemNonce.length = 12 := by
    simp only [byteCount]; omega
  simp only [init, guards_eq_ok_iff, guardElse_eq_ok_iff, nonces,
    BundleLimits.validateItemSize_eq_ok_iff, validateTTLConsistency_eq_ok_iff]
  constructor
  · rintro ⟨nonce, size, ttl, built⟩
    cases built
    exact ⟨rfl, nonce, size, ttl⟩
  · rintro ⟨rfl, valid⟩
    exact ⟨valid.nonce, valid.size, valid.ttl, rfl⟩

theorem init_clean {id : UUID} {name mimeType : String} {sizeBytes : UInt64}
    {createdAt modifiedAt : Date} {ttlSeconds : Option UInt64}
    {ttlOriginEpoch : Option Date} {itemNonce : Bytes} {itemSize : UInt64} :
    Clean (init id name mimeType sizeBytes createdAt modifiedAt ttlSeconds ttlOriginEpoch
      itemNonce itemSize) :=
  .guards .of_guard <| .guards (BundleLimits.validateItemSize_clean _) <|
    .guards (validateTTLConsistency_clean _ _ _) (.of_ok _)

theorem Valid.wholeSeconds {item : ItemDescriptor} (valid : item.Valid) :
    item.wholeSeconds.Valid :=
  ⟨valid.nonce, valid.size, by
    rw [ItemDescriptor.wholeSeconds, Option.isSome_map]; exact valid.ttl⟩

end ItemDescriptor

/-- The record sizes that descriptors announce. -/
def itemSizes (items : List ItemDescriptor) : List Nat :=
  items.map fun item => item.itemSize.toNat

@[simp] theorem length_itemSizes (items : List ItemDescriptor) :
    (itemSizes items).length = items.length := List.length_map _

theorem getElem_itemSizes {items : List ItemDescriptor} {i : Nat} (inside : i < items.length)
    (counted : i < (itemSizes items).length) :
    (itemSizes items)[i] = items[i].itemSize.toNat := by
  simp [itemSizes]

theorem sum_itemSizes_cons (item : ItemDescriptor) (rest : List ItemDescriptor) :
    (itemSizes (item :: rest)).sum = item.itemSize.toNat + (itemSizes rest).sum := by
  simp [itemSizes]

/-- Valid items add up to at most the item limit each. -/
theorem sum_itemSizes_le {items : List ItemDescriptor} (valid : ∀ item ∈ items, item.Valid) :
    (itemSizes items).sum ≤ items.length * 262144000 := by
  induction items with
  | nil => exact Nat.zero_le _
  | cons item rest ih =>
      have first := (valid item List.mem_cons_self).size
      have others := ih fun other member => valid other (List.mem_cons_of_mem _ member)
      rw [sum_itemSizes_cons, List.length_cons]
      omega

structure Manifest where
  schemaVersion : Int
  exportedAt : Date
  exportLabel : Option String
  items : List ItemDescriptor
  deriving DecidableEq, Repr

namespace Manifest

def currentSchemaVersion : Int := 1

def init (exportedAt : Date) (exportLabel : Option String)
    (items : List ItemDescriptor) : Manifest :=
  ⟨currentSchemaVersion, exportedAt, exportLabel, items⟩

/-- Every date cut to the whole second. -/
def wholeSeconds (manifest : Manifest) : Manifest :=
  { manifest with
    exportedAt := manifest.exportedAt.wholeSecond
    items := manifest.items.map ItemDescriptor.wholeSeconds }

/-- The loop that validates each descriptor. -/
def validateItems : List ItemDescriptor → Throwing Unit
  | [] => pure ()
  | item :: rest => do
      item.validate
      validateItems rest

/-- The loop that inserts each id into the set of ids seen. -/
def checkUniqueIDs (seen : List UUID) : List ItemDescriptor → Throwing Unit
  | [] => pure ()
  | item :: rest => do
      guardElse (item.id ∉ seen)
        (.manifestParseFailed s!"duplicate item id {item.id} in manifest")
      checkUniqueIDs (item.id :: seen) rest

/-- Validate the decoded manifest. -/
def validate (manifest : Manifest) : Throwing Unit := do
  guardElse (manifest.schemaVersion = currentSchemaVersion)
    (.manifestParseFailed s!"unsupported schema_version {manifest.schemaVersion}")
  validateItems manifest.items
  checkUniqueIDs [] manifest.items

/-- Encode to deterministic JSON bytes. -/
def encodeJSON (json : JSONCoding Manifest) (manifest : Manifest) : Throwing Data :=
  match json.encode manifest with
  | .ok data => .ok data
  | .error message => .error (.thrown (.encoding message))

/-- Decode from JSON bytes and validate. -/
def decodeJSON (json : JSONCoding Manifest) (data : Bytes) : Throwing Manifest := do
  let manifest ← (match json.decode data with
    | .ok manifest => .ok manifest
    | .error message => throwBundle (.manifestParseFailed message) : Throwing Manifest)
  manifest.validate
  pure manifest

/-- Encrypt the manifest with the public header as AAD: ciphertext and tag. -/
def encrypt (kit : CryptoKit) (json : JSONCoding Manifest) (manifest : Manifest)
    (masterKey : SymmetricKey) (nonce headerAAD : Bytes) : Calling (Bytes × Bytes) := do
  let plaintext ← manifest.encodeJSON json
  let manifestKey ← Crypto.deriveManifestKey kit masterKey
  Crypto.sealGCM kit manifestKey nonce plaintext.bytes headerAAD

/-- Decrypt a manifest from on-disk bytes. -/
def decrypt (kit : CryptoKit) (json : JSONCoding Manifest) (ciphertext tag : Bytes)
    (masterKey : SymmetricKey) (nonce headerAAD : Bytes) : Calling Manifest := do
  let manifestKey ← Crypto.deriveManifestKey kit masterKey
  let plaintext ← Crypto.openGCM kit manifestKey nonce ciphertext tag headerAAD
  decodeJSON json plaintext

/-- What validation requires of a manifest. -/
structure Valid (manifest : Manifest) : Prop where
  schemaVersion : manifest.schemaVersion = 1
  items : ∀ item ∈ manifest.items, item.Valid
  ids : (manifest.items.map ItemDescriptor.id).Nodup

theorem validateItems_eq_ok_iff {items : List ItemDescriptor} :
    validateItems items = .ok () ↔ ∀ item ∈ items, item.Valid := by
  induction items with
  | nil => simp [validateItems, pure, Except.pure]
  | cons item rest ih =>
      rw [validateItems, guards_eq_ok_iff, ItemDescriptor.validate_eq_ok_iff, ih,
        List.forall_mem_cons]

/-- The loop passes when no id repeats and none was seen before. -/
theorem checkUniqueIDs_eq_ok_iff {seen : List UUID} {items : List ItemDescriptor} :
    checkUniqueIDs seen items = .ok () ↔
      (items.map ItemDescriptor.id).Nodup ∧ ∀ item ∈ items, item.id ∉ seen := by
  induction items generalizing seen with
  | nil => simp [checkUniqueIDs, pure, Except.pure]
  | cons item rest ih =>
      rw [checkUniqueIDs, guards_eq_ok_iff, guardElse_eq_ok_iff, ih, List.map_cons,
        List.nodup_cons, List.forall_mem_cons]
      constructor
      · rintro ⟨new, distinct, unseen⟩
        refine ⟨⟨?_, distinct⟩, new, ?_⟩
        · intro repeated
          obtain ⟨other, member, same⟩ := List.mem_map.mp repeated
          exact unseen other member (same ▸ List.mem_cons_self)
        · intro other member old
          exact unseen other member (List.mem_cons_of_mem _ old)
      · rintro ⟨⟨fresh, distinct⟩, new, unseen⟩
        refine ⟨new, distinct, ?_⟩
        intro other member seenNow
        rcases List.mem_cons.mp seenNow with same | old
        · exact fresh (List.mem_map.mpr ⟨other, member, same⟩)
        · exact unseen other member old

theorem validate_eq_ok_iff {manifest : Manifest} :
    manifest.validate = .ok () ↔ manifest.Valid := by
  rw [validate, guards_eq_ok_iff, guards_eq_ok_iff, guardElse_eq_ok_iff,
    validateItems_eq_ok_iff, checkUniqueIDs_eq_ok_iff]
  constructor
  · rintro ⟨version, items, ids, _⟩
    exact ⟨version, items, ids⟩
  · rintro ⟨version, items, ids⟩
    exact ⟨version, items, ids, by simp⟩

theorem validateItems_clean (items : List ItemDescriptor) : Clean (validateItems items) := by
  induction items with
  | nil => exact .of_ok ()
  | cons item rest ih => exact .guards item.validate_clean ih

theorem checkUniqueIDs_clean (seen : List UUID) (items : List ItemDescriptor) :
    Clean (checkUniqueIDs seen items) := by
  induction items generalizing seen with
  | nil => exact .of_ok ()
  | cons item rest ih => exact .guards .of_guard (ih _)

theorem validate_clean (manifest : Manifest) : Clean manifest.validate :=
  .guards .of_guard (.guards (validateItems_clean _) (checkUniqueIDs_clean _ _))

theorem encodeJSON_eq_ok_iff {json : JSONCoding Manifest} {manifest : Manifest}
    {data : Data} :
    manifest.encodeJSON json = .ok data ↔ json.encode manifest = .ok data := by
  unfold encodeJSON
  cases json.encode manifest <;> simp

/-- Decoding returns exactly the valid manifests that the decoder reads. -/
theorem decodeJSON_eq_ok_iff {json : JSONCoding Manifest} {data : Bytes}
    {manifest : Manifest} :
    decodeJSON json data = .ok manifest ↔
      json.decode data = .ok manifest ∧ manifest.Valid := by
  unfold decodeJSON
  cases json.decode data with
  | error message => simp [throwBundle]
  | ok decoded =>
      rw [throwing_bind_ok, guards_eq_ok_iff, validate_eq_ok_iff]
      constructor
      · rintro ⟨valid, same⟩
        cases same
        exact ⟨rfl, valid⟩
      · rintro ⟨same, valid⟩
        cases same
        exact ⟨valid, rfl⟩

theorem decodeJSON_clean (json : JSONCoding Manifest) (data : Bytes) :
    Clean (decodeJSON json data) := by
  unfold decodeJSON
  cases json.decode data with
  | error message => exact .of_throw _
  | ok manifest => exact .guards manifest.validate_clean (.of_ok _)

theorem itemSizes_wholeSeconds (manifest : Manifest) :
    itemSizes manifest.wholeSeconds.items = itemSizes manifest.items := by
  rw [itemSizes, itemSizes, Manifest.wholeSeconds, List.map_map]
  rfl

theorem map_id_wholeSeconds (manifest : Manifest) :
    manifest.wholeSeconds.items.map ItemDescriptor.id =
      manifest.items.map ItemDescriptor.id := by
  rw [Manifest.wholeSeconds, List.map_map]
  rfl

theorem Valid.wholeSeconds {manifest : Manifest} (valid : manifest.Valid) :
    manifest.wholeSeconds.Valid := by
  refine ⟨valid.schemaVersion, ?_, ?_⟩
  · intro item member
    obtain ⟨original, inside, rfl⟩ := List.mem_map.mp member
    exact (valid.items original inside).wholeSeconds
  · rw [map_id_wholeSeconds]
    exact valid.ids

/-- Decrypting derives one key and calls the AEAD once, whatever comes of it. -/
theorem decrypt_events {kit : CryptoKit} {json : JSONCoding Manifest}
    {ciphertext tag nonce headerAAD : Bytes} {masterKey : SymmetricKey} :
    (decrypt kit json ciphertext tag masterKey nonce headerAAD).events =
      [.hkdf masterKey Crypto.manifestKeyInfo Crypto.derivedKeySize,
        .openGCM (Crypto.manifestKey kit masterKey) nonce ciphertext tag headerAAD] := by
  rw [decrypt, Crypto.deriveManifestKey_eq, Traced.bind_ok,
    Traced.events_bind_quiet fun _ => rfl, Crypto.openGCM_events]
  rfl

/-- Decrypting returns exactly the valid manifests that the opened box decodes to. -/
theorem decrypt_ok_iff {kit : CryptoKit} {json : JSONCoding Manifest}
    {ciphertext tag nonce headerAAD : Bytes} {masterKey : SymmetricKey}
    {manifest : Manifest} :
    (decrypt kit json ciphertext tag masterKey nonce headerAAD).outcome = .ok manifest ↔
      kit.nonceError nonce = none ∧ kit.sealedBoxError nonce ciphertext tag = none ∧
      ∃ plaintext,
        kit.openBox (Crypto.manifestKey kit masterKey) nonce ciphertext tag headerAAD =
          .ok plaintext ∧
        json.decode plaintext = .ok manifest ∧ manifest.Valid := by
  rw [decrypt, Crypto.deriveManifestKey_eq, Traced.bind_ok]
  simp only [Traced.bind_outcome_ok_iff, Crypto.openGCM_ok_iff, Traced.liftM_def,
    decodeJSON_eq_ok_iff]
  constructor
  · rintro ⟨plaintext, ⟨nonce, box, opened⟩, decoded⟩
    exact ⟨nonce, box, plaintext, opened, decoded⟩
  · rintro ⟨nonce, box, plaintext, opened, decoded⟩
    exact ⟨plaintext, ⟨nonce, box, opened⟩, decoded⟩

/-- Encrypting returns exactly when the encoder and the sealing do. -/
theorem encrypt_returns_iff {kit : CryptoKit} {json : JSONCoding Manifest}
    {manifest : Manifest} {masterKey : SymmetricKey}
    {nonce headerAAD ciphertext tag : Bytes} {events : List ForeignCall} :
    manifest.encrypt kit json masterKey nonce headerAAD = ⟨.ok (ciphertext, tag), events⟩ ↔
      kit.nonceError nonce = none ∧
      ∃ plaintext, json.encode manifest = .ok plaintext ∧
        kit.sealBox (Crypto.manifestKey kit masterKey) nonce plaintext.bytes headerAAD =
          .ok (ciphertext, tag) ∧
        events =
          [.hkdf masterKey Crypto.manifestKeyInfo Crypto.derivedKeySize,
            .sealGCM (Crypto.manifestKey kit masterKey) nonce plaintext.bytes headerAAD
              ciphertext tag] := by
  rw [encrypt, Traced.bind_returns_iff]
  constructor
  · rintro ⟨plaintext, _, _, encoded, rest, rfl⟩
    rw [Traced.liftM_def, Traced.mk.injEq, encodeJSON_eq_ok_iff] at encoded
    obtain ⟨encoded, rfl⟩ := encoded
    obtain ⟨key, _, _, derived, sealing, rfl⟩ := Traced.bind_returns_iff.mp rest
    cases derived
    obtain ⟨accepted, boxed, rfl⟩ := Crypto.sealGCM_returns_iff.mp sealing
    exact ⟨accepted, plaintext, encoded, boxed, rfl⟩
  · rintro ⟨accepted, plaintext, encoded, boxed, rfl⟩
    have sealing := Crypto.sealGCM_returns_iff.mpr ⟨accepted, boxed, rfl⟩
    refine ⟨plaintext, [], _, ?_, ?_, (List.nil_append _).symm⟩
    · rw [Traced.liftM_def, encodeJSON_eq_ok_iff.mpr encoded]
    · exact Traced.bind_returns_iff.mpr ⟨_, _, _, Crypto.deriveManifestKey_eq _ _, sealing, rfl⟩

end Manifest

/-! ## What the JSON coders promise -/

namespace JSONCoding

variable (json : JSONCoding Manifest)

/-- The decoder reads back what the encoder wrote, dates as their whole second. -/
def RoundTripLaw : Prop :=
  ∀ manifest data, json.encode manifest = .ok data →
    json.decode data.bytes = .ok manifest.wholeSeconds

/-- A text of `n` bytes decodes to at most `n` items. -/
def DecodeCountLaw : Prop :=
  ∀ data manifest, json.decode data = .ok manifest →
    manifest.items.length ≤ data.length

/-- The encoder writes at least one byte for each item. -/
def EncodeCountLaw : Prop :=
  ∀ manifest data, json.encode manifest = .ok data →
    manifest.items.length ≤ data.bytes.length

end JSONCoding

/-- Everything outside the package. -/
structure Platform where
  kit : CryptoKit
  argon2 : Argon2
  json : JSONCoding Manifest
  random : SystemRandom

end UltraLocked.Format
