import UltraLocked.Format.HeaderCodec
import UltraLocked.Format.Staging

/-!
# What a bundle is made of

An assembly records the parts of a bundle with the facts that the builder has
checked about them. A build returns exactly the bytes and makes exactly the
foreign calls of an assembly.
-/

namespace UltraLocked.Format.BundleBuilder

open Library

/-! ## The header -/

/-- The header that a build writes for a manifest section of the given size. -/
structure Headed (builder : BundleBuilder) (salt manifestNonce : Bytes) (size : Nat)
    (header : BundleHeader) : Prop where
  timeCost : header.argon2TimeCost = builder.parameters.timeCost
  memoryKiB : header.argon2MemoryKiB = builder.parameters.memoryKiB
  parallelism : header.argon2Parallelism = builder.parameters.parallelism
  salt : header.salt = salt
  manifestNonce : header.manifestNonce = manifestNonce
  manifestSize : header.manifestSize.toNat = size

section Plan

variable {json : JSONCoding Manifest} {builder : BundleBuilder} {salt manifestNonce : Bytes}
  {manifest : Manifest} {text : Data}

theorem encoded_of_planHeader {result : UInt64 × BundleHeader}
    (planned : planHeader json builder salt manifestNonce manifest = .ok result) :
    ∃ text, json.encode manifest = .ok text := by
  obtain ⟨text, encoded, -⟩ := throwing_bind_eq_ok_iff.mp planned
  exact ⟨text, Manifest.encodeJSON_eq_ok_iff.mp encoded⟩

/-- With the manifest text at hand no conversion of the plan traps. -/
theorem planHeader_eq (encoded : json.encode manifest = .ok text) :
    planHeader json builder salt manifestNonce manifest = (do
      BundleLimits.validateManifestSize (UInt64.ofNat (text.bytes.length + 16))
      let header ← BundleHeader.init 1 BundleHeader.kdfArgon2id builder.parameters.timeCost
        builder.parameters.memoryKiB builder.parameters.parallelism salt manifestNonce
        (UInt64.ofNat (text.bytes.length + 16)).toUInt32
      pure (UInt64.ofNat (text.bytes.length + 16), header)) := by
  have bound := text.length_lt
  obtain ⟨size, value⟩ := uint64OfInt_natCast
    (show text.bytes.length < 2 ^ 64 by omega)
  change uint64OfInt text.count = _ at size
  have tag : uint64OfInt ItemRecord.tagSize = .ok 16 := rfl
  have total : (UInt64.ofNat (text.bytes.length + 16)).toNat = text.bytes.length + 16 := by
    rw [UInt64.toNat_ofNat', Nat.mod_eq_of_lt (by omega)]
  have sum : addUInt64 (UInt64.ofNat text.bytes.length) 16 =
      .ok (UInt64.ofNat (text.bytes.length + 16)) := by
    rw [addUInt64_eq_ok_iff, value, total]
    rfl
  rw [planHeader, Manifest.encodeJSON_eq_ok_iff.mpr encoded, throwing_bind_ok, size, tag,
    throwing_bind_ok, throwing_bind_ok, sum, throwing_bind_ok]
  cases limited : BundleLimits.validateManifestSize
    (UInt64.ofNat (text.bytes.length + 16)) with
  | error stop => rfl
  | ok passed =>
      have within := BundleLimits.validateManifestSize_eq_ok_iff.mp limited
      rw [uint32OfUInt64_ok (by omega)]
      rfl

/-- A header is planned exactly when the text fits and the header can be built. -/
theorem planHeader_eq_ok_iff (encoded : json.encode manifest = .ok text)
    {size : UInt64} {header : BundleHeader} :
    planHeader json builder salt manifestNonce manifest = .ok (size, header) ↔
      size.toNat = text.bytes.length + 16 ∧
      Headed builder salt manifestNonce (text.bytes.length + 16) header := by
  have bound := text.length_lt
  have total : (UInt64.ofNat (text.bytes.length + 16)).toNat = text.bytes.length + 16 := by
    rw [UInt64.toNat_ofNat', Nat.mod_eq_of_lt (by omega)]
  have narrow (fits : text.bytes.length + 16 ≤ 1048576) :
      (UInt64.ofNat (text.bytes.length + 16)).toUInt32.toNat = text.bytes.length + 16 := by
    rw [UInt64.toNat_toUInt32, total, Nat.mod_eq_of_lt (by omega)]
  rw [planHeader_eq encoded, guards_eq_ok_iff, BundleLimits.validateManifestSize_eq_ok_iff,
    total, throwing_bind_eq_ok_iff]
  simp only [BundleHeader.init_eq_ok_iff]
  constructor
  · rintro ⟨limits, _, ⟨-, -, timeCost, memoryKiB, parallelism, sameSalt, nonce, size⟩, same⟩
    cases same
    exact ⟨total, timeCost, memoryKiB, parallelism, sameSalt, nonce,
      by rw [size, narrow limits.2]⟩
  · rintro ⟨value, headed⟩
    have bounds := header.manifestSize_bounds
    rw [headed.manifestSize] at bounds
    refine ⟨bounds, header, ⟨header.version_eq, header.kdfID_eq, headed.timeCost,
      headed.memoryKiB, headed.parallelism, headed.salt, headed.manifestNonce, ?_⟩, ?_⟩
    · exact UInt32.toNat_inj.mp (by rw [headed.manifestSize, narrow bounds.2])
    · rw [UInt64.toNat_inj.mp (value.trans total.symm)]
      rfl

theorem planHeader_clean (encoded : json.encode manifest = .ok text) :
    Clean (planHeader json builder salt manifestNonce manifest) := by
  rw [planHeader_eq encoded]
  exact .guards (BundleLimits.validateManifestSize_clean _) <|
    .bind BundleHeader.init_clean fun _ _ => .of_ok _

end Plan

/-! ## The records -/

/-- A sealed box as it is stored. -/
def joined (box : Bytes × Bytes) : Bytes := box.1 ++ box.2

def itemCalls (kit : CryptoKit) (masterKey : SymmetricKey) (headerBytes : Bytes)
    (item : ItemContent) (nonce : Bytes) (box : Bytes × Bytes) : List ForeignCall :=
  [.hkdf masterKey (Crypto.itemKeyInfoPrefix ++ item.id.rawBytes) Crypto.derivedKeySize,
    .sealGCM (Crypto.itemKey kit masterKey item.id) nonce item.plaintext.bytes
      (headerBytes ++ item.id.rawBytes) box.1 box.2]

/-- The boxes in which the items are sealed, with the foreign calls that seal them. -/
inductive Encrypted (kit : CryptoKit) (masterKey : SymmetricKey) (headerBytes : Bytes) :
    List ItemContent → List ItemDescriptor → List (Bytes × Bytes) → List ForeignCall →
      Prop where
  | nil : Encrypted kit masterKey headerBytes [] [] [] []
  | cons {item : ItemContent} {described : ItemDescriptor} {box : Bytes × Bytes}
      {items : List ItemContent} {descriptors : List ItemDescriptor}
      {boxes : List (Bytes × Bytes)} {events : List ForeignCall}
      (accepted : kit.nonceError described.itemNonce = none)
      (sealed : kit.sealBox (Crypto.itemKey kit masterKey item.id) described.itemNonce
        item.plaintext.bytes (headerBytes ++ item.id.rawBytes) = .ok box)
      (length : (joined box).length = described.itemSize.toNat)
      (rest : Encrypted kit masterKey headerBytes items descriptors boxes events) :
      Encrypted kit masterKey headerBytes (item :: items) (described :: descriptors)
        (box :: boxes)
        (itemCalls kit masterKey headerBytes item described.itemNonce box ++ events)

section Records

variable {kit : CryptoKit} {masterKey : SymmetricKey} {headerBytes : Bytes}

theorem element_middle {α : Type} (before : List α) (x : α) (after : List α) :
    element (before ++ x :: after) before.length = .ok x := by
  simp [element]

/-- One turn of the loop: the item is sealed into a box of the announced size. -/
theorem encryptItems_cons_returns_iff {item : ItemContent} {rest : List ItemContent}
    {descriptors : List ItemDescriptor} {itemNonces : List Bytes} {i : Nat}
    {described : ItemDescriptor} (descriptor : element descriptors i = .ok described)
    (nonce : element itemNonces i = .ok described.itemNonce)
    {itemRecords : List Bytes} {first : UInt64} {result : List Bytes × UInt64}
    {events : List ForeignCall} :
    encryptItems kit masterKey headerBytes descriptors itemNonces i (item :: rest)
        itemRecords first = ⟨.ok result, events⟩ ↔
      ∃ box next after, kit.nonceError described.itemNonce = none ∧
        kit.sealBox (Crypto.itemKey kit masterKey item.id) described.itemNonce
          item.plaintext.bytes (headerBytes ++ item.id.rawBytes) = .ok box ∧
        (joined box).length = described.itemSize.toNat ∧
        next.toNat = first.toNat + described.itemSize.toNat ∧
        encryptItems kit masterKey headerBytes descriptors itemNonces (i + 1) rest
          (itemRecords ++ [joined box]) next = ⟨.ok result, after⟩ ∧
        events = itemCalls kit masterKey headerBytes item described.itemNonce box ++ after := by
  have sizes (record : Bytes) : byteCount record = (described.itemSize.toNat : Int) ↔
      record.length = described.itemSize.toNat := Int.ofNat_inj
  rw [encryptItems, nonce, Traced.liftM_def, Traced.bind_silent, Traced.bind_returns_iff]
  simp only [ItemRecord.encrypt_returns_iff, descriptor, Traced.liftM_def,
    Traced.bind_lift_returns_iff, Except.ok.injEq, uint64OfInt_eq_ok_iff,
    addUInt64_eq_ok_iff]
  constructor
  · rintro ⟨_, _, after, ⟨accepted, ciphertext, tag, rfl, sealed, rfl⟩,
      ⟨_, sized, _, rfl, _, checked, next, added, turn⟩, rfl⟩
    cases precondition_eq_ok_iff.mp checked
    exact ⟨(ciphertext, tag), next, after, accepted, sealed, (sizes _).mp sized, added,
      turn, rfl⟩
  · rintro ⟨⟨ciphertext, tag⟩, next, after, accepted, sealed, length, added, turn, rfl⟩
    exact ⟨ciphertext ++ tag, _, after, ⟨accepted, ciphertext, tag, rfl, sealed, rfl⟩,
      ⟨_, (sizes _).mpr length, _, rfl, (), precondition_pos rfl, next, added, turn⟩, rfl⟩

/-- The loop returns exactly the joined boxes and the sum of the announced sizes. -/
theorem encryptItems_returns_iff {items : List ItemContent}
    {before descriptors : List ItemDescriptor} {itemRecords records : List Bytes}
    {first total : UInt64} {events : List ForeignCall}
    (aligned : descriptors.length = items.length) :
    encryptItems kit masterKey headerBytes (before ++ descriptors)
        ((before ++ descriptors).map ItemDescriptor.itemNonce) before.length items itemRecords
        first = ⟨.ok (records, total), events⟩ ↔
      ∃ boxes, Encrypted kit masterKey headerBytes items descriptors boxes events ∧
        records = itemRecords ++ boxes.map joined ∧
        total.toNat = first.toNat + (itemSizes descriptors).sum := by
  induction items generalizing before descriptors itemRecords first events with
  | nil =>
      have none := List.length_eq_zero_iff.mp aligned
      subst none
      rw [encryptItems]
      constructor
      · intro done
        cases done
        exact ⟨[], .nil, (List.append_nil _).symm, rfl⟩
      · rintro ⟨boxes, encrypted, rfl, sum⟩
        cases encrypted
        rw [List.map_nil, List.append_nil]
        rw [show first = total from UInt64.toNat_inj.mp sum.symm]
        rfl
  | cons item rest ih =>
      obtain ⟨described, others, rfl⟩ := List.exists_cons_of_length_eq_add_one aligned
      have descriptor := element_middle before described others
      have nonce : element ((before ++ described :: others).map ItemDescriptor.itemNonce)
          before.length = .ok described.itemNonce := by
        simpa using element_middle (before.map ItemDescriptor.itemNonce)
          described.itemNonce (others.map ItemDescriptor.itemNonce)
      have next := @ih (before ++ [described]) others
      simp only [List.append_assoc, List.singleton_append, List.length_append,
        List.length_singleton] at next
      rw [encryptItems_cons_returns_iff descriptor nonce, sum_itemSizes_cons]
      constructor
      · rintro ⟨box, sum, after, accepted, sealed, length, added, turn, rfl⟩
        obtain ⟨boxes, encrypted, rfl, total⟩ := (next (by simpa using aligned)).mp turn
        refine ⟨box :: boxes, .cons accepted sealed length encrypted, ?_, by omega⟩
        simp
      · rintro ⟨_, encrypted, rfl, sum⟩
        cases encrypted with
        | cons accepted sealed length encrypted =>
            have small := total.toNat_lt
            have exact : (UInt64.ofNat (first.toNat + described.itemSize.toNat)).toNat =
                first.toNat + described.itemSize.toNat := by
              rw [UInt64.toNat_ofNat', Nat.mod_eq_of_lt (by omega)]
            refine ⟨_, _, _, accepted, sealed, length, exact, ?_, rfl⟩
            exact (next (by simpa using aligned)).mpr ⟨_, encrypted, by simp, by omega⟩

theorem encryptAll_returns_iff {items : List ItemContent}
    {descriptors : List ItemDescriptor} {records : List Bytes} {total : UInt64}
    {events : List ForeignCall} (aligned : descriptors.length = items.length) :
    encryptItems kit masterKey headerBytes descriptors
        (descriptors.map ItemDescriptor.itemNonce) 0 items [] 0 =
        ⟨.ok (records, total), events⟩ ↔
      ∃ boxes, Encrypted kit masterKey headerBytes items descriptors boxes events ∧
        records = boxes.map joined ∧ total.toNat = (itemSizes descriptors).sum := by
  have loop := @encryptItems_returns_iff kit masterKey headerBytes items [] descriptors []
    records 0 total events aligned
  simpa using loop

end Records

/-! ## The whole bundle -/

theorem foldl_append (parts : List Bytes) (front : Bytes) :
    parts.foldl (· ++ ·) front = front ++ parts.flatten := by
  induction parts generalizing front with
  | nil => exact (List.append_nil front).symm
  | cons part rest ih => rw [List.foldl_cons, ih, List.flatten_cons, List.append_assoc]

theorem Encrypted.sizes {kit : CryptoKit} {masterKey : SymmetricKey} {headerBytes : Bytes}
    {items : List ItemContent} {descriptors : List ItemDescriptor}
    {boxes : List (Bytes × Bytes)} {events : List ForeignCall}
    (encrypted : Encrypted kit masterKey headerBytes items descriptors boxes events) :
    (boxes.map joined).map List.length = itemSizes descriptors := by
  induction encrypted with
  | nil => rfl
  | cons _ _ length _ ih => rw [List.map_cons, List.map_cons, ih, length]; rfl

/-- The two additions of the total size are exact below 64 bits. -/
theorem toNat_totalSize {manifestSize total : UInt64}
    (fits : 96 + manifestSize.toNat + total.toNat < 2 ^ 64) :
    (96 + manifestSize).toNat = 96 + manifestSize.toNat ∧
      (96 + manifestSize + total).toNat = 96 + manifestSize.toNat + total.toNat := by
  have start : (96 : UInt64).toNat = 96 := rfl
  have first : (96 + manifestSize).toNat = 96 + manifestSize.toNat := by
    rw [UInt64.toNat_add, start, Nat.mod_eq_of_lt (by omega)]
  refine ⟨first, ?_⟩
  rw [UInt64.toNat_add, first, Nat.mod_eq_of_lt (by omega)]

section Concatenation

variable {headerBytes ciphertext tag : Bytes} {records : List Bytes}
  {manifestSize total : UInt64} (headerLength : headerBytes.length = 96)
  (sectionLength : ciphertext.length + tag.length = manifestSize.toNat)
  (recordsLength : records.flatten.length = total.toNat)

include headerLength sectionLength recordsLength

theorem length_output : (headerBytes ++ ciphertext ++ tag ++ records.flatten).length =
    96 + manifestSize.toNat + total.toNat := by
  rw [List.length_append, List.length_append, List.length_append, recordsLength]
  omega

/-- What is concatenated, within the limit, is the header, the manifest and the records. -/
theorem concatenate_eq_ok_iff {bundle : Data} :
    concatenate headerBytes ciphertext tag records manifestSize total = .ok bundle ↔
      bundle.startIndex = 0 ∧
      bundle.bytes = headerBytes ++ ciphertext ++ tag ++ records.flatten ∧
      96 + manifestSize.toNat + total.toNat ≤ 2147483648 := by
  have start : uint64OfInt BundleHeader.totalSize = .ok 96 := rfl
  have length := length_output headerLength sectionLength recordsLength
  rw [concatenate, start, throwing_bind_ok, foldl_append, throwing_bind_eq_ok_iff]
  simp only [throwing_bind_eq_ok_iff, addUInt64_eq_ok_iff]
  constructor
  · rintro ⟨before, first, whole, second, _, limited, size, sized, _, checked, done⟩
    have small := BundleLimits.validateTotalFileSize_eq_ok_iff.mp limited
    split at done
    · cases done
      refine ⟨rfl, rfl, ?_⟩
      rw [second, first] at small
      exact small
    · cases done
  · rintro ⟨fresh, content, small⟩
    obtain ⟨first, second⟩ := toNat_totalSize
      (show 96 + manifestSize.toNat + total.toNat < 2 ^ 64 by omega)
    refine ⟨96 + manifestSize, first, 96 + manifestSize + total, second.trans (by rw [first]),
      (), BundleLimits.validateTotalFileSize_eq_ok_iff.mpr (by omega), _,
      intOfUInt64_ok (by omega), (), precondition_pos ?_, ?_⟩
    · rw [byteCount, length, second]
    · rw [dif_pos (by omega)]
      obtain ⟨bytes, startIndex, bound⟩ := bundle
      cases fresh
      cases content
      rfl

/-- Within 64 bits the concatenation fails only on the total size. -/
theorem concatenate_clean (fits : 96 + manifestSize.toNat + total.toNat < 2 ^ 63) :
    Clean (concatenate headerBytes ciphertext tag records manifestSize total) := by
  have start : uint64OfInt BundleHeader.totalSize = .ok 96 := rfl
  have length := length_output headerLength sectionLength recordsLength
  obtain ⟨first, second⟩ := toNat_totalSize
    (show 96 + manifestSize.toNat + total.toNat < 2 ^ 64 by omega)
  rw [concatenate, start, throwing_bind_ok, foldl_append, addUInt64_eq_ok_iff.mpr first,
    throwing_bind_ok, addUInt64_eq_ok_iff.mpr (second.trans (by rw [first])),
    throwing_bind_ok]
  refine .guards (BundleLimits.validateTotalFileSize_clean _) ?_
  have checked : byteCount (headerBytes ++ ciphertext ++ tag ++ records.flatten) =
      ((96 + manifestSize + total).toNat : Int) := by
    rw [byteCount, length, second]
  simp only [intOfUInt64_ok (show (96 + manifestSize + total).toNat < 2 ^ 63 by omega),
    throwing_bind_ok, precondition_pos checked]
  rw [dif_pos (by omega)]
  exact .of_ok _

end Concatenation

/-- The parts of a bundle over staged descriptors, as the builder checks them. -/
structure Parts (kit : CryptoKit) (json : JSONCoding Manifest) (builder : BundleBuilder)
    (masterKey : SymmetricKey) (salt manifestNonce : Bytes)
    (descriptors : List ItemDescriptor) where
  text : Data
  header : BundleHeader
  box : Bytes × Bytes
  boxes : List (Bytes × Bytes)
  itemEvents : List ForeignCall
  encoded : json.encode
    (Manifest.init builder.exportedAt builder.exportLabel descriptors) = .ok text
  headed : Headed builder salt manifestNonce (text.bytes.length + 16) header
  accepted : kit.nonceError manifestNonce = none
  boxed : kit.sealBox (Crypto.manifestKey kit masterKey) manifestNonce text.bytes
    header.encoded = .ok box
  length : (joined box).length = text.bytes.length + 16
  encrypted : Encrypted kit masterKey header.encoded builder.items descriptors boxes
    itemEvents

/-- The parts of a bundle that is within the limit on the total size. -/
structure Assembly (kit : CryptoKit) (json : JSONCoding Manifest) (builder : BundleBuilder)
    (masterKey : SymmetricKey) (salt manifestNonce : Bytes)
    (descriptors : List ItemDescriptor) extends
    Parts kit json builder masterKey salt manifestNonce descriptors where
  small : 96 + (text.bytes.length + 16) + (itemSizes descriptors).sum ≤ 2147483648

namespace Parts

variable {kit : CryptoKit} {json : JSONCoding Manifest} {builder : BundleBuilder}
  {masterKey : SymmetricKey} {salt manifestNonce : Bytes} {descriptors : List ItemDescriptor}
  (parts : Parts kit json builder masterKey salt manifestNonce descriptors)

def bytes : Bytes :=
  parts.header.encoded ++ joined parts.box ++ (parts.boxes.map joined).flatten

def events : List ForeignCall :=
  [.hkdf masterKey Crypto.manifestKeyInfo Crypto.derivedKeySize,
    .sealGCM (Crypto.manifestKey kit masterKey) manifestNonce parts.text.bytes
      parts.header.encoded parts.box.1 parts.box.2] ++ parts.itemEvents

/-- A bundle is as long as its parts announce. -/
theorem length_bytes : parts.bytes.length =
    96 + (parts.text.bytes.length + 16) + (itemSizes descriptors).sum := by
  rw [bytes, List.length_append, List.length_append, BundleHeader.length_encoded,
    parts.length, List.length_flatten, parts.encrypted.sizes]

/-- The header and the manifest section come before the records. -/
theorem length_front : (parts.header.encoded ++ joined parts.box).length =
    96 + parts.header.manifestSize.toNat := by
  rw [List.length_append, BundleHeader.length_encoded, parts.length,
    parts.headed.manifestSize]

theorem length_text_le : parts.text.bytes.length + 16 ≤ 1048576 := by
  rw [← parts.headed.manifestSize]
  exact parts.header.manifestSize_bounds.2

/-- The size of the manifest section, as the builder predicts it. -/
theorem toNat_manifestSize :
    (UInt64.ofNat (parts.text.bytes.length + 16)).toNat = parts.text.bytes.length + 16 := by
  have fits := parts.length_text_le
  rw [UInt64.toNat_ofNat', Nat.mod_eq_of_lt (by omega)]

end Parts

/-- With its parts at hand a build comes to the concatenation. -/
theorem sealStaged_of_parts {kit : CryptoKit} {json : JSONCoding Manifest}
    {builder : BundleBuilder} {masterKey : SymmetricKey} {salt manifestNonce : Bytes}
    {descriptors : List ItemDescriptor} (aligned : descriptors.length = builder.items.length)
    (parts : Parts kit json builder masterKey salt manifestNonce descriptors)
    {total : UInt64} (sum : total.toNat = (itemSizes descriptors).sum) :
    sealStaged kit json builder masterKey salt manifestNonce descriptors
        (descriptors.map ItemDescriptor.itemNonce) =
      ⟨concatenate parts.header.encoded parts.box.1 parts.box.2 (parts.boxes.map joined)
        (UInt64.ofNat (parts.text.bytes.length + 16)) total, parts.events⟩ := by
  have fits := parts.length_text_le
  have size := parts.toNat_manifestSize
  have boxLength := parts.length
  have count : addInt (byteCount parts.box.1) (byteCount parts.box.2) =
      .ok (((joined parts.box).length : Nat) : Int) := by
    have value : byteCount parts.box.1 + byteCount parts.box.2 =
        (((joined parts.box).length : Nat) : Int) := by
      rw [joined, List.length_append, Int.natCast_add]
      rfl
    rw [addInt, value, checkedInt, if_pos (by omega)]
  have sized : uint64OfInt (((joined parts.box).length : Nat) : Int) =
      .ok (UInt64.ofNat (parts.text.bytes.length + 16)) :=
    uint64OfInt_eq_ok_iff.mpr (by rw [size, boxLength])
  have planned := (planHeader_eq_ok_iff parts.encoded).mpr ⟨size, parts.headed⟩
  have sealing := Manifest.encrypt_returns_iff.mpr
    ⟨parts.accepted, parts.text, parts.encoded, parts.boxed, rfl⟩
  have loop := (encryptAll_returns_iff aligned).mpr ⟨parts.boxes, parts.encrypted, rfl, sum⟩
  rw [sealStaged, planned, Traced.liftM_def, Traced.bind_silent]
  simp only [parts.header.serialize_eq, Traced.liftM_def, Traced.bind_silent]
  rw [sealing, Traced.bind_ok]
  simp only [count, sized, precondition_pos, loop, Traced.bind_ok,
    List.append_nil]
  rfl

section Sealing

variable {kit : CryptoKit} {json : JSONCoding Manifest} {builder : BundleBuilder}
  {masterKey : SymmetricKey} {salt manifestNonce : Bytes} {descriptors : List ItemDescriptor}
  (aligned : descriptors.length = builder.items.length) {bundle : Data}
  {events : List ForeignCall}

include aligned

/-- What a build returns comes from an assembly over its descriptors. -/
theorem assembly_of_sealStaged
    (returned : sealStaged kit json builder masterKey salt manifestNonce descriptors
      (descriptors.map ItemDescriptor.itemNonce) = ⟨.ok bundle, events⟩) :
    ∃ assembly : Assembly kit json builder masterKey salt manifestNonce descriptors,
      bundle.startIndex = 0 ∧ bundle.bytes = assembly.bytes ∧ events = assembly.events := by
  rw [sealStaged, Traced.liftM_def, Traced.bind_lift_returns_iff] at returned
  obtain ⟨⟨size, header⟩, planned, rest⟩ := returned
  obtain ⟨text, encoded⟩ := encoded_of_planHeader planned
  obtain ⟨sizeText, headed⟩ := (planHeader_eq_ok_iff encoded).mp planned
  simp only [header.serialize_eq, Traced.liftM_def, Traced.bind_silent] at rest
  obtain ⟨⟨ciphertext, tag⟩, _, _, sealing, items, rfl⟩ := Traced.bind_returns_iff.mp rest
  obtain ⟨accepted, again, encodedAgain, boxed, rfl⟩ :=
    Manifest.encrypt_returns_iff.mp sealing
  cases encoded.symm.trans encodedAgain
  simp only [Traced.bind_lift_returns_iff] at items
  obtain ⟨sum, added, sealedSize, sized, _, checked, records⟩ := items
  cases addInt_eq_ok added
  cases precondition_eq_ok_iff.mp checked
  have boxLength : (joined (ciphertext, tag)).length = text.bytes.length + 16 := by
    have exact := uint64OfInt_eq_ok_iff.mp sized
    simp only [byteCount, sizeText] at exact
    change (ciphertext ++ tag).length = _
    rw [List.length_append]
    omega
  obtain ⟨⟨joinedBoxes, total⟩, _, _, loop, output, rfl⟩ :=
    Traced.bind_returns_iff.mp records
  obtain ⟨boxes, encrypted, rfl, totalSize⟩ := (encryptAll_returns_iff aligned).mp loop
  rw [Traced.mk.injEq, concatenate_eq_ok_iff header.length_encoded] at output
  · obtain ⟨⟨fresh, content, small⟩, rfl⟩ := output
    rw [sizeText, totalSize] at small
    refine ⟨⟨⟨text, header, (ciphertext, tag), boxes, _, encoded, headed, accepted, boxed,
      boxLength, encrypted⟩, small⟩, fresh, ?_, ?_⟩
    · rw [content, Parts.bytes, joined, List.append_assoc header.encoded]
    · rw [Parts.events, List.append_nil]
  · rw [sizeText, ← boxLength, joined, List.length_append]
  · rw [List.length_flatten, encrypted.sizes, totalSize]

/-- A build returns the bytes of every assembly over its descriptors. -/
theorem sealStaged_of_assembly
    (assembly : Assembly kit json builder masterKey salt manifestNonce descriptors)
    (fresh : bundle.startIndex = 0) (content : bundle.bytes = assembly.bytes) :
    sealStaged kit json builder masterKey salt manifestNonce descriptors
      (descriptors.map ItemDescriptor.itemNonce) = ⟨.ok bundle, assembly.events⟩ := by
  have small := assembly.small
  have total : (UInt64.ofNat (itemSizes descriptors).sum).toNat =
      (itemSizes descriptors).sum := by
    rw [UInt64.toNat_ofNat', Nat.mod_eq_of_lt (by omega)]
  rw [sealStaged_of_parts aligned assembly.toParts total, Traced.mk.injEq,
    concatenate_eq_ok_iff assembly.header.length_encoded]
  · refine ⟨⟨fresh, ?_, ?_⟩, rfl⟩
    · simp only [content, Parts.bytes, joined, List.append_assoc]
    · rw [assembly.toNat_manifestSize, total]
      exact small
  · rw [assembly.toNat_manifestSize, ← assembly.length, joined, List.length_append]
  · rw [List.length_flatten, assembly.encrypted.sizes, total]

/-- A build returns exactly the bundles of the assemblies over its descriptors. -/
theorem sealStaged_returns_iff :
    sealStaged kit json builder masterKey salt manifestNonce descriptors
        (descriptors.map ItemDescriptor.itemNonce) = ⟨.ok bundle, events⟩ ↔
      ∃ assembly : Assembly kit json builder masterKey salt manifestNonce descriptors,
        bundle.startIndex = 0 ∧ bundle.bytes = assembly.bytes ∧
        events = assembly.events := by
  constructor
  · exact assembly_of_sealStaged aligned
  · rintro ⟨assembly, fresh, content, rfl⟩
    exact sealStaged_of_assembly aligned assembly fresh content

end Sealing

/-- A build that returns: its draws, the items it lets through and its assembly. -/
theorem buildBundle_returns_iff {platform : Platform} {builder : BundleBuilder}
    {masterKey : SymmetricKey} {salt manifestNonce : Bytes} {draw : Nat} {bundle : Data}
    {events : List ForeignCall} :
    (buildBundle platform builder masterKey salt manifestNonce draw).1 =
        ⟨.ok bundle, events⟩ ↔
      (∀ k < builder.items.length, platform.random.status (draw + k) = errSecSuccess) ∧
      (∀ item ∈ builder.items, Stageable item) ∧
      ∃ assembly : Assembly platform.kit platform.json builder masterKey salt manifestNonce
          (staged platform.random draw builder.items),
        bundle.startIndex = 0 ∧ bundle.bytes = assembly.bytes ∧ events = assembly.events := by
  rw [buildBundle_run, Traced.bind_lift_returns_iff]
  simp only [stageAll_eq_ok_iff]
  constructor
  · rintro ⟨_, ⟨success, stageables, rfl⟩, returned⟩
    exact ⟨success, stageables,
      (sealStaged_returns_iff (length_staged _ _ _)).mp returned⟩
  · rintro ⟨success, stageables, assembled⟩
    exact ⟨_, ⟨success, stageables, rfl⟩,
      (sealStaged_returns_iff (length_staged _ _ _)).mpr assembled⟩

end UltraLocked.Format.BundleBuilder
