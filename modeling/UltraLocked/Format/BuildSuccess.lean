import UltraLocked.Format.Assembly
import UltraLocked.Format.SamplePlatform
import UltraLocked.Library.Windows

/-!
# When a build succeeds

Under the laws of the platform nothing but the limits can stop a build: the
sealing never fails, the predicted sizes are met, and the sum of the record
sizes is bounded through the number of items that fit into a manifest.
-/

namespace UltraLocked.Format

open Library

/-- What a build relies on outside the package. -/
structure BuildLaws (kit : CryptoKit) : Prop where
  nonce : kit.NonceLaw
  total : kit.SealTotalLaw
  length : kit.SealLengthLaw
  hkdf : kit.HKDFLengthLaw

namespace BundleBuilder

def stagedManifest (random : SystemRandom) (builder : BundleBuilder) (draw : Nat) :
    Manifest :=
  Manifest.init builder.exportedAt builder.exportLabel (staged random draw builder.items)

def recordSizes (items : List ItemContent) : List Nat :=
  items.map fun item => item.plaintext.bytes.length + 16

theorem itemSizes_staged (random : SystemRandom) (draw : Nat) (items : List ItemContent) :
    itemSizes (staged random draw items) = recordSizes items := by
  induction items generalizing draw with
  | nil => rfl
  | cons item rest ih =>
      change (descriptor item _).itemSize.toNat :: itemSizes (staged random (draw + 1) rest) =
        (item.plaintext.bytes.length + 16) :: recordSizes rest
      rw [ih, itemSize_descriptor]

theorem sum_recordSizes_le {items : List ItemContent}
    (stageables : ∀ item ∈ items, Stageable item) :
    (recordSizes items).sum ≤ items.length * 262144000 := by
  induction items with
  | nil => exact Nat.zero_le _
  | cons item rest ih =>
      have first := (stageables item List.mem_cons_self).size
      have others := ih fun other member => stageables other (List.mem_cons_of_mem _ member)
      simp only [recordSizes, List.map_cons, List.sum_cons, List.length_cons] at others ⊢
      omega

theorem length_recordSizes (items : List ItemContent) :
    (recordSizes items).length = items.length := List.length_map _

/-- The record at the position of an item, by its size. -/
theorem record_of_sizes {records : List Bytes} {items : List ItemContent}
    (sizes : records.map List.length = recordSizes items) {i : Nat}
    (inside : i < items.length) :
    ∃ record, records[i]? = some record ∧
      record.length = items[i].plaintext.bytes.length + 16 := by
  have size := congrArg (fun list : List Nat => list[i]?) sizes
  simp only [recordSizes, List.getElem?_map, List.getElem?_eq_getElem inside,
    Option.map_some] at size
  exact Option.map_eq_some_iff.mp size

theorem Parts.recordSizes_eq {kit : CryptoKit} {json : JSONCoding Manifest}
    {builder : BundleBuilder} {masterKey : SymmetricKey} {salt manifestNonce : Bytes}
    {random : SystemRandom} {draw : Nat} {items : List ItemContent}
    (parts : Parts kit json builder masterKey salt manifestNonce (staged random draw items)) :
    (parts.boxes.map joined).map List.length = recordSizes items := by
  rw [parts.encrypted.sizes, itemSizes_staged]

/-- Where the record of the item at a position starts in a bundle. -/
def windowStart (header : BundleHeader) (items : List ItemContent) (i : Nat) : Nat :=
  96 + header.manifestSize.toNat + Windows.start (recordSizes items) i

/-! ## Sealing under the laws -/

section Sealing

variable {kit : CryptoKit} (laws : BuildLaws kit)

include laws in
/-- A derived key seals whatever is within the limits, into a box of the right size. -/
theorem sealed_of_laws (masterKey : SymmetricKey) (info : Bytes) {nonce plaintext : Bytes}
    (aad : Bytes) (nonceLength : nonce.length = 12) (short : plaintext.length ≤ 262144000) :
    kit.nonceError nonce = none ∧
    ∃ box, kit.sealBox (kit.hkdf masterKey info Crypto.derivedKeySize) nonce plaintext aad =
        .ok box ∧ box.1.length = plaintext.length ∧ box.2.length = 16 := by
  refine ⟨laws.nonce nonce (by omega), ?_⟩
  obtain ⟨⟨ciphertext, tag⟩, boxed⟩ := laws.total (kit.hkdf masterKey info Crypto.derivedKeySize)
    nonce plaintext aad (laws.hkdf _ _ _) (by omega) (by omega)
  exact ⟨_, boxed, laws.length _ _ _ _ _ _ boxed⟩

include laws in
theorem encrypted_of_laws (masterKey : SymmetricKey) (headerBytes : Bytes)
    (random : SystemRandom) (draw : Nat) {items : List ItemContent}
    (stageables : ∀ item ∈ items, Stageable item) :
    ∃ boxes events, Encrypted kit masterKey headerBytes items (staged random draw items) boxes
      events := by
  induction items generalizing draw with
  | nil => exact ⟨[], [], .nil⟩
  | cons item rest ih =>
      have small := (stageables item List.mem_cons_self).size
      obtain ⟨boxes, events, others⟩ := ih (draw + 1)
        fun other member => stageables other (List.mem_cons_of_mem _ member)
      obtain ⟨accepted, box, boxed, ciphertext, tag⟩ := sealed_of_laws laws masterKey
        (Crypto.itemKeyInfoPrefix ++ item.id.rawBytes) (headerBytes ++ item.id.rawBytes)
        (length_drawn random 12 draw) (show item.plaintext.bytes.length ≤ 262144000 by omega)
      refine ⟨box :: boxes, _, .cons accepted boxed ?_ others⟩
      rw [itemSize_descriptor, joined, List.length_append]
      omega

include laws in
/-- A planned header can be completed to the parts of a bundle. -/
theorem parts_of_laws {json : JSONCoding Manifest} {builder : BundleBuilder}
    (masterKey : SymmetricKey) {salt manifestNonce : Bytes} {random : SystemRandom}
    {draw : Nat} {text : Data} {header : BundleHeader}
    (stageables : ∀ item ∈ builder.items, Stageable item)
    (encoded : json.encode (stagedManifest random builder draw) = .ok text)
    (headed : Headed builder salt manifestNonce (text.bytes.length + 16) header) :
    ∃ parts : Parts kit json builder masterKey salt manifestNonce
        (staged random draw builder.items), parts.text = text ∧ parts.header = header := by
  have bounds := header.manifestSize_bounds
  rw [headed.manifestSize] at bounds
  have nonceLength := header.length_manifestNonce
  rw [headed.manifestNonce] at nonceLength
  obtain ⟨accepted, box, boxed, ciphertext, tag⟩ := sealed_of_laws laws masterKey
    Crypto.manifestKeyInfo header.encoded nonceLength
    (show text.bytes.length ≤ 262144000 by omega)
  obtain ⟨boxes, events, encrypted⟩ := encrypted_of_laws laws masterKey header.encoded random
    draw stageables
  refine ⟨⟨text, header, box, boxes, events, encoded, headed, accepted, boxed, ?_, encrypted⟩,
    rfl, rfl⟩
  rw [joined, List.length_append]
  omega

end Sealing

/-! ## No trap -/

section Success

variable {platform : Platform} {builder : BundleBuilder} {masterKey : SymmetricKey}
  {salt manifestNonce : Bytes} {draw : Nat} {text : Data}
  (laws : BuildLaws platform.kit) (success : platform.random.SuccessLaw)
  (counts : platform.json.EncodeCountLaw)
  (encoded : platform.json.encode (stagedManifest platform.random builder draw) = .ok text)

include laws counts encoded in
theorem sealStaged_clean (stageables : ∀ item ∈ builder.items, Stageable item) :
    Clean (sealStaged platform.kit platform.json builder masterKey salt manifestNonce
      (staged platform.random draw builder.items)
      ((staged platform.random draw builder.items).map ItemDescriptor.itemNonce)).outcome := by
  cases planned : planHeader platform.json builder salt manifestNonce
    (stagedManifest platform.random builder draw) with
  | error stop =>
      have clean := planHeader_clean encoded stop planned
      rw [stagedManifest] at planned
      rw [sealStaged, planned]
      intro other same
      cases same
      exact clean
  | ok plan =>
      obtain ⟨size, header⟩ := plan
      obtain ⟨-, headed⟩ := (planHeader_eq_ok_iff encoded).mp planned
      obtain ⟨parts, sameText, -⟩ := parts_of_laws laws masterKey stageables encoded headed
      have few := counts _ _ encoded
      have fits := parts.length_text_le
      have most := sum_recordSizes_le stageables
      change (staged platform.random draw builder.items).length ≤ _ at few
      rw [length_staged, ← sameText] at few
      have sum : (UInt64.ofNat (itemSizes (staged platform.random draw
          builder.items)).sum).toNat =
          (itemSizes (staged platform.random draw builder.items)).sum := by
        rw [itemSizes_staged, UInt64.toNat_ofNat', Nat.mod_eq_of_lt (by omega)]
      rw [sealStaged_of_parts (length_staged _ _ _) parts sum]
      refine concatenate_clean parts.header.length_encoded ?_ ?_ ?_
      · rw [parts.toNat_manifestSize, ← parts.length, joined, List.length_append]
      · rw [List.length_flatten, parts.encrypted.sizes, sum]
      · rw [parts.toNat_manifestSize, sum, itemSizes_staged]
        omega

include laws success counts encoded in
/-- A build traps in no case, and throws only a `BundleError`. -/
theorem buildBundle_clean :
    Clean (buildBundle platform builder masterKey salt manifestNonce draw).1.outcome := by
  rw [buildBundle_run, Traced.outcome_bind]
  refine .bind (stageAll_clean success draw builder.items) fun descriptors found => ?_
  obtain ⟨-, stageables, rfl⟩ := stageAll_eq_ok_iff.mp found
  exact sealStaged_clean laws counts encoded stageables

end Success

/-! ## The exact condition -/

/-- A header exists for every salt, nonce and manifest of the right sizes. -/
theorem exists_headed (builder : BundleBuilder) {salt manifestNonce : Bytes} {size : Nat}
    (saltLength : salt.length = 16) (nonceLength : manifestNonce.length = 12)
    (low : 16 ≤ size) (high : size ≤ 1048576) :
    ∃ header, Headed builder salt manifestNonce size header := by
  have narrow : (UInt32.ofNat size).toNat = size := by
    rw [UInt32.toNat_ofNat', Nat.mod_eq_of_lt (by omega)]
  have checked := BundleHeader.check_eq_ok_iff.mpr ⟨rfl, rfl, saltLength, nonceLength,
    builder.parameters.checked, (⟨by omega, by omega⟩ :
      16 ≤ (UInt32.ofNat size).toNat ∧ (UInt32.ofNat size).toNat ≤ 1048576)⟩
  exact ⟨⟨1, 1, _, _, _, _, _, _, checked⟩, rfl, rfl, rfl, rfl, rfl, narrow⟩

/-- Each stored box is the record of its item. -/
theorem Encrypted.records {kit : CryptoKit} {masterKey : SymmetricKey} {headerBytes : Bytes}
    {items : List ItemContent} {descriptors : List ItemDescriptor}
    {boxes : List (Bytes × Bytes)} {events : List ForeignCall}
    (encrypted : Encrypted kit masterKey headerBytes items descriptors boxes events) :
    List.Forall₂ (fun item record => ∃ nonce,
      (ItemRecord.encrypt kit item.plaintext.bytes masterKey item.id nonce
        headerBytes).outcome = .ok record) items (boxes.map joined) := by
  induction encrypted with
  | nil => exact .nil
  | @cons _ described _ _ _ _ _ accepted boxed _ _ ih =>
      refine .cons ⟨described.itemNonce, ?_⟩ ih
      rw [ItemRecord.encrypt_returns_iff.mpr ⟨accepted, _, _, rfl, boxed, rfl⟩]
      rfl

section Limits

variable {platform : Platform} {builder : BundleBuilder} {masterKey : SymmetricKey}
  {salt manifestNonce : Bytes} {draw : Nat} {text : Data}
  (encoded : platform.json.encode (stagedManifest platform.random builder draw) = .ok text)

/-- The parts make a bundle, which the build returns. -/
theorem returned_of_assembly (success : platform.random.SuccessLaw)
    (stageables : ∀ item ∈ builder.items, Stageable item)
    (assembly : Assembly platform.kit platform.json builder masterKey salt manifestNonce
      (staged platform.random draw builder.items)) :
    ∃ bundle, (buildBundle platform builder masterKey salt manifestNonce draw).1.outcome =
      .ok bundle := by
  have small := assembly.small
  have fits : assembly.bytes.length < 2 ^ 63 := by
    rw [assembly.length_bytes]
    omega
  have returns := buildBundle_returns_iff.mpr ⟨fun k _ => success (draw + k), stageables,
    assembly, Data.ofBytes_startIndex _ fits, Data.ofBytes_bytes _ fits, rfl⟩
  exact ⟨_, congrArg Traced.outcome returns⟩

include encoded

/-- The parts of a bundle are within the limits. -/
theorem limits_of_assembly (assembly : Assembly platform.kit platform.json builder masterKey
    salt manifestNonce (staged platform.random draw builder.items)) :
    salt.length = 16 ∧ manifestNonce.length = 12 ∧ text.bytes.length + 16 ≤ 1048576 ∧
      96 + (text.bytes.length + 16) + (recordSizes builder.items).sum ≤ 2147483648 := by
  cases encoded.symm.trans assembly.encoded
  have saltLength := assembly.header.length_salt
  have nonceLength := assembly.header.length_manifestNonce
  have small := assembly.small
  rw [assembly.headed.salt] at saltLength
  rw [assembly.headed.manifestNonce] at nonceLength
  rw [itemSizes_staged] at small
  exact ⟨saltLength, nonceLength, assembly.length_text_le, small⟩

/-- Within the limits the parts of a bundle can be made. -/
theorem assembly_of_limits (laws : BuildLaws platform.kit) (masterKey : SymmetricKey)
    (stageables : ∀ item ∈ builder.items, Stageable item) (saltLength : salt.length = 16)
    (nonceLength : manifestNonce.length = 12) (textSize : text.bytes.length + 16 ≤ 1048576)
    (small : 96 + (text.bytes.length + 16) + (recordSizes builder.items).sum ≤ 2147483648) :
    Nonempty (Assembly platform.kit platform.json builder masterKey salt manifestNonce
      (staged platform.random draw builder.items)) := by
  obtain ⟨header, headed⟩ := exists_headed builder saltLength nonceLength
    (show 16 ≤ text.bytes.length + 16 by omega) textSize
  obtain ⟨parts, rfl, -⟩ := parts_of_laws laws masterKey stageables encoded headed
  exact ⟨parts, by rw [itemSizes_staged]; exact small⟩

end Limits

/--
A build returns exactly within the limits, and then the header, the manifest
ciphertext, its tag and the records in order; otherwise it throws a
`BundleError`.
-/
theorem build_exact_success (platform : Platform) (laws : BuildLaws platform.kit)
    (success : platform.random.SuccessLaw) (counts : platform.json.EncodeCountLaw)
    (builder : BundleBuilder) (masterKey : SymmetricKey) (salt manifestNonce : Bytes)
    (draw : Nat) (text : Data)
    (encoded : platform.json.encode (stagedManifest platform.random builder draw) =
      .ok text) :
    ((∃ bundle, (buildBundle platform builder masterKey salt manifestNonce draw).1.outcome =
        .ok bundle) ↔
      salt.length = 16 ∧ manifestNonce.length = 12 ∧
      (∀ item ∈ builder.items, item.ttlSeconds.isSome = item.ttlOriginEpoch.isSome ∧
        item.plaintext.bytes.length ≤ 262144000 - 16) ∧
      text.bytes.length + 16 ≤ 1048576 ∧
      96 + (text.bytes.length + 16) + (recordSizes builder.items).sum ≤ 2147483648) ∧
    (∀ bundle, (buildBundle platform builder masterKey salt manifestNonce draw).1.outcome =
        .ok bundle →
      bundle.bytes.length =
        96 + (text.bytes.length + 16) + (recordSizes builder.items).sum ∧
      ∃ header ciphertext tag records,
        bundle.bytes = BundleHeader.encoded header ++ ciphertext ++ tag ++ records.flatten ∧
        Headed builder salt manifestNonce (text.bytes.length + 16) header ∧
        ((stagedManifest platform.random builder draw).encrypt platform.kit platform.json
          masterKey manifestNonce header.encoded).outcome = .ok (ciphertext, tag) ∧
        ciphertext.length = text.bytes.length ∧ tag.length = 16 ∧
        records.map List.length = recordSizes builder.items ∧
        List.Forall₂ (fun item record => ∃ nonce,
          (ItemRecord.encrypt platform.kit item.plaintext.bytes masterKey item.id nonce
            header.encoded).outcome = .ok record) builder.items records) ∧
    Clean (buildBundle platform builder masterKey salt manifestNonce draw).1.outcome := by
  have assembled {bundle : Data}
      (returned : (buildBundle platform builder masterKey salt manifestNonce
        draw).1.outcome = .ok bundle) :=
    buildBundle_returns_iff.mp (Traced.eq_of_outcome returned)
  refine ⟨⟨?_, ?_⟩, ?_, buildBundle_clean laws success counts encoded⟩
  · rintro ⟨bundle, returned⟩
    obtain ⟨-, stageables, assembly, -, -, -⟩ := assembled returned
    obtain ⟨saltLength, nonceLength, textSize, small⟩ := limits_of_assembly encoded assembly
    exact ⟨saltLength, nonceLength,
      fun item member => ⟨(stageables item member).ttl, (stageables item member).size⟩,
      textSize, small⟩
  · rintro ⟨saltLength, nonceLength, items, textSize, small⟩
    have stageables : ∀ item ∈ builder.items, Stageable item := fun item member =>
      ⟨(items item member).2, (items item member).1⟩
    obtain ⟨assembly⟩ := assembly_of_limits encoded laws masterKey stageables saltLength
      nonceLength textSize small
    exact returned_of_assembly success stageables assembly
  · intro bundle returned
    obtain ⟨-, stageables, assembly, -, content, -⟩ := assembled returned
    cases encoded.symm.trans assembly.encoded
    obtain ⟨ciphertext, tag⟩ := laws.length _ _ _ _ _ _ assembly.boxed
    refine ⟨?_, assembly.header, assembly.box.1, assembly.box.2,
      assembly.boxes.map joined, ?_, assembly.headed, ?_, ciphertext, tag,
      assembly.recordSizes_eq, assembly.encrypted.records⟩
    · rw [content, assembly.length_bytes, itemSizes_staged]
    · simp only [content, Parts.bytes, joined, List.append_assoc]
    · have sealing := Manifest.encrypt_returns_iff.mpr
        ⟨assembly.accepted, _, encoded, assembly.boxed, rfl⟩
      exact congrArg Traced.outcome sealing

/-- Two notes make a bundle of the announced length. -/
theorem build_of_two_notes :
    ∃ bundle, (buildBundle (Sample.platform 2) (Sample.builder 2) Sample.masterKey Sample.salt
        Sample.manifestNonce 2).1.outcome = .ok bundle ∧
      bundle.bytes.length =
        96 + ((Sample.text 2).bytes.length + 16) + (recordSizes (Sample.builder 2).items).sum := by
  have staged : stagedManifest Sample.random (Sample.builder 2) 2 = Sample.manifest 2 := by
    decide +kernel
  have encoded : (Sample.platform 2).json.encode (stagedManifest (Sample.platform 2).random
      (Sample.builder 2) 2) = .ok (Sample.text 2) :=
    (congrArg _ staged).trans (Sample.encode_document _ _)
  obtain ⟨success, whole, -⟩ := build_exact_success (Sample.platform 2)
    ⟨Sample.nonceLaw, Sample.sealTotalLaw, Sample.sealLengthLaw, Sample.hkdfLengthLaw⟩
    Sample.successLaw (Sample.encodeCountLaw (Sample.few_items 2)) (Sample.builder 2)
    Sample.masterKey Sample.salt Sample.manifestNonce 2 (Sample.text 2) encoded
  have limits : (Sample.text 2).bytes.length + 16 ≤ 1048576 ∧
      96 + ((Sample.text 2).bytes.length + 16) + (recordSizes (Sample.builder 2).items).sum ≤
        2147483648 := by decide +kernel
  obtain ⟨bundle, returned⟩ := success.mpr
    ⟨rfl, rfl, by simp [Sample.builder, Sample.note], limits.1, limits.2⟩
  exact ⟨bundle, returned, (whole bundle returned).1⟩

end BundleBuilder

end UltraLocked.Format
