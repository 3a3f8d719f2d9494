import UltraLocked.Format.ItemWindows
import UltraLocked.Format.Staging

/-!
# The size shown and the size decrypted

A descriptor states the length of its item twice. The parser relies on
`itemSize` alone; `sizeBytes` is informational and nothing checks it.
-/

namespace UltraLocked.Format

open Library

/-- The two sizes of a descriptor describe one length. -/
def ItemDescriptor.SizesAgree (descriptor : ItemDescriptor) : Prop :=
  descriptor.sizeBytes.toNat + 16 = descriptor.itemSize.toNat

instance (descriptor : ItemDescriptor) : Decidable descriptor.SizesAgree :=
  inferInstanceAs (Decidable (_ = _))

namespace BundleBuilder

/-- The builder states one length in both sizes of each item. -/
theorem staged_sizesAgree (random : SystemRandom) (items : List ItemContent) (draw : Nat) :
    ∀ described ∈ staged random draw items, described.SizesAgree := by
  induction items generalizing draw with
  | nil => exact fun _ member => absurd member List.not_mem_nil
  | cons item rest ih =>
      intro described member
      rcases List.mem_cons.mp member with rfl | later
      · have bound := item.plaintext.length_lt
        rw [ItemDescriptor.SizesAgree, itemSize_descriptor, descriptor, UInt64.toNat_ofNat',
          Nat.mod_eq_of_lt (by omega)]
      · exact ih (draw + 1) described later

end BundleBuilder

namespace ItemRecord

/-- The plaintext of a record is the record without its tag. -/
theorem length_of_decrypt {kit : CryptoKit} (openLength : kit.OpenLengthLaw) {record : Data}
    (long : 16 ≤ record.bytes.length) {key : SymmetricKey} {itemID : UUID}
    {nonce headerAAD plaintext : Bytes}
    (returned : (decrypt kit record key itemID nonce headerAAD).outcome = .ok plaintext) :
    plaintext.length + 16 = record.bytes.length := by
  rw [decrypt_eq long] at returned
  obtain ⟨-, -, opened⟩ := Crypto.openGCM_ok_iff.mp returned
  have same := openLength _ _ _ _ _ _ opened
  rw [List.length_take, Nat.min_eq_left (Nat.sub_le _ _)] at same
  omega

end ItemRecord

namespace BundleParser

/-- In an unlocked parser a decrypted item has the length of its record. -/
theorem Unlocked.length_of_decrypt {platform : Platform} {data : Data} {key : SymmetricKey}
    {manifest : Manifest} {parser : BundleParser}
    (unlocked : Unlocked platform data key manifest parser)
    (openLength : platform.kit.OpenLengthLaw) {item descriptor : ItemDescriptor}
    (member : descriptor ∈ manifest.items) (same : descriptor.id = item.id) {plaintext : Bytes}
    (returned : (decrypt platform item parser).1.outcome = .ok plaintext) :
    plaintext.length + 16 = descriptor.itemSize.toNat := by
  obtain ⟨index, inside, rfl⟩ := List.getElem_of_mem member
  have length := length_record unlocked.opened.fits inside
  rw [unlocked.decrypt_listed inside same] at returned
  rw [← length]
  refine ItemRecord.length_of_decrypt openLength ?_ returned
  rw [length]
  exact (unlocked.opened.valid.items _ member).size.1

/--
Whatever manifest was unlocked, a decrypted item is 16 bytes shorter than its
`itemSize`; it has `sizeBytes` bytes exactly when the two sizes agree.
-/
theorem decrypted_length (platform : Platform) (openLength : platform.kit.OpenLengthLaw)
    {data : Data} {start parser : BundleParser} {past : List (Call × Calling Reply)}
    {key : SymmetricKey} {manifest : Manifest} (opened : init data = .ok start)
    (history : History (step platform) Survives start past parser)
    (hasKey : parser.masterKey = some key)
    (hasManifest : parser.cachedManifest = some manifest)
    {item descriptor : ItemDescriptor} (member : descriptor ∈ manifest.items)
    (same : descriptor.id = item.id) {plaintext : Bytes}
    (returned : (decrypt platform item parser).1.outcome = .ok plaintext) :
    plaintext.length + 16 = descriptor.itemSize.toNat ∧
      (plaintext.length = descriptor.sizeBytes.toNat ↔ descriptor.SizesAgree) := by
  have unlocked := unlocked_of_history platform opened history hasKey hasManifest
  have length := unlocked.length_of_decrypt openLength member same returned
  refine ⟨length, ?_⟩
  rw [ItemDescriptor.SizesAgree, ← length]
  exact ⟨fun shown => by rw [shown], fun agree => (Nat.add_right_cancel agree).symm⟩

/-- The second of the two notes has the two bytes its descriptor states. -/
theorem length_of_second_note :
    ([9, 10] : Bytes).length = (Sample.noteDescriptor 2 3).sizeBytes.toNat :=
  (decrypted_length (Sample.platform 2) Sample.openLengthLaw Sample.init_bundle Sample.session
    Sample.unlocking_masterKey Sample.unlocking_cachedManifest
    (List.mem_cons_of_mem _ List.mem_cons_self) rfl
    (show (decrypt (Sample.platform 2) (Sample.noteDescriptor 2 3)
      Sample.unlocking.2).1.outcome = .ok [9, 10] by decide +kernel)).2.mpr (by decide)

end BundleParser

/-! ## A manifest that misstates a size -/

namespace Sample

/-- The manifest of two notes, with nine bytes announced for the second. -/
def boastingManifest : Manifest :=
  { manifest 2 with items := [noteDescriptor 1 2, { noteDescriptor 2 3 with sizeBytes := 9 }] }

/-- Its JSON text, which differs in one digit. -/
def boastingTextBytes : Bytes := textBefore ++ [50] ++ textBehind.set 138 57

theorem length_boastingTextBytes : boastingTextBytes.length = 507 := by
  rw [boastingTextBytes, List.length_append, List.length_append, List.length_singleton,
    List.length_set, length_textBefore, length_textBehind]

theorem boastingText_fits : 0 + boastingTextBytes.length < 2 ^ 63 := by
  rw [length_boastingTextBytes]
  decide

def boastingText : Data := ⟨boastingTextBytes, 0, boastingText_fits⟩

def boastingPlatform : Platform := ⟨kit, argon2, coding boastingManifest boastingText, random⟩

/-- The bundle of two notes with that manifest sealed in place of its own. -/
def boastingBytes : Bytes :=
  let header := bundle.bytes.take 96
  let tag := tagOf (Crypto.manifestKey kit masterKey) manifestNonce
  header ++ boastingText.bytes ++ tag ++ bundle.bytes.drop (96 + boastingText.bytes.length + 16)

def boastingBundle : Data := Data.ofBytes boastingBytes (by decide +kernel)

theorem boasting_isSome : (BundleParser.init boastingBundle).toOption.isSome := by
  decide +kernel

def boastingStart : BundleParser := (BundleParser.init boastingBundle).toOption.get boasting_isSome

def boastingUnlocking : Calling BundleParser.Reply × BundleParser :=
  BundleParser.step boastingPlatform boastingStart (.unlockMasterKey masterKey)

theorem boastingUnlocking_outcome :
    boastingUnlocking.1.outcome = .ok (.manifest boastingManifest) := by
  decide +kernel

end Sample

namespace BundleParser

/-- The size shown for the second note is not the size decrypted; the manifest was
sealed under the key, as any sender can. -/
theorem boasting_misstates :
    Sample.kit.sealBox (Crypto.manifestKey Sample.kit Sample.masterKey) Sample.manifestNonce
        Sample.boastingText.bytes (Sample.bundle.bytes.take 96) =
      .ok (Sample.boastingText.bytes,
        Sample.tagOf (Crypto.manifestKey Sample.kit Sample.masterKey) Sample.manifestNonce) ∧
      init Sample.boastingBundle = .ok Sample.boastingStart ∧
      History (step Sample.boastingPlatform) Survives Sample.boastingStart
        [(.unlockMasterKey Sample.masterKey, Sample.boastingUnlocking.1)]
        Sample.boastingUnlocking.2 ∧
      Sample.boastingUnlocking.2.cachedManifest = some Sample.boastingManifest ∧
      Sample.boastingPlatform.kit.OpenLengthLaw ∧
      ∃ descriptor ∈ Sample.boastingManifest.items, ∃ plaintext,
        (decrypt Sample.boastingPlatform descriptor Sample.boastingUnlocking.2).1.outcome =
          .ok plaintext ∧
        plaintext.length ≠ descriptor.sizeBytes.toNat := by
  refine ⟨Sample.sealBox_eq_ok_iff.mpr ⟨by decide +kernel, rfl⟩,
    Sample.eq_ok_of_isSome Sample.boasting_isSome,
    .called .opened (@Prod.mk.eta _ _ Sample.boastingUnlocking).symm
      (survives_of_ok Sample.boastingUnlocking_outcome),
    by decide +kernel, Sample.openLengthLaw, ?_⟩
  exact ⟨_, List.mem_cons_of_mem _ List.mem_cons_self, [9, 10], by decide +kernel, by decide⟩

end BundleParser

end UltraLocked.Format
