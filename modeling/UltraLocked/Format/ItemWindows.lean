import UltraLocked.Format.Session

/-!
# The windows of the items

In an unlocked parser the records that `decrypt(item:)` reads lie end to end
behind the manifest, and the record read is that of the one descriptor with
the id asked for.
-/

namespace UltraLocked.Format.BundleParser

open Library

/-- A window ends before every later one starts. -/
theorem record_disjoint {file : BundleFile} {manifest : Manifest} {index later : Nat}
    (inside : index < manifest.items.length) (after : index < later) :
    recordStart file manifest.items index + manifest.items[index].itemSize.toNat ≤
      recordStart file manifest.items later := by
  have counted : index < (itemSizes manifest.items).length :=
    (length_itemSizes manifest.items).symm ▸ inside
  have stops := Windows.stop_le_start counted after
  rw [getElem_itemSizes inside counted] at stops
  rw [recordStart, recordStart]
  omega

/-- Opening a listed item fails neither as unlisted nor as truncated. -/
theorem decryptRecord_error {kit : CryptoKit} {record : Data}
    (long : 16 ≤ record.bytes.length) {key : SymmetricKey} {itemID : UUID}
    {nonce headerAAD : Bytes} {error : BundleError}
    (failed : (ItemRecord.decrypt kit record key itemID nonce headerAAD).outcome =
      throwBundle error) : error = .decryptionFailed := by
  rw [ItemRecord.decrypt_eq long] at failed
  rcases Crypto.openGCM_error failed with same | ⟨other, same⟩
  · cases same
    rfl
  · cases same

/-! ## Unlocked parsers -/

/-- A parser made of `data` that holds a key and the manifest its file yields under it. -/
structure Unlocked (platform : Platform) (data : Data) (key : SymmetricKey)
    (manifest : Manifest) (parser : BundleParser) : Prop where
  accepted : parser.Accepted
  sameData : parser.data = data.copy
  headerBytes : parser.headerBytes.bytes = data.bytes.take 96
  hasKey : parser.masterKey = some key
  hasManifest : parser.cachedManifest = some manifest
  opened : Opened platform parser.toBundleFile key manifest

/-- What a parser holds in a session makes it an unlocked parser. -/
theorem unlocked_of_history (platform : Platform) {data : Data} {start parser : BundleParser}
    {past : List (Call × Calling Reply)} {key : SymmetricKey} {manifest : Manifest}
    (opened : init data = .ok start)
    (history : History (step platform) Survives start past parser)
    (hasKey : parser.masterKey = some key)
    (hasManifest : parser.cachedManifest = some manifest) :
    Unlocked platform data key manifest parser := by
  obtain ⟨accepted, sameFile, holds⟩ := session_sound platform opened history
  obtain ⟨⟨sameData, sameHeader, -, -⟩, -⟩ := init_eq_ok_iff.mp opened
  rw [← sameFile] at accepted holds
  rw [hasKey, hasManifest] at holds
  cases holds with
  | unlocked found =>
      refine ⟨accepted, ?_, ?_, hasKey, hasManifest, found⟩
      · exact (congrArg BundleFile.data sameFile).trans sameData
      · rw [congrArg BundleFile.headerBytes sameFile, sameHeader, Data.part_bytes,
          List.drop_zero, Data.copy_bytes]

namespace Unlocked

variable {platform : Platform} {data : Data} {key : SymmetricKey} {manifest : Manifest}
  {parser : BundleParser} (unlocked : Unlocked platform data key manifest parser)

include unlocked

theorem decrypt_eq (item : ItemDescriptor) :
    decrypt platform item parser =
      (decryptUnlocked platform parser.toBundleFile key manifest item, parser) := by
  rw [decrypt_run, unlocked.hasKey, unlocked.hasManifest, decryptHeld]

/-- A listed id is answered from the record of its descriptor. -/
theorem decrypt_listed {item : ItemDescriptor} {index : Nat}
    (inside : index < manifest.items.length) (same : manifest.items[index].id = item.id) :
    decrypt platform item parser =
      (ItemRecord.decrypt platform.kit
        (record parser.toBundleFile manifest.items index manifest.items[index]) key
        manifest.items[index].id manifest.items[index].itemNonce (data.bytes.take 96),
        parser) := by
  rw [unlocked.decrypt_eq, decryptUnlocked_of_id unlocked.accepted unlocked.opened.valid
    unlocked.opened.fits inside same, unlocked.headerBytes]

/-- A listed id is not refused by any check of the parser itself. -/
theorem listed_error {item : ItemDescriptor} {descriptor : ItemDescriptor}
    (member : descriptor ∈ manifest.items) (same : descriptor.id = item.id)
    {error : BundleError}
    (failed : (decrypt platform item parser).1.outcome = throwBundle error) :
    error = .decryptionFailed := by
  obtain ⟨index, inside, rfl⟩ := List.getElem_of_mem member
  rw [unlocked.decrypt_listed inside same] at failed
  refine decryptRecord_error ?_ failed
  rw [length_record unlocked.opened.fits inside]
  exact (unlocked.opened.valid.items _ member).size.1

theorem unlisted_iff (item : ItemDescriptor) :
    (∃ message, (decrypt platform item parser).1.outcome =
        throwBundle (.manifestParseFailed message)) ↔
      ∀ descriptor ∈ manifest.items, descriptor.id ≠ item.id := by
  constructor
  · rintro ⟨message, failed⟩ descriptor member same
    cases unlocked.listed_error member same failed
  · intro absent
    rw [unlocked.decrypt_eq, decryptUnlocked_of_absent absent]
    exact ⟨_, rfl⟩

theorem not_truncated (item : ItemDescriptor) (expected actual : Int) :
    (decrypt platform item parser).1.outcome ≠ throwBundle (.truncated expected actual) := by
  intro failed
  rcases decryptUnlocked_cases platform key unlocked.accepted unlocked.opened.valid
    unlocked.opened.fits item with ⟨index, inside, -, same⟩ | refused
  · cases unlocked.listed_error (List.getElem_mem inside) same failed
  · rw [unlocked.decrypt_eq, refused] at failed
    cases failed

end Unlocked

/--
In an unlocked parser the windows are consecutive and non-empty, start behind
the manifest and end inside the file; `decrypt(item:)` reads the window of the
one descriptor with that id, throws `manifestParseFailed` exactly when there is
none, and does not depend on the other fields it is given.
-/
theorem item_windows (platform : Platform) {data : Data} {start parser : BundleParser}
    {past : List (Call × Calling Reply)} {key : SymmetricKey} {manifest : Manifest}
    (opened : init data = .ok start)
    (history : History (step platform) Survives start past parser)
    (hasKey : parser.masterKey = some key)
    (hasManifest : parser.cachedManifest = some manifest) :
    recordStart parser.toBundleFile manifest.items 0 =
      96 + parser.header.manifestSize.toNat ∧
    (∀ index, ∀ inside : index < manifest.items.length,
      recordOffset parser.header manifest.items index =
        .ok (recordStart parser.toBundleFile manifest.items index : Int) ∧
      recordStart parser.toBundleFile manifest.items (index + 1) =
        recordStart parser.toBundleFile manifest.items index +
          manifest.items[index].itemSize.toNat ∧
      0 < manifest.items[index].itemSize.toNat ∧
      recordStart parser.toBundleFile manifest.items index +
        manifest.items[index].itemSize.toNat ≤ data.bytes.length ∧
      (∀ later, index < later →
        recordStart parser.toBundleFile manifest.items index +
            manifest.items[index].itemSize.toNat ≤
          recordStart parser.toBundleFile manifest.items later) ∧
      (record parser.toBundleFile manifest.items index manifest.items[index]).bytes =
        (data.bytes.drop (recordStart parser.toBundleFile manifest.items index)).take
          manifest.items[index].itemSize.toNat) ∧
    (∀ item : ItemDescriptor,
      (∀ index, ∀ inside : index < manifest.items.length,
        manifest.items[index].id = item.id →
        decrypt platform item parser =
          (ItemRecord.decrypt platform.kit
            (record parser.toBundleFile manifest.items index manifest.items[index]) key
            manifest.items[index].id manifest.items[index].itemNonce (data.bytes.take 96),
            parser) ∧
        (∀ other, ∀ within : other < manifest.items.length,
          manifest.items[other].id = item.id → other = index)) ∧
      ((∃ message, (decrypt platform item parser).1.outcome =
          throwBundle (.manifestParseFailed message)) ↔
        ∀ descriptor ∈ manifest.items, descriptor.id ≠ item.id) ∧
      (∀ expected actual, (decrypt platform item parser).1.outcome ≠
        throwBundle (.truncated expected actual)) ∧
      (∀ other : ItemDescriptor, other.id = item.id →
        decrypt platform other parser = decrypt platform item parser)) := by
  have unlocked := unlocked_of_history platform opened history hasKey hasManifest
  have fits := unlocked.opened.fits
  have valid := unlocked.opened.valid
  refine ⟨rfl, ?_, ?_⟩
  · intro index inside
    have size := (valid.items _ (List.getElem_mem inside)).size
    have ends := record_inside fits inside
    rw [unlocked.sameData, Data.copy_bytes] at ends
    refine ⟨recordOffset_eq fits (Nat.le_of_lt inside), recordStart_succ inside, by omega, ends,
      fun later after => record_disjoint inside after, ?_⟩
    rw [record, Data.part_bytes, unlocked.sameData, Data.copy_bytes]
  · intro item
    refine ⟨?_, unlocked.unlisted_iff item, unlocked.not_truncated item, ?_⟩
    · intro index inside same
      exact ⟨unlocked.decrypt_listed inside same, fun other within again =>
        position_of_map valid.ids within inside (again.trans same.symm)⟩
    · intro other same
      rw [unlocked.decrypt_eq, unlocked.decrypt_eq, decryptUnlocked_congr _ _ _ _ same]

/-- In the bundle of two notes the second record is behind the first, and is what is decrypted. -/
theorem windows_of_two_notes :
    let file := Sample.unlocking.2.toBundleFile
    let items := (Sample.manifest 2).items
    recordStart file items 1 = 96 + file.header.manifestSize.toNat + items[0].itemSize.toNat ∧
      (record file items 1 items[1]).bytes =
        (Sample.bundle.bytes.drop (recordStart file items 1)).take items[1].itemSize.toNat ∧
      decrypt (Sample.platform 2) (Sample.noteDescriptor 2 3) Sample.unlocking.2 =
        (ItemRecord.decrypt Sample.kit (record file items 1 items[1]) Sample.masterKey
          items[1].id items[1].itemNonce (Sample.bundle.bytes.take 96), Sample.unlocking.2) := by
  obtain ⟨first, windows, lookup⟩ := item_windows (Sample.platform 2) Sample.init_bundle
    Sample.session Sample.unlocking_masterKey Sample.unlocking_cachedManifest
  obtain ⟨-, next, -⟩ := windows 0 (by decide)
  obtain ⟨-, -, -, -, -, bytes⟩ := windows 1 (by decide)
  rw [first, Nat.zero_add] at next
  refine ⟨next, bytes, ?_⟩
  exact ((lookup (Sample.noteDescriptor 2 3)).1 1 (by decide) rfl).1

end UltraLocked.Format.BundleParser
