import UltraLocked.Format.BundleParser
import UltraLocked.Format.HeaderCodec
import UltraLocked.Library.Windows

/-!
# Accepted files

What `BundleParser.init` guarantees about a file, and what the later
computations on the file amount to: the split of the manifest section, the
budget check, the offset loop and the lookup of a descriptor.
-/

namespace UltraLocked.Format

open Library

/-- What the initialiser of a parser has checked. -/
structure BundleFile.Accepted (file : BundleFile) : Prop where
  fresh : file.data.startIndex = 0
  small : file.data.bytes.length ≤ 2147483648
  starts : file.header.encoded <+: file.data.bytes
  headerBytes : file.headerBytes.bytes = file.header.encoded
  fits : 96 + file.header.manifestSize.toNat ≤ file.data.bytes.length

namespace BundleFile

variable (file : BundleFile)

def itemsStart : Nat := 96 + file.header.manifestSize.toNat

def manifestCiphertext : Bytes :=
  (file.data.bytes.drop 96).take (file.header.manifestSize.toNat - 16)

def manifestTag : Bytes :=
  (file.data.bytes.drop (96 + (file.header.manifestSize.toNat - 16))).take 16

end BundleFile

namespace BundleParser

/-! ## The initialiser -/

theorem manifestEnd_eq (header : BundleHeader) :
    manifestEnd header = .ok ((96 + header.manifestSize.toNat : Nat) : Int) := by
  have bounds := header.manifestSize_bounds
  have value : BundleHeader.totalSize + (header.manifestSize.toNat : Int) =
      ((96 + header.manifestSize.toNat : Nat) : Int) := by
    simp only [BundleHeader.totalSize]; omega
  rw [manifestEnd, addInt_ok (by omega) (by omega), value]

theorem subdata_header {data : Data} (fresh : data.startIndex = 0)
    (long : 96 ≤ data.bytes.length) :
    data.subdata 0 BundleHeader.totalSize = .ok (data.part 0 96) :=
  Data.subdata_eq fresh 0 96 (by omega) long

/-- The initialiser accepts exactly these files, and starts locked. -/
theorem init_eq_ok_iff {data : Data} {parser : BundleParser} :
    init data = .ok parser ↔
      (parser.data = data.copy ∧ parser.headerBytes = data.copy.part 0 96 ∧
        parser.masterKey = none ∧ parser.cachedManifest = none) ∧
      parser.Accepted := by
  obtain ⟨count, value⟩ := uint64OfInt_natCast
    (show data.bytes.length < 2 ^ 64 from by have := data.length_lt; omega)
  change uint64OfInt data.count = _ at count
  rw [init, count, throwing_bind_ok, guards_eq_ok_iff,
    BundleLimits.validateTotalFileSize_eq_ok_iff, value, throwing_bind_eq_ok_iff]
  have parses {header : BundleHeader} :
      BundleHeader.parse data.copy = .ok header ↔ header.encoded <+: data.bytes := by
    rw [BundleHeader.parse_eq_ok_iff, Data.copy_bytes]
  constructor
  · rintro ⟨small, header, parsed, rest⟩
    rw [manifestEnd_eq, throwing_bind_ok, guards_eq_ok_iff, guardElse_eq_ok_iff] at rest
    obtain ⟨enough, rest⟩ := rest
    have fits : 96 + header.manifestSize.toNat ≤ data.bytes.length := by
      simp only [Data.count, byteCount, Data.copy_bytes] at enough
      omega
    rw [subdata_header rfl (by rw [Data.copy_bytes]; omega), throwing_bind_ok] at rest
    cases rest
    refine ⟨⟨rfl, rfl, rfl, rfl⟩, rfl, small, parses.mp parsed, ?_, fits⟩
    exact BundleHeader.take_of_parse parsed
  · rintro ⟨⟨sameData, sameHeader, noKey, noManifest⟩, accepted⟩
    obtain ⟨⟨header, ownData, headerBytes⟩, masterKey, cachedManifest⟩ := parser
    cases sameData
    cases sameHeader
    cases noKey
    cases noManifest
    have fits : 96 + header.manifestSize.toNat ≤ data.bytes.length := accepted.fits
    refine ⟨accepted.small, header, parses.mpr accepted.starts, ?_⟩
    rw [manifestEnd_eq, throwing_bind_ok, guards_eq_ok_iff, guardElse_eq_ok_iff,
      subdata_header rfl (by rw [Data.copy_bytes]; omega)]
    refine ⟨?_, rfl⟩
    simp only [Data.count, byteCount, Data.copy_bytes]
    omega

/-- The initialiser never traps, and throws nothing but a `BundleError`. -/
theorem init_clean (data : Data) : Clean (init data) := by
  obtain ⟨count, -⟩ := uint64OfInt_natCast
    (show data.bytes.length < 2 ^ 64 from by have := data.length_lt; omega)
  change uint64OfInt data.count = _ at count
  rw [init, count, throwing_bind_ok]
  refine .guards (BundleLimits.validateTotalFileSize_clean _) <|
    .bind (BundleHeader.parse_clean _) fun header parsed => ?_
  have long := (BundleHeader.parse_eq_ok_iff.mp parsed).length_le
  rw [BundleHeader.length_encoded] at long
  rw [manifestEnd_eq, throwing_bind_ok, subdata_header rfl long]
  exact .guards .of_guard (.of_ok _)

/-! ## The manifest section -/

theorem manifestSection_eq {file : BundleFile} (accepted : file.Accepted) :
    manifestSection file = .ok (file.manifestCiphertext, file.manifestTag) := by
  have bounds := file.header.manifestSize_bounds
  have fits := accepted.fits
  have range : file.data.subdata BundleHeader.totalSize
      ((96 + file.header.manifestSize.toNat : Nat) : Int) =
      .ok (file.data.part 96 file.header.manifestSize.toNat) := by
    have read := Data.subdata_eq accepted.fresh 96 (96 + file.header.manifestSize.toNat)
      (by omega) fits
    rwa [Nat.add_sub_cancel_left] at read
  have length : (file.data.part 96 file.header.manifestSize.toNat).bytes.length =
      file.header.manifestSize.toNat := by
    rw [Data.part_bytes, List.length_take, List.length_drop]
    omega
  rw [manifestSection, manifestEnd_eq, throwing_bind_ok, range, throwing_bind_ok,
    ItemRecord.splitTag_eq rfl (by omega), length, Data.part_bytes, List.take_take,
    List.drop_take, List.drop_drop, Nat.min_eq_left (by omega),
    show file.header.manifestSize.toNat - (file.header.manifestSize.toNat - 16) = 16
      by omega]
  rfl

/-! ## The budget check -/

theorem foldlM_itemSizes_eq_ok_iff {items : List ItemDescriptor} {first total : UInt64} :
    items.foldlM (fun sum item => addUInt64 sum item.itemSize) first = .ok total ↔
      total.toNat = first.toNat + (itemSizes items).sum := by
  induction items generalizing first with
  | nil =>
      simp only [List.foldlM_nil, itemSizes, List.map_nil, List.sum_nil, Nat.add_zero]
      constructor
      · intro same; cases same; rfl
      · intro same; rw [UInt64.toNat_inj.mp same]; rfl
  | cons item rest ih =>
      rw [List.foldlM_cons, throwing_bind_eq_ok_iff]
      simp only [addUInt64_eq_ok_iff, ih, itemSizes, List.map_cons, List.sum_cons]
      constructor
      · rintro ⟨next, sum, rest⟩
        omega
      · intro same
        have small := total.toNat_lt
        have exact : first.toNat + item.itemSize.toNat < 2 ^ 64 := by omega
        refine ⟨first + item.itemSize, ?_, ?_⟩
        · rw [UInt64.toNat_add, Nat.mod_eq_of_lt exact]
        · rw [UInt64.toNat_add, Nat.mod_eq_of_lt exact]
          omega

theorem totalItemBytes_eq_ok_iff {items : List ItemDescriptor} {total : UInt64} :
    totalItemBytes items = .ok total ↔ total.toNat = (itemSizes items).sum := by
  rw [totalItemBytes, foldlM_itemSizes_eq_ok_iff, UInt64.toNat_zero, Nat.zero_add]

theorem budget_eq {file : BundleFile} (accepted : file.Accepted) :
    ∃ budget : UInt64, budget.toNat = file.data.bytes.length - file.itemsStart ∧
      checkBudget file = fun manifest => (do
        let totalItemBytes ← totalItemBytes manifest.items
        guardElse (totalItemBytes ≤ budget)
          (.manifestParseFailed
            s!"manifest item sizes ({totalItemBytes}) exceed file space ({budget})")) := by
  have fits := accepted.fits
  have small := accepted.small
  have difference : subInt file.data.count
      ((96 + file.header.manifestSize.toNat : Nat) : Int) =
      .ok ((file.data.bytes.length - file.itemsStart : Nat) : Int) := by
    have value : file.data.count - ((96 + file.header.manifestSize.toNat : Nat) : Int) =
        ((file.data.bytes.length - file.itemsStart : Nat) : Int) := by
      simp only [Data.count, byteCount, BundleFile.itemsStart]; omega
    rw [subInt_ok (by omega) (by omega), value]
  obtain ⟨converted, value⟩ := uint64OfInt_natCast
    (show file.data.bytes.length - file.itemsStart < 2 ^ 64 by omega)
  refine ⟨_, value, ?_⟩
  funext manifest
  rw [checkBudget, manifestEnd_eq, throwing_bind_ok, difference, throwing_bind_ok,
    converted, throwing_bind_ok]

/-- The item records that a manifest announces end inside the file. -/
def FitsIn (file : BundleFile) (manifest : Manifest) : Prop :=
  file.itemsStart + (itemSizes manifest.items).sum ≤ file.data.bytes.length

/-- The check passes exactly when the records fit; an overflow of the sum fails it. -/
theorem checkBudget_eq_ok_iff {file : BundleFile} (accepted : file.Accepted)
    {manifest : Manifest} :
    checkBudget file manifest = .ok () ↔ FitsIn file manifest := by
  have fits := accepted.fits
  obtain ⟨budget, value, same⟩ := budget_eq accepted
  have bound := budget.toNat_lt
  rw [same, throwing_bind_eq_ok_iff, FitsIn]
  simp only [totalItemBytes_eq_ok_iff, guardElse_eq_ok_iff, UInt64.le_iff_toNat_le]
  constructor
  · rintro ⟨total, sum, within⟩
    simp only [BundleFile.itemsStart] at *
    omega
  · intro within
    have small : (itemSizes manifest.items).sum < 2 ^ 64 := by
      simp only [BundleFile.itemsStart] at *
      omega
    have exact : (UInt64.ofNat (itemSizes manifest.items).sum).toNat =
        (itemSizes manifest.items).sum := by
      rw [UInt64.toNat_ofNat', Nat.mod_eq_of_lt small]
    refine ⟨_, exact, ?_⟩
    simp only [BundleFile.itemsStart] at *
    omega

/-- Without overflow of the sum the check fails only by a `BundleError`. -/
theorem checkBudget_clean {file : BundleFile} (accepted : file.Accepted)
    {manifest : Manifest} (small : (itemSizes manifest.items).sum < 2 ^ 64) :
    Clean (checkBudget file manifest) := by
  obtain ⟨budget, value, same⟩ := budget_eq accepted
  have exact : (UInt64.ofNat (itemSizes manifest.items).sum).toNat =
      (itemSizes manifest.items).sum := by
    rw [UInt64.toNat_ofNat', Nat.mod_eq_of_lt small]
  rw [same]
  change Clean (totalItemBytes manifest.items >>= fun _ => _)
  rw [totalItemBytes_eq_ok_iff.mpr exact, throwing_bind_ok]
  exact .of_guard

/-! ## Reading the manifest under a key -/

/-- A manifest that `unlockWithKey` accepts for a file under a key. -/
structure Opened (platform : Platform) (file : BundleFile) (key : SymmetricKey)
    (manifest : Manifest) : Prop where
  decrypted : (Manifest.decrypt platform.kit platform.json file.manifestCiphertext
    file.manifestTag key file.header.manifestNonce file.headerBytes.bytes).outcome =
      .ok manifest
  fits : FitsIn file manifest

theorem Opened.valid {platform : Platform} {file : BundleFile} {key : SymmetricKey}
    {manifest : Manifest} (opened : Opened platform file key manifest) : manifest.Valid := by
  obtain ⟨-, -, plaintext, -, -, valid⟩ := Manifest.decrypt_ok_iff.mp opened.decrypted
  exact valid

theorem openManifest_eq {file : BundleFile} (accepted : file.Accepted)
    (platform : Platform) (key : SymmetricKey) :
    openManifest platform file key = (do
      let manifest ← Manifest.decrypt platform.kit platform.json file.manifestCiphertext
        file.manifestTag key file.header.manifestNonce file.headerBytes.bytes
      checkBudget file manifest
      pure manifest) := by
  rw [openManifest, manifestSection_eq accepted]
  rfl

/-- Reading the manifest succeeds exactly when it decrypts and its records fit. -/
theorem openManifest_ok_iff {file : BundleFile} (accepted : file.Accepted)
    {platform : Platform} {key : SymmetricKey} {manifest : Manifest} :
    (openManifest platform file key).outcome = .ok manifest ↔
      Opened platform file key manifest := by
  rw [openManifest_eq accepted, Traced.bind_outcome_ok_iff]
  simp only [Traced.bind_outcome_ok_iff, Traced.liftM_def, checkBudget_eq_ok_iff accepted,
    Traced.pure_def, Except.ok.injEq]
  constructor
  · rintro ⟨_, decrypted, _, fits, rfl⟩
    exact ⟨decrypted, fits⟩
  · rintro ⟨decrypted, fits⟩
    exact ⟨manifest, decrypted, (), fits, rfl⟩

theorem length_manifestCiphertext {file : BundleFile} (accepted : file.Accepted) :
    file.manifestCiphertext.length = file.header.manifestSize.toNat - 16 := by
  have fits := accepted.fits
  rw [BundleFile.manifestCiphertext, List.length_take, List.length_drop]
  omega

theorem length_manifestTag {file : BundleFile} (accepted : file.Accepted) :
    file.manifestTag.length = 16 := by
  have bounds := file.header.manifestSize_bounds
  have fits := accepted.fits
  rw [BundleFile.manifestTag, List.length_take, List.length_drop]
  omega

/-- An accepted file starts with its header, its ciphertext and its tag. -/
theorem section_isPrefix {file : BundleFile} (accepted : file.Accepted) :
    file.header.encoded ++ (file.manifestCiphertext ++ file.manifestTag) <+:
      file.data.bytes := by
  obtain ⟨tail, whole⟩ := accepted.starts
  have behind : file.data.bytes.drop 96 = tail := by
    rw [← whole]
    exact List.drop_left' file.header.length_encoded
  rw [BundleFile.manifestCiphertext, BundleFile.manifestTag, ← List.drop_drop, behind,
    ← List.take_add, ← whole]
  exact List.prefix_append_right_inj _ |>.mpr (List.take_prefix _ tail)

/-- Reading the manifest derives one key and calls the AEAD once. -/
theorem openManifest_events {file : BundleFile} (accepted : file.Accepted)
    (platform : Platform) (key : SymmetricKey) :
    (openManifest platform file key).events =
      [.hkdf key Crypto.manifestKeyInfo Crypto.derivedKeySize,
        .openGCM (Crypto.manifestKey platform.kit key) file.header.manifestNonce
          file.manifestCiphertext file.manifestTag file.headerBytes.bytes] := by
  rw [openManifest_eq accepted, Traced.events_bind_quiet, Manifest.decrypt_events]
  intro manifest
  rw [Traced.events_bind_quiet fun _ => rfl, Traced.liftM_def]

/-! ## The record of an item -/

/-- Where the record of the item at `index` starts. -/
def recordStart (file : BundleFile) (items : List ItemDescriptor) (index : Nat) : Nat :=
  file.itemsStart + Windows.start (itemSizes items) index

section Records

variable {file : BundleFile} {manifest : Manifest}

theorem element_eq {α : Type} {array : List α} {i : Nat} (inside : i < array.length) :
    element array i = .ok array[i] := by
  rw [element, List.getElem?_eq_getElem inside]

/-- A record ends inside the file. -/
theorem record_inside (fits : FitsIn file manifest) {index : Nat}
    (inside : index < manifest.items.length) :
    recordStart file manifest.items index + manifest.items[index].itemSize.toNat ≤
      file.data.bytes.length := by
  have counted : index < (itemSizes manifest.items).length := by simpa using inside
  have stop := Windows.stop_le_sum counted
  rw [getElem_itemSizes inside counted] at stop
  have budget := fits
  rw [FitsIn] at budget
  rw [recordStart]
  omega

/-- The next record starts where this one ends. -/
theorem recordStart_succ {index : Nat} (inside : index < manifest.items.length) :
    recordStart file manifest.items (index + 1) =
      recordStart file manifest.items index + manifest.items[index].itemSize.toNat := by
  have counted : index < (itemSizes manifest.items).length := by simpa using inside
  rw [recordStart, recordStart, Windows.start_succ counted, getElem_itemSizes inside counted,
    Nat.add_assoc]

/-- The offset loop adds up the sizes of the preceding records. -/
theorem recordOffset_eq (fits : FitsIn file manifest) {index : Nat}
    (inside : index ≤ manifest.items.length) :
    recordOffset file.header manifest.items index =
      .ok (recordStart file manifest.items index : Int) := by
  have bound := file.data.length_lt
  rw [recordOffset, manifestEnd_eq, throwing_bind_ok]
  induction index with
  | zero => rfl
  | succ index ih =>
      have ends := record_inside fits inside
      rw [List.range_succ, List.foldlM_append, ih (Nat.le_of_lt inside), throwing_bind_ok,
        List.foldlM_cons, element_eq inside, throwing_bind_ok, intOfUInt64_ok (by omega),
        throwing_bind_ok, addInt_ok (by omega) (by omega), recordStart_succ inside,
        Int.natCast_add]
      rfl

/-- The bytes of the record of the item at `index`. -/
def record (file : BundleFile) (items : List ItemDescriptor) (index : Nat)
    (descriptor : ItemDescriptor) : Data :=
  file.data.part (recordStart file items index) descriptor.itemSize.toNat

theorem length_record (fits : FitsIn file manifest) {index : Nat}
    (inside : index < manifest.items.length) :
    (record file manifest.items index manifest.items[index]).bytes.length =
      manifest.items[index].itemSize.toNat := by
  have ends := record_inside fits inside
  rw [record, Data.part_bytes, List.length_take, List.length_drop]
  omega

/-- With distinct ids the first match is the only one. -/
theorem findIdx?_of_id (ids : (manifest.items.map ItemDescriptor.id).Nodup)
    {index : Nat} (inside : index < manifest.items.length) {id : UUID}
    (same : manifest.items[index].id = id) :
    manifest.items.findIdx? (fun descriptor => descriptor.id = id) = some index := by
  rw [List.findIdx?_eq_some_iff_getElem]
  refine ⟨inside, by simpa using same, ?_⟩
  intro earlier before
  have away := List.pairwise_iff_getElem.mp ids earlier index (by simp; omega)
    (by simpa using inside) before
  simp only [List.getElem_map] at away
  simpa [same] using away

/-- `decrypt(item:)` opens the record of the descriptor with the given id. -/
theorem decryptUnlocked_of_id {platform : Platform} {key : SymmetricKey}
    (accepted : file.Accepted) (valid : manifest.Valid) (fits : FitsIn file manifest)
    {index : Nat} (inside : index < manifest.items.length) {item : ItemDescriptor}
    (same : manifest.items[index].id = item.id) :
    decryptUnlocked platform file key manifest item =
      ItemRecord.decrypt platform.kit
        (record file manifest.items index manifest.items[index]) key
        manifest.items[index].id manifest.items[index].itemNonce file.headerBytes.bytes := by
  have bound := file.data.length_lt
  have ends := record_inside fits inside
  have enough : file.data.count ≥ ((recordStart file manifest.items index +
      manifest.items[index].itemSize.toNat : Nat) : Int) := by
    simp only [Data.count, byteCount]; omega
  have read := Data.subdata_eq accepted.fresh (recordStart file manifest.items index)
    (recordStart file manifest.items index + manifest.items[index].itemSize.toNat)
    (by omega) ends
  rw [Nat.add_sub_cancel_left] at read
  rw [decryptUnlocked, findIdx?_of_id valid.ids inside same]
  have stop : addInt (recordStart file manifest.items index : Int)
      (manifest.items[index].itemSize.toNat : Int) =
      .ok ((recordStart file manifest.items index +
        manifest.items[index].itemSize.toNat : Nat) : Int) := by
    rw [addInt_ok (by omega) (by omega), Int.natCast_add]
  simp only [element_eq inside, recordOffset_eq fits (Nat.le_of_lt inside),
    Traced.liftM_def, Traced.bind_silent]
  rw [intOfUInt64_ok (by omega), Traced.bind_silent, stop, Traced.bind_silent,
    guardElse_pos enough, Traced.bind_silent, read, Traced.bind_silent]
  rfl

/-- `decrypt(item:)` of an id that the manifest does not list. -/
theorem decryptUnlocked_of_absent {platform : Platform} {key : SymmetricKey}
    {item : ItemDescriptor} (absent : ∀ descriptor ∈ manifest.items, descriptor.id ≠ item.id) :
    decryptUnlocked platform file key manifest item =
      ⟨throwBundle (.manifestParseFailed
        s!"item {item.id} is not in this bundle's manifest"), []⟩ := by
  have none : manifest.items.findIdx? (fun descriptor => descriptor.id = item.id) = none := by
    simpa [List.findIdx?_eq_none_iff] using absent
  rw [decryptUnlocked, none]
  rfl

/-- Either the record of a listed descriptor is opened, or nothing is done. -/
theorem decryptUnlocked_cases (platform : Platform) (key : SymmetricKey)
    (accepted : file.Accepted) (valid : manifest.Valid) (fits : FitsIn file manifest)
    (item : ItemDescriptor) :
    (∃ index, ∃ inside : index < manifest.items.length,
      decryptUnlocked platform file key manifest item =
        ItemRecord.decrypt platform.kit
          (record file manifest.items index manifest.items[index]) key
          manifest.items[index].id manifest.items[index].itemNonce file.headerBytes.bytes ∧
      manifest.items[index].id = item.id) ∨
    decryptUnlocked platform file key manifest item =
      ⟨throwBundle (.manifestParseFailed
        s!"item {item.id} is not in this bundle's manifest"), []⟩ := by
  by_cases listed : ∃ descriptor ∈ manifest.items, descriptor.id = item.id
  · obtain ⟨descriptor, member, same⟩ := listed
    obtain ⟨index, inside, rfl⟩ := List.getElem_of_mem member
    exact .inl ⟨index, inside, decryptUnlocked_of_id accepted valid fits inside same, same⟩
  · exact .inr (decryptUnlocked_of_absent fun descriptor member same =>
      listed ⟨descriptor, member, same⟩)

end Records

end BundleParser

end UltraLocked.Format
