import UltraLocked.Format.BuildSuccess
import UltraLocked.Format.Session

/-!
# Reading back what a build wrote

A file that starts with the header and the manifest section of a bundle makes a
parser whose section is the sealed manifest. Which manifests open, and which
records decrypt, is then a matter of the sealed boxes alone.
-/

namespace UltraLocked.Format

open Library BundleBuilder BundleParser

/-- A file that starts with a header and a manifest section. -/
structure Starts (data : Data) (header : BundleHeader) (box : Bytes × Bytes) : Prop where
  small : data.bytes.length ≤ 2147483648
  begins : header.encoded ++ joined box <+: data.bytes
  length : (joined box).length = header.manifestSize.toNat
  tag : box.2.length = 16

/-- The parser that the initialiser makes of such a file. -/
def startOf (data : Data) (header : BundleHeader) : BundleParser :=
  ⟨⟨header, data.copy, data.copy.part 0 96⟩, none, none⟩

namespace Starts

variable {data : Data} {header : BundleHeader} {box : Bytes × Bytes}
  (starts : Starts data header box)

include starts

theorem take_header : data.bytes.take 96 = header.encoded := by
  obtain ⟨tail, whole⟩ := starts.begins
  rw [← whole, List.append_assoc]
  exact List.take_left' header.length_encoded

theorem take_section :
    data.bytes.take (96 + header.manifestSize.toNat) = header.encoded ++ joined box := by
  obtain ⟨tail, whole⟩ := starts.begins
  rw [← whole]
  exact List.take_left' (by rw [List.length_append, header.length_encoded, starts.length])

theorem drop_header : joined box <+: data.bytes.drop 96 := by
  obtain ⟨tail, whole⟩ := starts.begins
  refine ⟨tail, ?_⟩
  rw [← whole, List.append_assoc, ← header.length_encoded, List.drop_left]

theorem accepted : (startOf data header).Accepted where
  fresh := rfl
  small := starts.small
  starts := (List.prefix_append _ _).trans starts.begins
  headerBytes := by
    rw [startOf, Data.part_bytes, List.drop_zero, Data.copy_bytes, starts.take_header]
  fits := by
    have within := starts.begins.length_le
    rw [List.length_append, header.length_encoded, starts.length] at within
    exact within

theorem init_eq : init data = .ok (startOf data header) :=
  init_eq_ok_iff.mpr ⟨⟨rfl, rfl, rfl, rfl⟩, starts.accepted⟩

theorem headerBytes : (startOf data header).headerBytes.bytes = header.encoded :=
  starts.accepted.headerBytes

/-- Ciphertext and tag follow the header, and the announced size is that of both. -/
theorem drop_boxes : box.1.length = header.manifestSize.toNat - 16 ∧
    ∃ tail, box.1 ++ (box.2 ++ tail) = data.bytes.drop 96 := by
  have size := starts.length
  rw [joined, List.length_append, starts.tag] at size
  obtain ⟨tail, whole⟩ := starts.drop_header
  rw [joined, List.append_assoc] at whole
  exact ⟨by omega, tail, whole⟩

theorem manifestCiphertext_eq : (startOf data header).manifestCiphertext = box.1 := by
  obtain ⟨size, tail, whole⟩ := starts.drop_boxes
  rw [BundleFile.manifestCiphertext]
  change (data.bytes.drop 96).take (header.manifestSize.toNat - 16) = box.1
  rw [← whole]
  exact List.take_left' size

theorem manifestTag_eq : (startOf data header).manifestTag = box.2 := by
  obtain ⟨size, tail, whole⟩ := starts.drop_boxes
  rw [BundleFile.manifestTag]
  change (data.bytes.drop (96 + (header.manifestSize.toNat - 16))).take 16 = box.2
  rw [← List.drop_drop, ← whole, ← size, List.drop_left]
  exact List.take_left' starts.tag

/-- A manifest opens when the box opens to a text that decodes to it, and it fits. -/
theorem opened_iff {platform : Platform} {key : SymmetricKey} {manifest : Manifest} :
    Opened platform (startOf data header).toBundleFile key manifest ↔
      platform.kit.nonceError header.manifestNonce = none ∧
      platform.kit.sealedBoxError header.manifestNonce box.1 box.2 = none ∧
      (∃ plaintext,
        platform.kit.openBox (Crypto.manifestKey platform.kit key) header.manifestNonce box.1
          box.2 header.encoded = .ok plaintext ∧
        platform.json.decode plaintext = .ok manifest ∧ manifest.Valid) ∧
      96 + header.manifestSize.toNat + (itemSizes manifest.items).sum ≤
        data.bytes.length := by
  constructor
  · rintro ⟨decrypted, fits⟩
    rw [starts.manifestCiphertext_eq, starts.manifestTag_eq, starts.headerBytes,
      Manifest.decrypt_ok_iff] at decrypted
    exact ⟨decrypted.1, decrypted.2.1, decrypted.2.2, fits⟩
  · rintro ⟨nonce, sealedBox, opens, fits⟩
    refine ⟨?_, fits⟩
    rw [starts.manifestCiphertext_eq, starts.manifestTag_eq, starts.headerBytes,
      Manifest.decrypt_ok_iff]
    exact ⟨nonce, sealedBox, opens⟩

end Starts

/-! ## Unlocking with a key -/

theorem unlockMasterKey_ok_iff {platform : Platform} {key : SymmetricKey}
    {start : BundleParser} (accepted : start.Accepted) {manifest : Manifest} :
    (unlockMasterKey platform key start).1.outcome = .ok manifest ↔
      Opened platform start.toBundleFile key manifest := by
  rw [← openManifest_ok_iff accepted]
  change (unlockWithKey platform key start).1.outcome = _ ↔ _
  rcases read : openManifest platform start.toBundleFile key with ⟨stop | found, events⟩
  · rw [unlockWithKey_error read]
  · rw [unlockWithKey_ok read]

/-- The parser after a successful unlock. -/
def unlockedWith (parser : BundleParser) (key : SymmetricKey) (manifest : Manifest) :
    BundleParser :=
  { parser with masterKey := some key, cachedManifest := some manifest }

theorem unlockMasterKey_state {platform : Platform} {key : SymmetricKey}
    {start : BundleParser} {manifest : Manifest}
    (returned : (unlockMasterKey platform key start).1.outcome = .ok manifest) :
    (unlockMasterKey platform key start).2 = unlockedWith start key manifest := by
  change (unlockWithKey platform key start).1.outcome = _ at returned
  change (unlockWithKey platform key start).2 = _
  rcases read : openManifest platform start.toBundleFile key with ⟨stop | found, events⟩
  · rw [unlockWithKey_error read] at returned
    cases returned
  · rw [unlockWithKey_ok read] at returned ⊢
    cases returned
    rfl

/-- An unlock call whose key opens the manifest returns it and stores both. -/
theorem step_of_opened {platform : Platform} {start : BundleParser}
    (accepted : start.Accepted) {call : BundleParser.Call} {source : Calling SymmetricKey}
    (unlocks : call.source platform start.header = some source) {key : SymmetricKey}
    (got : source.outcome = .ok key) {manifest : Manifest}
    (opened : Opened platform start.toBundleFile key manifest) :
    ∃ events, BundleParser.step platform start call =
      (⟨.ok (.manifest manifest), events⟩, unlockedWith start key manifest) := by
  have read := (openManifest_ok_iff accepted).mpr opened
  have tried := attempt_ok_iff.mpr
    ⟨_, _, Traced.eq_of_outcome got, Traced.eq_of_outcome read, rfl⟩
  refine ⟨source.events ++ (openManifest platform start.toBundleFile key).events, ?_⟩
  rw [step_unlock unlocks (unlock_ok tried), Traced.bind_ok, Traced.pure_def, List.append_nil]
  rfl

/-- Decrypting any items any number of times leaves the parser as it is. -/
theorem history_of_decrypts {platform : Platform} {unlocked parser : BundleParser}
    {later : List (BundleParser.Call × Calling Reply)}
    (history : History (BundleParser.step platform) Survives unlocked later parser)
    (decrypts : ∀ made ∈ later, ∃ item, made.1 = .decrypt item) : parser = unlocked := by
  induction history with
  | opened => rfl
  | @called past before next call result _ moved _ ih =>
      have same := ih fun made member => decrypts made (List.mem_append_left _ member)
      obtain ⟨item, isDecrypt⟩ := decrypts (call, result) (by simp)
      cases isDecrypt
      rw [step_decrypt] at moved
      cases moved
      exact same

/-! ## The manifest and the records of a build -/

/-- The box of the item at a position, and its entry among the foreign calls. -/
theorem BundleBuilder.Encrypted.getElem {kit : CryptoKit} {masterKey : SymmetricKey}
    {headerBytes : Bytes} {items : List ItemContent} {descriptors : List ItemDescriptor}
    {boxes : List (Bytes × Bytes)} {events : List ForeignCall}
    (encrypted : Encrypted kit masterKey headerBytes items descriptors boxes events) {k : Nat}
    (inside : k < items.length) (counted : k < descriptors.length) :
    ∃ box, boxes[k]? = some box ∧ kit.nonceError descriptors[k].itemNonce = none ∧
      kit.sealBox (Crypto.itemKey kit masterKey items[k].id) descriptors[k].itemNonce
        items[k].plaintext.bytes (headerBytes ++ items[k].id.rawBytes) = .ok box ∧
      .sealGCM (Crypto.itemKey kit masterKey items[k].id) descriptors[k].itemNonce
        items[k].plaintext.bytes (headerBytes ++ items[k].id.rawBytes) box.1 box.2 ∈ events := by
  induction encrypted generalizing k with
  | nil => cases inside
  | cons accepted boxed _ _ ih =>
      cases k with
      | zero => exact ⟨_, rfl, accepted, boxed, by simp [itemCalls]⟩
      | succ k =>
          obtain ⟨box, found, rest⟩ := ih (by simpa using inside) (by simpa using counted)
          exact ⟨box, found, rest.1, rest.2.1, List.mem_append_right _ rest.2.2⟩

/-- Every seal among the foreign calls of the records is that of an item. -/
theorem BundleBuilder.Encrypted.logged {kit : CryptoKit} {masterKey : SymmetricKey}
    {headerBytes : Bytes} {items : List ItemContent} {descriptors : List ItemDescriptor}
    {boxes : List (Bytes × Bytes)} {events : List ForeignCall}
    (encrypted : Encrypted kit masterKey headerBytes items descriptors boxes events)
    {key : SymmetricKey} {nonce plaintext aad ciphertext tag : Bytes}
    (member : .sealGCM key nonce plaintext aad ciphertext tag ∈ events) :
    ∃ k, ∃ inside : k < items.length,
      aad = headerBytes ++ items[k].id.rawBytes ∧ boxes[k]? = some (ciphertext, tag) := by
  induction encrypted with
  | nil => cases member
  | cons _ _ _ _ ih =>
      rcases List.mem_append.mp member with now | later
      · rw [itemCalls, List.mem_cons, List.mem_singleton] at now
        rcases now with other | same
        · cases other
        · cases same
          exact ⟨0, Nat.zero_lt_succ _, rfl, rfl⟩
      · obtain ⟨k, inside, same, found⟩ := ih later
        exact ⟨k + 1, Nat.succ_lt_succ inside, same, found⟩

section Staged

variable {platform : Platform} {builder : BundleBuilder} {masterKey : SymmetricKey}
  {salt manifestNonce : Bytes} {random : SystemRandom} {draw : Nat}

/-- The manifest that reading back a build returns. -/
def restored (random : SystemRandom) (builder : BundleBuilder) (draw : Nat) : Manifest :=
  (stagedManifest random builder draw).wholeSeconds

theorem itemSizes_restored (random : SystemRandom) (builder : BundleBuilder) (draw : Nat) :
    itemSizes (restored random builder draw).items = recordSizes builder.items := by
  rw [restored, Manifest.itemSizes_wholeSeconds]
  exact itemSizes_staged random draw builder.items

/-- The only check that staged items can fail on reading back is the uniqueness of ids. -/
theorem valid_restored_iff (stageables : ∀ item ∈ builder.items, Stageable item) :
    (restored random builder draw).Valid ↔ (builder.items.map ItemContent.id).Nodup := by
  have ids : (stagedManifest random builder draw).items.map ItemDescriptor.id =
      builder.items.map ItemContent.id := map_id_staged random draw builder.items
  constructor
  · intro valid
    rw [← ids, ← Manifest.map_id_wholeSeconds]
    exact valid.ids
  · intro distinct
    exact Manifest.Valid.wholeSeconds ⟨rfl, valid_staged stageables, ids ▸ distinct⟩

theorem length_restored (random : SystemRandom) (builder : BundleBuilder) (draw : Nat) :
    (restored random builder draw).items.length = builder.items.length := by
  rw [← length_itemSizes, itemSizes_restored, length_recordSizes]

/-- The descriptor at a position, as it is read back. -/
theorem getElem_restored {k : Nat} (inside : k < builder.items.length)
    (listed : k < (restored random builder draw).items.length) :
    (restored random builder draw).items[k] =
      (descriptor builder.items[k] (drawn random 12 (draw + k))).wholeSeconds := by
  have counted : k < (staged random draw builder.items).length := by
    rw [length_staged]
    exact inside
  have same : (restored random builder draw).items[k] =
      (staged random draw builder.items)[k].wholeSeconds := List.getElem_map _
  rw [same, getElem_staged inside]

theorem id_restored {k : Nat} (inside : k < builder.items.length)
    (listed : k < (restored random builder draw).items.length) :
    (restored random builder draw).items[k].id = builder.items[k].id := by
  rw [getElem_restored inside listed]
  rfl

/-- The parts of a bundle that a build returned, with what the build has checked. -/
structure Returned (platform : Platform) (random : SystemRandom) (builder : BundleBuilder)
    (masterKey : SymmetricKey) (salt manifestNonce : Bytes) (draw : Nat) (bundle : Data)
    (events : List ForeignCall) where
  parts : Parts platform.kit platform.json builder masterKey salt manifestNonce
    (staged random draw builder.items)
  stageables : ∀ item ∈ builder.items, Stageable item
  content : bundle.bytes = parts.bytes
  calls : events = parts.events
  small : bundle.bytes.length ≤ 2147483648

/-- Every returned bundle can be taken apart again. -/
theorem returned_of_build (platform : Platform) (random : SystemRandom) {bundle : Data}
    {events : List ForeignCall}
    (run : (buildBundle { platform with random := random } builder masterKey salt
      manifestNonce draw).1 = ⟨.ok bundle, events⟩) :
    Nonempty (Returned platform random builder masterKey salt manifestNonce draw bundle
      events) := by
  obtain ⟨-, stageables, assembly, -, content, calls⟩ := buildBundle_returns_iff.mp run
  refine ⟨⟨assembly.toParts, stageables, content, calls, ?_⟩⟩
  rw [content, assembly.length_bytes]
  exact assembly.small

namespace Returned

variable {bundle : Data} {events : List ForeignCall}
  (returned : Returned platform random builder masterKey salt manifestNonce draw bundle events)

include returned

/-- The foreign calls are those of the parts. -/
theorem mem_events_iff {event : ForeignCall} :
    event ∈ events ↔ event ∈ returned.parts.events :=
  iff_of_eq (congrArg (event ∈ ·) returned.calls)

theorem begins :
    returned.parts.header.encoded ++ joined returned.parts.box <+: bundle.bytes := by
  rw [returned.content]
  exact List.prefix_append _ _

theorem length : bundle.bytes.length =
    96 + returned.parts.header.manifestSize.toNat + (recordSizes builder.items).sum := by
  rw [returned.content, returned.parts.length_bytes, itemSizes_staged,
    returned.parts.headed.manifestSize]

theorem starts (lengths : platform.kit.SealLengthLaw) {data : Data}
    (small : data.bytes.length ≤ 2147483648)
    (begins : returned.parts.header.encoded ++ joined returned.parts.box <+: data.bytes) :
    Starts data returned.parts.header returned.parts.box := by
  refine ⟨small, begins, ?_, (lengths _ _ _ _ _ _ returned.parts.boxed).2⟩
  rw [returned.parts.length, returned.parts.headed.manifestSize]

/-- A file that starts like the bundle opens as its manifest, if ids are distinct. -/
theorem opened_iff (boxes : platform.kit.SealedBoxLaw) (decodes : platform.json.RoundTripLaw)
    (opens : platform.kit.openBox (Crypto.manifestKey platform.kit masterKey) manifestNonce
      returned.parts.box.1 returned.parts.box.2 returned.parts.header.encoded =
        .ok returned.parts.text.bytes) {data : Data}
    (starts : Starts data returned.parts.header returned.parts.box) {manifest : Manifest} :
    Opened platform (startOf data returned.parts.header).toBundleFile masterKey manifest ↔
      manifest = restored random builder draw ∧
      (builder.items.map ItemContent.id).Nodup ∧
      bundle.bytes.length ≤ data.bytes.length := by
  have reads := decodes _ _ returned.parts.encoded
  rw [starts.opened_iff, returned.parts.headed.manifestNonce, opens, returned.length]
  constructor
  · rintro ⟨-, -, ⟨text, opened, decoded, valid⟩, fits⟩
    cases opened
    cases reads.symm.trans decoded
    change _ + _ + (itemSizes (restored random builder draw).items).sum ≤ _ at fits
    rw [itemSizes_restored] at fits
    exact ⟨rfl, (valid_restored_iff returned.stageables).mp valid, fits⟩
  · rintro ⟨rfl, distinct, fits⟩
    refine ⟨returned.parts.accepted, boxes _ _ _ starts.tag,
      ⟨_, rfl, reads, (valid_restored_iff returned.stageables).mpr distinct⟩, ?_⟩
    rw [itemSizes_restored]
    exact fits

end Returned

/-- The bytes where the record of an item is expected in a file. -/
def window (data : Data) (header : BundleHeader) (items : List ItemContent) (k size : Nat) :
    Bytes :=
  (data.bytes.drop (windowStart header items k)).take size

/-- In the bundle itself the window holds the box of the item. -/
theorem window_eq
    (parts : Parts platform.kit platform.json builder masterKey salt manifestNonce
      (staged random draw builder.items))
    {data : Data} (content : data.bytes = parts.bytes) {k : Nat}
    (inside : k < builder.items.length) {box : Bytes × Bytes}
    (found : parts.boxes[k]? = some box) :
    window data parts.header builder.items k (builder.items[k].plaintext.bytes.length + 16) =
      joined box := by
  have sizes := parts.recordSizes_eq
  have stored : (parts.boxes.map joined)[k]? = some (joined box) := by
    rw [List.getElem?_map, found, Option.map_some]
  obtain ⟨record, same, length⟩ := record_of_sizes sizes inside
  cases stored.symm.trans same
  have read := Windows.take_drop_behind (parts.header.encoded ++ joined parts.box) stored
  rw [sizes, parts.length_front, length] at read
  rw [window, windowStart, content, Parts.bytes, read]

/-- The size that the manifest announces for an item. -/
theorem size_restored {k : Nat} (inside : k < builder.items.length)
    (listed : k < (restored random builder draw).items.length) :
    (restored random builder draw).items[k].itemSize.toNat =
      builder.items[k].plaintext.bytes.length + 16 := by
  rw [getElem_restored inside listed]
  exact itemSize_descriptor builder.items[k] (drawn random 12 (draw + k))

/-- The record that the parser reads for an item is the window of the item. -/
theorem record_restored (header : BundleHeader) (data : Data) {k : Nat}
    (inside : k < builder.items.length)
    (listed : k < (restored random builder draw).items.length) :
    (record (startOf data header).toBundleFile (restored random builder draw).items k
        (restored random builder draw).items[k]).bytes =
      window data header builder.items k (builder.items[k].plaintext.bytes.length + 16) := by
  rw [record, recordStart, itemSizes_restored, size_restored inside listed]
  rfl

/-- The window of an item lies inside the file. -/
theorem length_window {header : BundleHeader} {data : Data} {key : SymmetricKey}
    (opened : Opened platform (startOf data header).toBundleFile key
      (restored random builder draw)) {k : Nat} (inside : k < builder.items.length) :
    (window data header builder.items k
      (builder.items[k].plaintext.bytes.length + 16)).length =
        builder.items[k].plaintext.bytes.length + 16 := by
  have listed : k < (restored random builder draw).items.length := by
    rw [length_restored]
    exact inside
  rw [← record_restored header data inside listed, length_record opened.fits listed,
    size_restored inside listed]

/-- Decrypting a listed item opens its window under its own key, nonce and AAD. -/
theorem decrypt_restored {header : BundleHeader} {box : Bytes × Bytes} {data : Data}
    (starts : Starts data header box) {key : SymmetricKey}
    (opened : Opened platform (startOf data header).toBundleFile key
      (restored random builder draw)) {k : Nat} (inside : k < builder.items.length)
    {item : ItemDescriptor} (same : item.id = builder.items[k].id) {parser : BundleParser}
    (unlocked : parser = unlockedWith (startOf data header) key
      (restored random builder draw)) :
    (decrypt platform item parser).1.outcome =
      (Crypto.openGCM platform.kit (Crypto.itemKey platform.kit key builder.items[k].id)
        (drawn random 12 (draw + k))
        ((window data header builder.items k (builder.items[k].plaintext.bytes.length +
          16)).take builder.items[k].plaintext.bytes.length)
        ((window data header builder.items k (builder.items[k].plaintext.bytes.length +
          16)).drop builder.items[k].plaintext.bytes.length)
        (header.encoded ++ builder.items[k].id.rawBytes)).outcome := by
  have listed : k < (restored random builder draw).items.length := by
    rw [length_restored]
    exact inside
  have id : (restored random builder draw).items[k].id = item.id :=
    (id_restored inside listed).trans same.symm
  have nonce : (restored random builder draw).items[k].itemNonce =
      drawn random 12 (draw + k) := by
    rw [getElem_restored inside listed]
    rfl
  have bytes := record_restored header data inside listed
  have length := length_window opened inside
  rw [unlocked, decrypt_run]
  change (decryptUnlocked platform (startOf data header).toBundleFile key
    (restored random builder draw) item).outcome = _
  rw [decryptUnlocked_of_id starts.accepted opened.valid opened.fits listed id,
    ItemRecord.decrypt_eq (by rw [bytes, length]; omega), bytes, length, nonce, id, same,
    starts.headerBytes, Nat.add_sub_cancel]

end Staged

end UltraLocked.Format
