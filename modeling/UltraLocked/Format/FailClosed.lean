import UltraLocked.Format.CallLimits

/-!
# Malformed input fails closed

No call on a parser traps, and every failure is a `BundleError`. The manifest
section bounds the plaintext that the AEAD can hand back, the plaintext bounds
the number of items, validation bounds each of them, and so the sum of their
sizes stays far below `2 ^ 64`.
-/

namespace UltraLocked.Format

open Library

theorem Clean.sequence {α β : Type} {x : Calling α} {f : α → Calling β}
    (first : Clean x.outcome) (second : ∀ a, x.outcome = .ok a → Clean (f a).outcome) :
    Clean (x >>= f).outcome := by
  rw [Traced.outcome_bind]
  exact first.bind second

section Laws

variable {kit : CryptoKit} (nonces : kit.NonceLaw) (boxes : kit.SealedBoxLaw)

include nonces boxes in
/-- With a 12-byte nonce and a 16-byte tag, opening fails only by authentication. -/
theorem Crypto.openGCM_clean {key : SymmetricKey} {nonce ciphertext tag aad : Bytes}
    (nonceLength : nonce.length = 12) (tagLength : tag.length = 16) :
    Clean (Crypto.openGCM kit key nonce ciphertext tag aad).outcome := by
  intro stop failed
  have only := (Crypto.openGCM_error_iff (nonces nonce (by omega))
    (boxes nonce ciphertext tag tagLength)).mp failed
  exact ⟨_, only.1⟩

include nonces boxes in
theorem Manifest.decrypt_clean {json : JSONCoding Manifest}
    {ciphertext tag nonce headerAAD : Bytes} {masterKey : SymmetricKey}
    (nonceLength : nonce.length = 12) (tagLength : tag.length = 16) :
    Clean (Manifest.decrypt kit json ciphertext tag masterKey nonce headerAAD).outcome := by
  rw [Manifest.decrypt, Crypto.deriveManifestKey_eq, Traced.bind_ok]
  exact .sequence (Crypto.openGCM_clean nonces boxes nonceLength tagLength)
    fun plaintext _ => Manifest.decodeJSON_clean json plaintext

include nonces boxes in
theorem ItemRecord.decrypt_clean {record : Data} (long : 16 ≤ record.bytes.length)
    {masterKey : SymmetricKey} {itemID : UUID} {nonce headerAAD : Bytes}
    (nonceLength : nonce.length = 12) :
    Clean (ItemRecord.decrypt kit record masterKey itemID nonce headerAAD).outcome := by
  rw [ItemRecord.decrypt_eq long]
  refine Crypto.openGCM_clean nonces boxes nonceLength ?_
  rw [List.length_drop]
  omega

end Laws

namespace BundleParser

section Platform

variable {platform : Platform}

/-- A manifest that decrypts lists at most as many items as its section has bytes. -/
theorem length_items_le (lengths : platform.kit.OpenLengthLaw)
    (counts : platform.json.DecodeCountLaw) {file : BundleFile} (accepted : file.Accepted)
    {key : SymmetricKey} {manifest : Manifest}
    (decrypted : (Manifest.decrypt platform.kit platform.json file.manifestCiphertext
      file.manifestTag key file.header.manifestNonce file.headerBytes.bytes).outcome =
        .ok manifest) :
    manifest.Valid ∧ manifest.items.length ≤ 1048576 := by
  have bounds := file.header.manifestSize_bounds
  obtain ⟨-, -, plaintext, opened, decoded, valid⟩ := Manifest.decrypt_ok_iff.mp decrypted
  have short := lengths _ _ _ _ _ _ opened
  have few := counts _ _ decoded
  rw [length_manifestCiphertext accepted] at short
  exact ⟨valid, by omega⟩

variable (nonces : platform.kit.NonceLaw) (boxes : platform.kit.SealedBoxLaw)
  (lengths : platform.kit.OpenLengthLaw) (counts : platform.json.DecodeCountLaw)

include nonces boxes lengths counts in
theorem openManifest_clean {file : BundleFile} (accepted : file.Accepted)
    (key : SymmetricKey) : Clean (openManifest platform file key).outcome := by
  rw [openManifest_eq accepted]
  refine .sequence (Manifest.decrypt_clean nonces boxes file.header.length_manifestNonce
    (length_manifestTag accepted)) fun manifest decrypted => ?_
  obtain ⟨valid, few⟩ := length_items_le lengths counts accepted decrypted
  have small := sum_itemSizes_le valid.items
  exact .sequence (checkBudget_clean accepted (by omega)) fun _ _ => .of_ok _

theorem source_clean {header : BundleHeader} {call : Call} {source : Calling SymmetricKey}
    (unlocks : call.source platform header = some source) : Clean source.outcome := by
  cases call with
  | unlockPassphrase passphrase =>
      cases unlocks
      rw [passphraseKey, header.parameters_init, Traced.liftM_def, Traced.bind_silent]
      exact (Argon2id.deriveKey_sat _ _ _ _).failed
  | unlockMasterKey key => cases unlocks; exact .of_ok _
  | decrypt item => cases unlocks
  | lock => cases unlocks

include nonces boxes in
theorem decryptUnlocked_clean {file : BundleFile} (accepted : file.Accepted)
    {key : SymmetricKey} {manifest : Manifest} (valid : manifest.Valid)
    (fits : FitsIn file manifest) (item : ItemDescriptor) :
    Clean (decryptUnlocked platform file key manifest item).outcome := by
  rcases decryptUnlocked_cases platform key accepted valid fits item with
    ⟨index, inside, opens, -⟩ | refused
  · have one := valid.items _ (List.getElem_mem inside)
    have size := one.size
    rw [opens]
    exact ItemRecord.decrypt_clean nonces boxes
      (by rw [length_record fits inside]; exact size.1) one.nonce
  · rw [refused]
    exact .of_throw _

include nonces boxes in
theorem decryptHeld_clean {file : BundleFile} (accepted : file.Accepted)
    {masterKey : Option SymmetricKey} {cachedManifest : Option Manifest}
    (holds : Holds platform file masterKey cachedManifest) (item : ItemDescriptor) :
    Clean (decryptHeld platform file masterKey cachedManifest item).outcome := by
  cases holds with
  | locked => exact .of_throw _
  | unlocked opened =>
      exact decryptUnlocked_clean nonces boxes accepted opened.valid opened.fits item

include nonces boxes lengths counts in
/-- A transition from a sound parser does not trap and throws only a `BundleError`. -/
theorem Moved.clean {file : BundleFile} {parser next : BundleParser} {call : Call}
    {result : Calling Reply} (moved : Moved platform parser call result next)
    (sound : Sound platform file parser) : Clean result.outcome := by
  obtain ⟨accepted, rfl, holds⟩ := sound
  cases moved with
  | unlocked unlocks opened => exact .of_ok _
  | refused unlocks failed =>
      have clean : Clean (attempt platform parser.toBundleFile _).outcome :=
        .sequence (source_clean unlocks) fun key _ =>
          .sequence (openManifest_clean nonces boxes lengths counts accepted key)
            fun _ _ => .of_ok _
      rw [failed] at clean
      intro stop same
      cases same
      exact clean _ rfl
  | decrypted item =>
      exact .sequence (decryptHeld_clean nonces boxes accepted holds item)
        fun _ _ => .of_ok _
  | locked => exact .of_ok _

/--
Whatever the file, the keys and the plaintexts that the AEAD hands back: making
the parser and every call on it end by returning or by a `BundleError`, never
by a trap, and the CryptoKit initialisers accept what they are given.
-/
theorem session_fails_closed (platform : Platform) (nonces : platform.kit.NonceLaw)
    (boxes : platform.kit.SealedBoxLaw) (lengths : platform.kit.OpenLengthLaw)
    (counts : platform.json.DecodeCountLaw) (data : Data) :
    Clean (init data) ∧
    ∀ start past parser, init data = .ok start →
      History (step platform) Survives start past parser →
      ∀ call, Clean (step platform parser call).1.outcome ∧
        ∀ key nonce ciphertext tag aad,
          ForeignCall.openGCM key nonce ciphertext tag aad ∈
            (step platform parser call).1.events →
          platform.kit.nonceError nonce = none ∧
          platform.kit.sealedBoxError nonce ciphertext tag = none := by
  refine ⟨init_clean data, ?_⟩
  intro start past parser opened history call
  have sound := session_sound platform opened history
  have moved := step_moved platform parser call
  refine ⟨moved.clean nonces boxes lengths counts sound, ?_⟩
  intro key nonce ciphertext tag aad member
  obtain ⟨nonceLength, tagLength, -⟩ := moved.limited sound _ member
  exact ⟨nonces nonce (by omega), boxes nonce ciphertext tag tagLength⟩

end Platform

/-- On the bundle of two notes no call of a session traps. -/
theorem two_notes_fail_closed :
    Clean (init Sample.bundle) ∧
    ∀ call, Clean (step (Sample.platform 2) Sample.unlocking.2 call).1.outcome := by
  obtain ⟨made, calls⟩ := session_fails_closed (Sample.platform 2) Sample.nonceLaw
    Sample.sealedBoxLaw Sample.openLengthLaw
    (Sample.decodeCountLaw (Sample.few_items 2)) Sample.bundle
  exact ⟨made, fun call => (calls _ _ _ Sample.init_bundle Sample.session call).1⟩

end BundleParser

end UltraLocked.Format
