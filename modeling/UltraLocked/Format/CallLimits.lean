import UltraLocked.Format.Session

/-!
# Limits hold before any expensive work

Every call that a parser makes to libargon2 and CryptoKit is an event. The
events of each transition are known exactly, so what bounds them can be read
off the header limits and off the validity of the manifest that is held.
-/

namespace UltraLocked.Format.BundleParser

open Library

/-! ## A process that works on one file -/

/-- The calls made one after another until one traps, each with its foreign calls. -/
def foreignCalls (platform : Platform) :
    BundleParser → List Call → List (Call × List ForeignCall)
  | _, [] => []
  | parser, call :: rest =>
      let (result, next) := step platform parser call
      (call, result.events) ::
        match result.outcome with
        | .error (.trapped _) => []
        | _ => foreignCalls platform next rest

/-- A process that makes a parser from `data` and, if it gets one, makes the calls. -/
def process (platform : Platform) (data : Data) (calls : List Call) :
    List (Call × List ForeignCall) :=
  match init data with
  | .ok parser => foreignCalls platform parser calls
  | .error _ => []

/-! ## The limits -/

/-- The longest ciphertext that a call may hand to the AEAD. -/
def ciphertextLimit : Call → Nat
  | .decrypt _ => 262144000 - 16
  | _ => 1048576 - 16

/-- What a call on a parser may ask of libargon2 and CryptoKit. -/
def Limited (call : Call) : ForeignCall → Prop
  | .argon2id_hash_raw hash => Argon2id.WithinLimits hash
  | .hkdf _ _ outputByteCount => outputByteCount = 32
  | .sealGCM _ _ _ _ _ _ => False
  | .sealGCMRefused _ _ _ _ => False
  | .openGCM _ nonce ciphertext tag _ =>
      nonce.length = 12 ∧ tag.length = 16 ∧ ciphertext.length ≤ ciphertextLimit call

theorem passphraseKey_limited (platform : Platform) (header : BundleHeader)
    (passphrase : String) :
    ∀ event ∈ (passphraseKey platform header passphrase).events,
      ∃ hash, event = .argon2id_hash_raw hash ∧ Argon2id.WithinLimits hash := by
  intro event member
  rw [passphraseKey, header.parameters_init, Traced.liftM_def, Traced.bind_silent] at member
  exact (Argon2id.deriveKey_sat _ _ _ _).emitted event member

/-- The key of an unlock call is got within the limits. -/
theorem source_limited {platform : Platform} {header : BundleHeader} {call : Call}
    {source : Calling SymmetricKey} (unlocks : call.source platform header = some source) :
    ciphertextLimit call = 1048576 - 16 ∧ ∀ event ∈ source.events, Limited call event := by
  cases call with
  | unlockPassphrase passphrase =>
      cases unlocks
      refine ⟨rfl, ?_⟩
      intro event member
      obtain ⟨hash, rfl, within⟩ := passphraseKey_limited platform header passphrase event member
      exact within
  | unlockMasterKey key =>
      cases unlocks
      exact ⟨rfl, fun event member => nomatch member⟩
  | decrypt item => cases unlocks
  | lock => cases unlocks

theorem openManifest_limited {file : BundleFile} (accepted : file.Accepted)
    (platform : Platform) (key : SymmetricKey) {call : Call}
    (limit : ciphertextLimit call = 1048576 - 16) :
    ∀ event ∈ (openManifest platform file key).events, Limited call event := by
  have bounds := file.header.manifestSize_bounds
  rw [openManifest_events accepted, List.forall_mem_cons, List.forall_mem_singleton]
  refine ⟨rfl, file.header.length_manifestNonce, length_manifestTag accepted, ?_⟩
  rw [length_manifestCiphertext accepted, limit]
  omega

theorem attempt_limited {file : BundleFile} (accepted : file.Accepted) {platform : Platform}
    {call : Call} {source : Calling SymmetricKey}
    (unlocks : call.source platform file.header = some source) :
    ∀ event ∈ (attempt platform file source).events, Limited call event := by
  obtain ⟨limit, got⟩ := source_limited unlocks
  intro event member
  rcases Traced.mem_events_bind member with early | ⟨key, -, late⟩
  · exact got event early
  · rw [Traced.events_bind_quiet fun _ => rfl] at late
    exact openManifest_limited accepted platform key limit event late

theorem decryptUnlocked_limited {platform : Platform} {file : BundleFile}
    (accepted : file.Accepted) {key : SymmetricKey} {manifest : Manifest}
    (valid : manifest.Valid) (fits : FitsIn file manifest) (item : ItemDescriptor) :
    ∀ event ∈ (decryptUnlocked platform file key manifest item).events,
      Limited (.decrypt item) event := by
  rcases decryptUnlocked_cases platform key accepted valid fits item with
    ⟨index, inside, opens, -⟩ | refused
  · have one := valid.items _ (List.getElem_mem inside)
    have length := length_record fits inside
    have size := one.size
    rw [opens, ItemRecord.decrypt_eq (by omega), List.forall_mem_cons,
      List.forall_mem_singleton]
    refine ⟨rfl, one.nonce, ?_, ?_⟩
    · rw [List.length_drop]
      omega
    · rw [List.length_take, ciphertextLimit]
      omega
  · rw [refused]
    exact fun event member => nomatch member

theorem decryptHeld_limited {platform : Platform} {file : BundleFile}
    (accepted : file.Accepted) {masterKey : Option SymmetricKey}
    {cachedManifest : Option Manifest} (holds : Holds platform file masterKey cachedManifest)
    (item : ItemDescriptor) :
    ∀ event ∈ (decryptHeld platform file masterKey cachedManifest item).events,
      Limited (.decrypt item) event := by
  cases holds with
  | locked => exact fun event member => nomatch member
  | unlocked opened => exact decryptUnlocked_limited accepted opened.valid opened.fits item

/-- The foreign calls of a transition from a sound parser are within the limits. -/
theorem Moved.limited {platform : Platform} {file : BundleFile} {parser next : BundleParser}
    {call : Call} {result : Calling Reply} (moved : Moved platform parser call result next)
    (sound : Sound platform file parser) : ∀ event ∈ result.events, Limited call event := by
  obtain ⟨accepted, rfl, holds⟩ := sound
  cases moved with
  | unlocked unlocks opened =>
      have limits := attempt_limited accepted unlocks
      rwa [opened] at limits
  | refused unlocks failed =>
      have limits := attempt_limited accepted unlocks
      rwa [failed] at limits
  | decrypted item =>
      rw [Traced.events_bind_quiet fun _ => rfl]
      exact decryptHeld_limited accepted holds item
  | locked => exact fun event member => nomatch member

/-! ## Files that make no parser -/

/-- A little-endian field of a file. -/
def field (data : Data) (offset width : Nat) : Nat :=
  LittleEndian.decode ((data.bytes.drop offset).take width)

/-- The files that are too long or too short or have a header out of range. -/
inductive Refused (data : Data) : Prop where
  | tooLong (long : 2147483648 < data.bytes.length)
  | noHeader (short : data.bytes.length < 96)
  | noManifest (short : data.bytes.length < 96 + field data 48 4)
  | magic (wrong : data.bytes.take 8 ≠ BundleHeader.magic)
  | version (wrong : field data 8 2 ≠ 1)
  | kdfID (wrong : field data 10 1 ≠ 1)
  | reserved {byte : UInt8} (member : byte ∈ (data.bytes.drop 52).take 44)
      (nonzero : byte ≠ 0)
  | timeCost (outside : ¬ (1 ≤ field data 11 4 ∧ field data 11 4 ≤ 10))
  | memoryKiB (outside : ¬ (8 ≤ field data 15 4 ∧ field data 15 4 ≤ 262144))
  | parallelism (outside : ¬ (1 ≤ field data 19 1 ∧ field data 19 1 ≤ 8))
  | manifestSize (outside : ¬ (16 ≤ field data 48 4 ∧ field data 48 4 ≤ 1048576))

theorem decode_littleEndian16 (value : UInt16) :
    LittleEndian.decode (littleEndian16 value) = value.toNat := by
  rw [littleEndian16_eq, LittleEndian.decode_encode value.toNat_lt]

theorem decode_littleEndian32 (value : UInt32) :
    LittleEndian.decode (littleEndian32 value) = value.toNat := by
  rw [littleEndian32_eq, LittleEndian.decode_encode value.toNat_lt]

theorem decode_singleton (byte : UInt8) : LittleEndian.decode [byte] = byte.toNat := by
  simp [LittleEndian.decode]

/-- The manifest size of a file that starts with a header. -/
theorem field_manifestSize {data : Data} {header : BundleHeader}
    (starts : header.encoded <+: data.bytes) :
    field data 48 4 = header.manifestSize.toNat := by
  obtain ⟨-, -, -, -, -, -, -, -, manifestSize, -⟩ :=
    BundleHeader.encoded_isPrefix_iff.mp starts
  rw [field, manifestSize, decode_littleEndian32]

/-- No parser is made of a refused file. -/
theorem init_of_refused {data : Data} (refused : Refused data) (start : BundleParser) :
    init data ≠ .ok start := by
  intro opened
  obtain ⟨⟨sameData, -, -, -⟩, accepted⟩ := init_eq_ok_iff.mp opened
  obtain ⟨-, small, starts, -, fits⟩ := accepted
  rw [sameData, Data.copy_bytes] at small starts fits
  obtain ⟨magic, version, kdfID, timeCost, memoryKiB, parallelism, -, -, -, reserved⟩ :=
    BundleHeader.encoded_isPrefix_iff.mp starts
  have manifestSize := field_manifestSize starts
  have params := BundleLimits.validateArgon2Params_eq_ok_iff.mp
    start.header.argon2Params_valid
  have bounds := start.header.manifestSize_bounds
  cases refused with
  | tooLong long => omega
  | noHeader short => omega
  | noManifest short => rw [manifestSize] at short; omega
  | magic wrong => exact wrong magic
  | version wrong =>
      rw [field, version, decode_littleEndian16, start.header.version_eq] at wrong
      exact wrong rfl
  | kdfID wrong =>
      rw [field, kdfID, decode_singleton, start.header.kdfID_eq] at wrong
      exact wrong rfl
  | reserved member nonzero =>
      rw [reserved] at member
      exact nonzero (List.eq_of_mem_replicate member)
  | timeCost outside =>
      rw [field, timeCost, decode_littleEndian32] at outside
      exact outside params.1
  | memoryKiB outside =>
      rw [field, memoryKiB, decode_littleEndian32] at outside
      exact outside params.2.1
  | parallelism outside =>
      rw [field, parallelism, decode_singleton] at outside
      exact outside params.2.2
  | manifestSize outside =>
      rw [manifestSize] at outside
      exact outside bounds

/-! ## The limits over a whole process -/

theorem foreignCalls_limited (platform : Platform) {file : BundleFile} (calls : List Call)
    {parser : BundleParser} (sound : Sound platform file parser) :
    ∀ made ∈ foreignCalls platform parser calls,
      ∀ event ∈ made.2, Limited made.1 event := by
  induction calls generalizing parser with
  | nil => exact fun made member => nomatch member
  | cons call rest ih =>
      have moved := step_moved platform parser call
      intro made member
      rw [foreignCalls] at member
      rcases List.mem_cons.mp member with rfl | later
      · exact moved.limited sound
      · split at later
        · cases later
        · exact ih (moved.sound sound) made later

/--
In every process the KDF and the AEAD are called within the limits; they are
not called at all for a file that the initialiser refuses, nor for an item that
the unlocked manifest does not list.
-/
theorem limits_before_work (platform : Platform) (data : Data) :
    (∀ calls, ∀ made ∈ process platform data calls,
      ∀ event ∈ made.2, Limited made.1 event) ∧
    (Refused data → ∀ calls, process platform data calls = []) ∧
    (∀ start parser past manifest item, init data = .ok start →
      History (step platform) Survives start past parser →
      parser.cachedManifest = some manifest →
      (∀ descriptor ∈ manifest.items, descriptor.id ≠ item.id) →
      (step platform parser (.decrypt item)).1.events = []) := by
  refine ⟨?_, ?_, ?_⟩
  · intro calls
    rw [process]
    split
    · rename_i start opened
      exact foreignCalls_limited platform calls (init_sound platform opened)
    · exact fun made member => nomatch member
  · intro refused calls
    rw [process]
    split
    · rename_i start opened
      exact absurd opened (init_of_refused refused start)
    · rfl
  · intro start parser past manifest item opened history cached absent
    rw [step_decrypt, Traced.events_bind_quiet fun _ => rfl, cached]
    cases parser.masterKey with
    | none => rfl
    | some key => rw [decryptHeld, decryptUnlocked_of_absent absent]

end UltraLocked.Format.BundleParser
