import UltraLocked.Format.BundleFile
import UltraLocked.Format.SamplePlatform
import UltraLocked.Library.History

/-!
# Sessions

A parser answers calls one after another. `Moved` says once what a call can do
to the parser and what it returns; the invariant of a session and the abstract
session, which remembers nothing but the last key, are read off it.
-/

namespace UltraLocked.Format.BundleParser

open Library

/-! ## What one call does -/

/-- Get a key, then read the manifest under it. -/
def attempt (platform : Platform) (file : BundleFile) (source : Calling SymmetricKey) :
    Calling (SymmetricKey × Manifest) := do
  let key ← source
  let manifest ← openManifest platform file key
  pure (key, manifest)

/-- The key that an unlock call brings; other calls bring none. -/
def Call.source (platform : Platform) (header : BundleHeader) :
    Call → Option (Calling SymmetricKey)
  | .unlockPassphrase passphrase => some (passphraseKey platform header passphrase)
  | .unlockMasterKey key => some (pure key)
  | .decrypt _ => none
  | .lock => none

/-- The answer to `decrypt(item:)` for what the parser holds. -/
def decryptHeld (platform : Platform) (file : BundleFile) (masterKey : Option SymmetricKey)
    (cachedManifest : Option Manifest) (item : ItemDescriptor) : Calling Bytes :=
  match masterKey, cachedManifest with
  | some key, some manifest => decryptUnlocked platform file key manifest item
  | _, _ => ⟨throwBundle (.parameterOutOfBounds
      "must call unlock(...) before decrypt(item:)"), []⟩

/-- The transitions of a parser: a call, its result and the parser after it. -/
inductive Moved (platform : Platform) (parser : BundleParser) :
    Call → Calling Reply → BundleParser → Prop where
  | unlocked {call : Call} {source : Calling SymmetricKey} {key : SymmetricKey}
      {manifest : Manifest} {events : List ForeignCall}
      (unlocks : call.source platform parser.header = some source)
      (opened : attempt platform parser.toBundleFile source = ⟨.ok (key, manifest), events⟩) :
      Moved platform parser call ⟨.ok (.manifest manifest), events⟩
        { parser with masterKey := some key, cachedManifest := some manifest }
  | refused {call : Call} {source : Calling SymmetricKey} {stop : Stop}
      {events : List ForeignCall}
      (unlocks : call.source platform parser.header = some source)
      (failed : attempt platform parser.toBundleFile source = ⟨.error stop, events⟩) :
      Moved platform parser call ⟨.error stop, events⟩ parser
  | decrypted (item : ItemDescriptor) :
      Moved platform parser (.decrypt item)
        (decryptHeld platform parser.toBundleFile parser.masterKey parser.cachedManifest
          item >>= fun plaintext => pure (.plaintext plaintext)) parser
  | locked :
      Moved platform parser .lock ⟨.ok .done, []⟩
        { parser with masterKey := none, cachedManifest := none }

theorem unlockWithKey_ok {platform : Platform} {key : SymmetricKey} {parser : BundleParser}
    {manifest : Manifest} {events : List ForeignCall}
    (read : openManifest platform parser.toBundleFile key = ⟨.ok manifest, events⟩) :
    unlockWithKey platform key parser = (⟨.ok manifest, events⟩,
      { parser with masterKey := some key, cachedManifest := some manifest }) := by
  have opens : (liftM (openManifest platform parser.toBundleFile key) :
      Method BundleParser Manifest) parser = (⟨.ok manifest, events⟩, parser) := by
    rw [Proc.lift_traced_run, read]
  have stores : unlockWithKey platform key parser = (⟨.ok manifest, [] ++ (events ++ [])⟩,
      { parser with masterKey := some key, cachedManifest := some manifest }) :=
    Proc.bind_run (Proc.read_run parser) (Proc.bind_run opens rfl)
  rwa [List.nil_append, List.append_nil] at stores

theorem unlockWithKey_error {platform : Platform} {key : SymmetricKey}
    {parser : BundleParser} {stop : Stop} {events : List ForeignCall}
    (read : openManifest platform parser.toBundleFile key = ⟨.error stop, events⟩) :
    unlockWithKey platform key parser = (⟨.error stop, events⟩, parser) := by
  have fails : (liftM (openManifest platform parser.toBundleFile key) :
      Method BundleParser Manifest) parser = (⟨.error stop, events⟩, parser) := by
    rw [Proc.lift_traced_run, read]
  exact Proc.bind_run (Proc.read_run parser) (Proc.bind_run_error fails)

/-- The method that both unlock calls are. -/
def unlock (platform : Platform) (source : Calling SymmetricKey) :
    Method BundleParser Manifest := do
  let key ← source
  unlockWithKey platform key

theorem attempt_ok_iff {platform : Platform} {file : BundleFile}
    {source : Calling SymmetricKey} {key : SymmetricKey} {manifest : Manifest}
    {events : List ForeignCall} :
    attempt platform file source = ⟨.ok (key, manifest), events⟩ ↔
      ∃ before after, source = ⟨.ok key, before⟩ ∧
        openManifest platform file key = ⟨.ok manifest, after⟩ ∧
        events = before ++ after := by
  rw [attempt, Traced.bind_returns_iff]
  constructor
  · rintro ⟨_, before, _, got, rest, rfl⟩
    obtain ⟨_, after, _, read, done, rfl⟩ := Traced.bind_returns_iff.mp rest
    cases done
    exact ⟨before, after, got, read, by rw [List.append_nil]⟩
  · rintro ⟨before, after, got, read, rfl⟩
    refine ⟨key, before, after, got, ?_, rfl⟩
    exact Traced.bind_returns_iff.mpr
      ⟨manifest, after, [], read, rfl, (List.append_nil after).symm⟩

/-- A successful attempt stores its key and its manifest. -/
theorem unlock_ok {platform : Platform} {source : Calling SymmetricKey}
    {parser : BundleParser} {key : SymmetricKey} {manifest : Manifest}
    {events : List ForeignCall}
    (opened : attempt platform parser.toBundleFile source = ⟨.ok (key, manifest), events⟩) :
    unlock platform source parser = (⟨.ok manifest, events⟩,
      { parser with masterKey := some key, cachedManifest := some manifest }) := by
  obtain ⟨before, after, got, read, rfl⟩ := attempt_ok_iff.mp opened
  exact Proc.bind_run (by rw [Proc.lift_traced_run, got]) (unlockWithKey_ok read)

/-- A failed attempt leaves the parser as it was. -/
theorem unlock_error {platform : Platform} {source : Calling SymmetricKey}
    {parser : BundleParser} {stop : Stop} {events : List ForeignCall}
    (failed : attempt platform parser.toBundleFile source = ⟨.error stop, events⟩) :
    unlock platform source parser = (⟨.error stop, events⟩, parser) := by
  obtain ⟨other | key, before⟩ := source
  · cases failed
    exact Proc.bind_run_error (Proc.lift_traced_run _ parser)
  · rcases read : openManifest platform parser.toBundleFile key with ⟨other | manifest, after⟩
    · rw [attempt, Traced.bind_ok, read] at failed
      cases failed
      exact Proc.bind_run (Proc.lift_traced_run _ parser) (unlockWithKey_error read)
    · rw [attempt, Traced.bind_ok, read] at failed
      cases failed

theorem decrypt_run (platform : Platform) (item : ItemDescriptor) (parser : BundleParser) :
    decrypt platform item parser =
      (decryptHeld platform parser.toBundleFile parser.masterKey parser.cachedManifest item,
        parser) := by
  obtain ⟨file, masterKey, cachedManifest⟩ := parser
  cases masterKey with
  | none => rfl
  | some key => cases cachedManifest <;> rfl

theorem unlockPassphrase_run (platform : Platform) (passphrase : String)
    (parser : BundleParser) :
    unlockPassphrase platform passphrase parser =
      unlock platform (passphraseKey platform parser.header passphrase) parser := by
  rw [unlockPassphrase, Proc.bind_run_ok (Proc.read_run parser)]
  rfl

theorem unlockMasterKey_run (platform : Platform) (key : SymmetricKey)
    (parser : BundleParser) :
    unlockMasterKey platform key parser = unlock platform (pure key) parser := rfl

theorem reply_run {α : Type} {x : Method BundleParser α} {reply : α → Reply}
    {parser next : BundleParser} {result : Calling α} (run : x parser = (result, next)) :
    (x >>= fun value => pure (reply value)) parser =
      (result >>= fun value => pure (reply value), next) := by
  obtain ⟨stop | value, events⟩ := result
  · exact Proc.bind_run_error run
  · exact Proc.bind_run run rfl

/-- A step by an unlock call is the unlock with the key it brings. -/
theorem step_unlock {platform : Platform} {parser : BundleParser} {call : Call}
    {source : Calling SymmetricKey}
    (unlocks : call.source platform parser.header = some source)
    {result : Calling Manifest} {next : BundleParser}
    (run : unlock platform source parser = (result, next)) :
    step platform parser call =
      (result >>= fun manifest => pure (.manifest manifest), next) := by
  cases call with
  | unlockPassphrase passphrase =>
      cases unlocks
      exact reply_run ((unlockPassphrase_run platform passphrase parser).trans run)
  | unlockMasterKey key =>
      cases unlocks
      exact reply_run ((unlockMasterKey_run platform key parser).trans run)
  | decrypt item => cases unlocks
  | lock => cases unlocks

theorem step_decrypt (platform : Platform) (parser : BundleParser) (item : ItemDescriptor) :
    step platform parser (.decrypt item) =
      (decryptHeld platform parser.toBundleFile parser.masterKey parser.cachedManifest
        item >>= fun plaintext => pure (.plaintext plaintext), parser) :=
  reply_run (decrypt_run platform item parser)

theorem step_moved_of_source {platform : Platform} {parser : BundleParser} {call : Call}
    {source : Calling SymmetricKey}
    (unlocks : call.source platform parser.header = some source) :
    Moved platform parser call (step platform parser call).1
      (step platform parser call).2 := by
  rcases tried : attempt platform parser.toBundleFile source with
    ⟨stop | ⟨key, manifest⟩, events⟩
  · rw [step_unlock unlocks (unlock_error tried)]
    exact .refused unlocks tried
  · rw [step_unlock unlocks (unlock_ok tried), Traced.bind_ok]
    simpa using Moved.unlocked unlocks tried

theorem step_moved (platform : Platform) (parser : BundleParser) (call : Call) :
    Moved platform parser call (step platform parser call).1
      (step platform parser call).2 := by
  cases call with
  | unlockPassphrase passphrase => exact step_moved_of_source rfl
  | unlockMasterKey key => exact step_moved_of_source rfl
  | decrypt item =>
      rw [step_decrypt]
      exact .decrypted item
  | lock => exact .locked

/-! ## The invariant -/

/-- A key and the manifest it opens are held together, or neither is. -/
inductive Holds (platform : Platform) (file : BundleFile) :
    Option SymmetricKey → Option Manifest → Prop where
  | locked : Holds platform file none none
  | unlocked {key : SymmetricKey} {manifest : Manifest}
      (opened : Opened platform file key manifest) :
      Holds platform file (some key) (some manifest)

/-- What every parser of a session over `file` satisfies. -/
structure Sound (platform : Platform) (file : BundleFile) (parser : BundleParser) :
    Prop where
  accepted : file.Accepted
  sameFile : parser.toBundleFile = file
  holds : Holds platform file parser.masterKey parser.cachedManifest

theorem init_sound (platform : Platform) {data : Data} {start : BundleParser}
    (opened : init data = .ok start) : Sound platform start.toBundleFile start := by
  obtain ⟨⟨-, -, noKey, noManifest⟩, accepted⟩ := init_eq_ok_iff.mp opened
  refine ⟨accepted, rfl, ?_⟩
  rw [noKey, noManifest]
  exact .locked

/-- An attempt that returns has opened the manifest. -/
theorem opened_of_attempt {platform : Platform} {file : BundleFile}
    (accepted : file.Accepted) {source : Calling SymmetricKey} {key : SymmetricKey}
    {manifest : Manifest} {events : List ForeignCall}
    (opened : attempt platform file source = ⟨.ok (key, manifest), events⟩) :
    Opened platform file key manifest := by
  obtain ⟨before, after, -, read, -⟩ := attempt_ok_iff.mp opened
  exact (openManifest_ok_iff accepted).mp (by rw [read])

/-- Every transition keeps the invariant. -/
theorem Moved.sound {platform : Platform} {file : BundleFile} {parser next : BundleParser}
    {call : Call} {result : Calling Reply} (moved : Moved platform parser call result next)
    (sound : Sound platform file parser) : Sound platform file next := by
  obtain ⟨accepted, rfl, holds⟩ := sound
  cases moved with
  | unlocked unlocks opened =>
      exact ⟨accepted, rfl, .unlocked (opened_of_attempt accepted opened)⟩
  | refused unlocks failed => exact ⟨accepted, rfl, holds⟩
  | decrypted item => exact ⟨accepted, rfl, holds⟩
  | locked => exact ⟨accepted, rfl, .locked⟩

/-- Every parser of a session is sound. -/
theorem session_sound (platform : Platform) {data : Data} {start parser : BundleParser}
    {past : List (Call × Calling Reply)} (opened : init data = .ok start)
    (history : History (step platform) Survives start past parser) :
    Sound platform start.toBundleFile parser := by
  refine history.invariant (init_sound platform opened) ?_
  intro parser call result next sound moved _
  have transition := step_moved platform parser call
  rw [moved] at transition
  exact transition.sound sound

/-! ## The abstract session -/

/-- How a call and its result change the key of the last successful unlock. -/
def keyAfter (platform : Platform) (header : BundleHeader) (last : Option SymmetricKey) :
    Call × Calling Reply → Option SymmetricKey
  | (.unlockPassphrase passphrase, ⟨.ok _, _⟩) =>
      (passphraseKey platform header passphrase).outcome.toOption
  | (.unlockMasterKey key, ⟨.ok _, _⟩) => some key
  | (.lock, _) => none
  | (_, _) => last

/-- The key of the most recent successful unlock not followed by `lock()`. -/
def lastKey (platform : Platform) (header : BundleHeader)
    (past : List (Call × Calling Reply)) : Option SymmetricKey :=
  past.foldl (keyAfter platform header) none

/-- The answer to `decrypt(item:)` in a session whose last key is known. -/
def decryptUnder (platform : Platform) (file : BundleFile) (last : Option SymmetricKey)
    (item : ItemDescriptor) : Calling Bytes :=
  decryptHeld platform file last
    (last.bind fun key => (openManifest platform file key).outcome.toOption) item

theorem Moved.keyAfter {platform : Platform} {parser next : BundleParser}
    {call : Call} {result : Calling Reply} (moved : Moved platform parser call result next) :
    next.masterKey =
      BundleParser.keyAfter platform parser.header parser.masterKey (call, result) := by
  cases moved with
  | unlocked unlocks opened =>
      obtain ⟨before, after, got, -⟩ := attempt_ok_iff.mp opened
      cases call with
      | unlockPassphrase passphrase =>
          cases unlocks
          rw [BundleParser.keyAfter, got]
          rfl
      | unlockMasterKey key =>
          cases unlocks
          cases got
          rfl
      | decrypt item => cases unlocks
      | lock => cases unlocks
  | refused unlocks failed =>
      cases call with
      | unlockPassphrase passphrase => cases unlocks; rfl
      | unlockMasterKey key => cases unlocks; rfl
      | decrypt item => cases unlocks
      | lock => cases unlocks
  | decrypted item => rfl
  | locked => rfl

/-- A sound parser that holds the key of the abstract session. -/
structure Tracks (platform : Platform) (file : BundleFile) (last : Option SymmetricKey)
    (parser : BundleParser) : Prop where
  sound : Sound platform file parser
  key : parser.masterKey = last

/-- The key held is the key of the abstract session. -/
theorem session_tracks (platform : Platform) {data : Data} {start parser : BundleParser}
    {past : List (Call × Calling Reply)} (opened : init data = .ok start)
    (history : History (step platform) Survives start past parser) :
    Tracks platform start.toBundleFile (lastKey platform start.header past) parser := by
  have initial : Tracks platform start.toBundleFile none start := by
    obtain ⟨⟨-, -, noKey, -⟩, -⟩ := init_eq_ok_iff.mp opened
    exact ⟨init_sound platform opened, noKey⟩
  refine history.follows initial ?_
  rintro last parser call result next ⟨sound, rfl⟩ moved -
  have transition := step_moved platform parser call
  rw [moved] at transition
  refine ⟨transition.sound sound, ?_⟩
  rw [← sound.sameFile]
  exact transition.keyAfter

/-- What is held depends on the key alone. -/
theorem Holds.manifest_eq {platform : Platform} {file : BundleFile}
    (accepted : file.Accepted) {masterKey : Option SymmetricKey}
    {cachedManifest : Option Manifest} (holds : Holds platform file masterKey cachedManifest) :
    cachedManifest = masterKey.bind fun key =>
      (openManifest platform file key).outcome.toOption := by
  cases holds with
  | locked => rfl
  | unlocked opened =>
      rw [Option.bind_some, (openManifest_ok_iff accepted).mpr opened]
      rfl

theorem Holds.isSome_eq {platform : Platform} {file : BundleFile}
    {masterKey : Option SymmetricKey} {cachedManifest : Option Manifest}
    (holds : Holds platform file masterKey cachedManifest) :
    masterKey.isSome = cachedManifest.isSome := by
  cases holds <;> rfl

theorem decryptUnlocked_congr (platform : Platform) (file : BundleFile) (key : SymmetricKey)
    (manifest : Manifest) {item other : ItemDescriptor} (same : item.id = other.id) :
    decryptUnlocked platform file key manifest item =
      decryptUnlocked platform file key manifest other := by
  rw [decryptUnlocked, decryptUnlocked, same]

theorem decryptUnder_congr (platform : Platform) (file : BundleFile)
    (last : Option SymmetricKey) {item other : ItemDescriptor} (same : item.id = other.id) :
    decryptUnder platform file last item = decryptUnder platform file last other := by
  unfold decryptUnder decryptHeld
  split
  · exact decryptUnlocked_congr _ _ _ _ same
  · rfl

/-- In a session the concrete `decrypt(item:)` answers as the abstract one. -/
theorem session_decrypt (platform : Platform) {data : Data} {start parser : BundleParser}
    {past : List (Call × Calling Reply)} (opened : init data = .ok start)
    (history : History (step platform) Survives start past parser)
    (item : ItemDescriptor) :
    decrypt platform item parser =
      (decryptUnder platform start.toBundleFile (lastKey platform start.header past) item,
        parser) := by
  obtain ⟨sound, key⟩ := session_tracks platform opened history
  rw [decrypt_run, decryptUnder, ← key, ← sound.holds.manifest_eq sound.accepted,
    sound.sameFile]

/-- A call that does not return leaves the parser as it was. -/
theorem Moved.of_error {platform : Platform} {parser next : BundleParser}
    {call : Call} {result : Calling Reply} (moved : Moved platform parser call result next)
    {stop : Stop} (failed : result.outcome = .error stop) : next = parser := by
  cases moved with
  | unlocked unlocks opened => cases failed
  | refused unlocks _ => rfl
  | decrypted item => rfl
  | locked => cases failed

/-! ## The session state machine -/

/--
In every state that calls can reach, the key and the manifest are held together
and the manifest is the valid one that the file yields under that key; a failed
call changes nothing, and `decrypt(item:)` answers by the item's id and the
last key alone.
-/
theorem session_state_machine (platform : Platform) {data : Data}
    {start parser : BundleParser} {past : List (Call × Calling Reply)}
    (opened : init data = .ok start)
    (history : History (step platform) Survives start past parser) :
    (parser.masterKey.isSome = parser.cachedManifest.isSome) ∧
    (∀ key manifest, parser.masterKey = some key →
      parser.cachedManifest = some manifest →
      (Manifest.decrypt platform.kit platform.json
        ((data.bytes.drop 96).take (start.header.manifestSize.toNat - 16))
        ((data.bytes.drop (96 + (start.header.manifestSize.toNat - 16))).take 16) key
        start.header.manifestNonce (data.bytes.take 96)).outcome = .ok manifest ∧
      manifest.schemaVersion = 1 ∧
      (manifest.items.map ItemDescriptor.id).Nodup ∧
      (∀ item ∈ manifest.items, item.itemNonce.length = 12 ∧
        (16 ≤ item.itemSize.toNat ∧ item.itemSize.toNat ≤ 262144000) ∧
        item.ttlSeconds.isSome = item.ttlOriginEpoch.isSome) ∧
      (manifest.items.map fun item => item.itemSize.toNat).sum ≤
        data.bytes.length - (96 + start.header.manifestSize.toNat)) ∧
    (∀ call stop, (step platform parser call).1.outcome = .error stop →
      (step platform parser call).2 = parser) ∧
    (∀ item,
      decrypt platform item parser =
        (decryptUnder platform start.toBundleFile (lastKey platform start.header past) item,
          parser) ∧
      (∀ other : ItemDescriptor, other.id = item.id →
        decryptUnder platform start.toBundleFile (lastKey platform start.header past) other =
        decryptUnder platform start.toBundleFile (lastKey platform start.header past) item) ∧
      (lastKey platform start.header past = none →
        (decrypt platform item parser).1.outcome = throwBundle (.parameterOutOfBounds
          "must call unlock(...) before decrypt(item:)"))) := by
  obtain ⟨accepted, sameFile, holds⟩ := session_sound platform opened history
  obtain ⟨⟨sameData, sameHeader, -, -⟩, -⟩ := init_eq_ok_iff.mp opened
  refine ⟨holds.isSome_eq, ?_, ?_, ?_⟩
  · intro key manifest isKey isManifest
    rw [isKey, isManifest] at holds
    cases holds with
    | unlocked found =>
        have decrypted := found.decrypted
        have fits := found.fits
        have valid := found.valid
        rw [BundleFile.manifestCiphertext, BundleFile.manifestTag, sameHeader, sameData]
          at decrypted
        rw [FitsIn, BundleFile.itemsStart, sameData, Data.copy_bytes] at fits
        refine ⟨decrypted, valid.schemaVersion, valid.ids, ?_, ?_⟩
        · intro item member
          exact ⟨(valid.items item member).nonce, (valid.items item member).size,
            (valid.items item member).ttl⟩
        · change (itemSizes manifest.items).sum ≤ _
          omega
  · intro call stop failed
    exact (step_moved platform parser call).of_error failed
  · intro item
    refine ⟨session_decrypt platform opened history item,
      fun other same => decryptUnder_congr _ _ _ same, ?_⟩
    intro noKey
    rw [session_decrypt platform opened history item, noKey]
    rfl

/-- The session that unlocks two notes: what it holds, and a failed call changes nothing. -/
theorem session_of_two_notes :
    ((Sample.manifest 2).items.map ItemDescriptor.id).Nodup ∧
    ∀ call stop,
      (step (Sample.platform 2) Sample.unlocking.2 call).1.outcome = .error stop →
      (step (Sample.platform 2) Sample.unlocking.2 call).2 = Sample.unlocking.2 := by
  obtain ⟨-, holds, failing, -⟩ :=
    session_state_machine (Sample.platform 2) Sample.init_bundle Sample.session
  obtain ⟨-, -, distinct, -⟩ := holds Sample.masterKey (Sample.manifest 2)
    Sample.unlocking_masterKey Sample.unlocking_cachedManifest
  exact ⟨distinct, failing⟩

end UltraLocked.Format.BundleParser
