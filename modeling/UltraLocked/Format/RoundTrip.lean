import UltraLocked.Format.Reopening

/-!
# The round trip

What a builder returns, the parser reads back: the same key or passphrase opens
the manifest, and every item decrypts to its plaintext. The one condition is
that the ids are distinct, which only the parser checks.
-/

namespace UltraLocked.Format

open Library BundleBuilder BundleParser

/-- What reading back relies on outside the package. -/
structure ReadLaws (platform : Platform) : Prop where
  opens : platform.kit.OpenSealLaw
  length : platform.kit.SealLengthLaw
  box : platform.kit.SealedBoxLaw
  json : platform.json.RoundTripLaw

section Build

variable {platform : Platform} (laws : ReadLaws platform) {builder : BundleBuilder}
  {masterKey : SymmetricKey} {salt manifestNonce : Bytes} {draw : Nat} {bundle : Data}
  {events : List ForeignCall}
  (returned : Returned platform platform.random builder masterKey salt manifestNonce draw
    bundle events)

include laws

theorem Returned.starts_itself :
    Starts bundle returned.parts.header returned.parts.box :=
  returned.starts laws.length returned.small returned.begins

/-- A bundle opens as its manifest exactly when the ids are distinct. -/
theorem Returned.opened_itself_iff {manifest : Manifest} :
    Opened platform (startOf bundle returned.parts.header).toBundleFile masterKey manifest ↔
      manifest = restored platform.random builder draw ∧
      (builder.items.map ItemContent.id).Nodup := by
  rw [returned.opened_iff laws.box laws.json (laws.opens _ _ _ _ _ _ returned.parts.boxed)
    (returned.starts_itself laws)]
  exact ⟨fun found => ⟨found.1, found.2.1⟩, fun found => ⟨found.1, found.2, Nat.le_refl _⟩⟩

/-- After the unlock every item decrypts to its plaintext. -/
theorem Returned.decrypts (distinct : (builder.items.map ItemContent.id).Nodup) {k : Nat}
    (inside : k < builder.items.length) {item : ItemDescriptor}
    (same : item.id = builder.items[k].id) {parser : BundleParser}
    (unlocked : parser = unlockedWith (startOf bundle returned.parts.header) masterKey
      (restored platform.random builder draw)) :
    (decrypt platform item parser).1.outcome = .ok builder.items[k].plaintext.bytes := by
  have opened := (returned.opened_itself_iff laws).mpr ⟨rfl, distinct⟩
  have counted : k < (staged platform.random draw builder.items).length := by
    rw [length_staged]
    exact inside
  obtain ⟨box, found, accepted, boxed, -⟩ := returned.parts.encrypted.getElem inside counted
  obtain ⟨ciphertext, tag⟩ := laws.length _ _ _ _ _ _ boxed
  rw [getElem_staged inside, itemNonce_descriptor] at accepted boxed
  rw [decrypt_restored (returned.starts_itself laws) opened inside same unlocked,
    window_eq returned.parts returned.content inside found, joined,
    List.take_left' ciphertext, List.drop_left' ciphertext, Crypto.openGCM_ok_iff]
  exact ⟨accepted, laws.box _ _ _ tag, laws.opens _ _ _ _ _ _ boxed⟩

end Build

/-! ## The history of a builder -/

/-- How a call changes the items added so far. -/
def addedBy (items : List ItemContent) :
    BundleBuilder.Call × Calling (Option Data) → List ItemContent
  | (.add item, _) => items ++ [item]
  | (_, _) => items

def added (past : List (BundleBuilder.Call × Calling (Option Data))) : List ItemContent :=
  past.foldl addedBy []

/-- The builder as it was made, with these items. -/
def Holding (first : BundleBuilder) (items : List ItemContent)
    (state : BundleBuilder × Nat) : Prop :=
  state.1 = { first with items := items }

/-- A builder holds what was added, under the parameters it was made with. -/
theorem builder_holding {platform : Platform} {first : BundleBuilder} {draws : Nat}
    {state : BundleBuilder × Nat} {past : List (BundleBuilder.Call × Calling (Option Data))}
    (fresh : first.items = [])
    (history : History (BundleBuilder.step platform) Survives (first, draws) past state) :
    Holding first (added past) state := by
  have initial : Holding first [] (first, draws) := by
    rw [Holding, ← fresh]
  refine history.follows initial ?_
  rintro items ⟨_, count⟩ call result next rfl moved -
  cases call <;> cases moved <;> rfl

theorem history_of_adds (platform : Platform) (builder : BundleBuilder) (draws : Nat)
    (items : List ItemContent) :
    History (BundleBuilder.step platform) Survives (builder, draws)
      (items.map fun item => (.add item, pure none))
      (items.foldl BundleBuilder.add builder, draws) := by
  induction items using List.reverseRecOn with
  | nil => exact .opened
  | append_singleton items item ih =>
      rw [List.map_append, List.foldl_append]
      exact .called ih rfl fun _ trapped => nomatch trapped

/-- The unlock call for the key or the passphrase that a build was made under. -/
def unlockFor : BundleBuilder.Call → Option BundleParser.Call
  | .add _ => none
  | .buildPassphrase passphrase => some (.unlockPassphrase passphrase)
  | .buildMasterKey masterKey _ _ => some (.unlockMasterKey masterKey)

/-- A build under a passphrase is a build under the key derived from its own salt. -/
theorem buildPassphrase_returned {platform : Platform} {builder : BundleBuilder}
    {passphrase : String} {draw : Nat} {bundle : Data}
    (returned : (buildPassphrase platform builder passphrase draw).1.outcome = .ok bundle) :
    ∃ masterKey salt manifestNonce later,
      (Argon2id.deriveKey platform.argon2 passphrase salt builder.parameters).outcome =
        .ok masterKey ∧
      (buildBundle platform builder masterKey salt manifestNonce later).1.outcome =
        .ok bundle := by
  have run : buildPassphrase platform builder passphrase draw = (⟨.ok bundle, _⟩, _) :=
    Prod.ext (Traced.eq_of_outcome returned) rfl
  obtain ⟨salt, _, _, _, -, afterSalt, -⟩ := Proc.bind_returns_iff.mp run
  obtain ⟨manifestNonce, _, _, later, -, afterNonce, -⟩ :=
    Proc.bind_returns_iff.mp afterSalt
  obtain ⟨masterKey, _, _, _, derived, built, -⟩ := Proc.bind_returns_iff.mp afterNonce
  rw [Proc.lift_traced_run, Prod.mk.injEq] at derived
  obtain ⟨derived, rfl⟩ := derived
  exact ⟨masterKey, salt, manifestNonce, later, congrArg Traced.outcome derived,
    congrArg (fun result => result.1.outcome) built⟩

/-- A build by either call is a build under a key that its unlock call gets again. -/
theorem built_of_step {platform : Platform} {builder : BundleBuilder} {draw : Nat}
    {call : BundleBuilder.Call} {bundle : Data}
    (returned : (BundleBuilder.step platform (builder, draw) call).1.outcome =
      .ok (some bundle)) :
    ∃ masterKey salt manifestNonce later unlock,
      (buildBundle platform builder masterKey salt manifestNonce later).1.outcome =
        .ok bundle ∧
      unlockFor call = some unlock ∧
      ∀ header : BundleHeader, header.parameters = builder.parameters → header.salt = salt →
        ∃ source, unlock.source platform header = some source ∧
          source.outcome = .ok masterKey := by
  cases call with
  | add item => cases returned
  | buildPassphrase passphrase =>
      obtain ⟨built, outcome, same⟩ := Traced.bind_outcome_ok_iff.mp returned
      cases same
      obtain ⟨masterKey, salt, manifestNonce, later, derived, run⟩ :=
        buildPassphrase_returned outcome
      refine ⟨masterKey, salt, manifestNonce, later, _, run, rfl, ?_⟩
      intro header parameters sameSalt
      refine ⟨_, rfl, ?_⟩
      rw [passphraseKey, header.parameters_init, Traced.liftM_def, Traced.bind_silent,
        parameters, sameSalt, derived]
  | buildMasterKey masterKey salt manifestNonce =>
      obtain ⟨built, outcome, same⟩ := Traced.bind_outcome_ok_iff.mp returned
      cases same
      exact ⟨masterKey, salt, manifestNonce, draw, _, outcome, rfl,
        fun header _ _ => ⟨_, rfl, rfl⟩⟩

/-- A descriptor read back for an item: dates are cut to the whole second. -/
structure Restores (item : ItemContent) (descriptor : ItemDescriptor) : Prop where
  id : descriptor.id = item.id
  name : descriptor.name = item.name
  mimeType : descriptor.mimeType = item.mimeType
  sizeBytes : descriptor.sizeBytes.toNat = item.plaintext.bytes.length
  createdAt : descriptor.createdAt = item.createdAt.wholeSecond
  modifiedAt : descriptor.modifiedAt = item.modifiedAt.wholeSecond
  ttlSeconds : descriptor.ttlSeconds = item.ttlSeconds
  ttlOriginEpoch : descriptor.ttlOriginEpoch = item.ttlOriginEpoch.map Date.wholeSecond

theorem restores_descriptor (item : ItemContent) (nonce : Bytes) :
    Restores item (descriptor item nonce).wholeSeconds := by
  have bound := item.plaintext.length_lt
  refine ⟨rfl, rfl, rfl, ?_, rfl, rfl, rfl, rfl⟩
  change (UInt64.ofNat item.plaintext.bytes.length).toNat = _
  rw [UInt64.toNat_ofNat', Nat.mod_eq_of_lt (by omega)]

/-- The manifest read back lists the items added, in order. -/
theorem restores_restored (random : SystemRandom) (builder : BundleBuilder) (draw : Nat) :
    List.Forall₂ Restores builder.items (restored random builder draw).items := by
  rw [restored, stagedManifest, Manifest.wholeSeconds, Manifest.init]
  generalize builder.items = items
  induction items generalizing draw with
  | nil => exact .nil
  | cons item rest ih => exact .cons (restores_descriptor item _) (ih (draw + 1))

theorem parameters_of_headed {builder : BundleBuilder} {salt manifestNonce : Bytes}
    {size : Nat} {header : BundleHeader} (headed : Headed builder salt manifestNonce size header) :
    header.parameters = builder.parameters := by
  obtain ⟨timeCost, memoryKiB, parallelism, -, -, -⟩ := headed
  rw [BundleHeader.parameters]
  simp only [timeCost, memoryKiB, parallelism]

/--
Whatever was added and built before, a bundle that a build returns over items
with distinct ids is read back in full: the same passphrase or key unlocks it,
the manifest lists the items added so far in order, and every item decrypts to
its plaintext, however often and in whatever order.
-/
theorem round_trip (platform : Platform) (laws : ReadLaws platform)
    (parameters : Argon2idParameters) (exportLabel : Option String) (exportedAt : Date)
    (draws draw : Nat) (builder : BundleBuilder)
    (past : List (BundleBuilder.Call × Calling (Option Data)))
    (history : History (BundleBuilder.step platform) Survives
      (BundleBuilder.init parameters exportLabel exportedAt, draws) past (builder, draw))
    (call : BundleBuilder.Call) (bundle : Data)
    (returned : (BundleBuilder.step platform (builder, draw) call).1.outcome =
      .ok (some bundle))
    (distinct : ((added past).map ItemContent.id).Nodup) :
    ∃ start unlock manifest unlocked events,
      BundleParser.init bundle = .ok start ∧
      start.header.parameters = parameters ∧
      unlockFor call = some unlock ∧
      BundleParser.step platform start unlock = (⟨.ok (.manifest manifest), events⟩, unlocked) ∧
      List.Forall₂ Restores (added past) manifest.items ∧
      ∀ later parser,
        History (BundleParser.step platform) Survives unlocked later parser →
        (∀ made ∈ later, ∃ item, made.1 = .decrypt item) →
        ∀ k, ∀ inside : k < (added past).length, ∀ listed : k < manifest.items.length,
          (decrypt platform manifest.items[k] parser).1.outcome =
            .ok (added past)[k].plaintext.bytes := by
  cases builder_holding rfl history
  obtain ⟨masterKey, salt, manifestNonce, later, unlock, build, unlocks, sourced⟩ :=
    built_of_step returned
  obtain ⟨built⟩ := returned_of_build platform platform.random (Traced.eq_of_outcome build)
  have headed := built.parts.headed
  have begun := built.starts_itself laws
  obtain ⟨source, brings, got⟩ := sourced _ (parameters_of_headed headed) headed.salt
  have opened := (built.opened_itself_iff laws).mpr ⟨rfl, distinct⟩
  have restores := restores_restored platform.random
    ⟨added past, parameters, exportLabel, exportedAt⟩ later
  obtain ⟨events, step⟩ := step_of_opened begun.accepted brings got opened
  refine ⟨_, unlock, _, _, events, begun.init_eq, parameters_of_headed headed, unlocks,
    step, restores, ?_⟩
  intro calls parser decrypting decrypts k inside listed
  exact built.decrypts laws distinct inside (id_restored inside listed)
    (history_of_decrypts decrypting decrypts)

/-- Two notes exported under a passphrase are read back under it. -/
theorem two_notes_round_trip :
    ∃ bundle start manifest unlocked events,
      (buildPassphrase (Sample.platform 2) (Sample.builder 2) "secret" 0).1.outcome =
        .ok bundle ∧
      BundleParser.init bundle = .ok start ∧
      BundleParser.step (Sample.platform 2) start (.unlockPassphrase "secret") =
        (⟨.ok (.manifest manifest), events⟩, unlocked) ∧
      List.Forall₂ Restores (Sample.builder 2).items manifest.items := by
  have exports : (buildPassphrase (Sample.platform 2) (Sample.builder 2) "secret"
      0).1.outcome.toOption.isSome := by decide +kernel
  obtain ⟨bundle, returned⟩ := Sample.returns_of_isSome exports
  have history := history_of_adds (Sample.platform 2)
    (BundleBuilder.init Argon2idParameters.recommendedDefault none Sample.epoch) 0
    [Sample.note 1 7 8, Sample.note 2 9 10]
  have stepped : (BundleBuilder.step (Sample.platform 2) (Sample.builder 2, 0)
      (.buildPassphrase "secret")).1.outcome = .ok (some bundle) :=
    Traced.bind_outcome_ok_iff.mpr ⟨bundle, returned, rfl⟩
  obtain ⟨start, unlock, manifest, unlocked, events, made, -, unlocks, moved, lists, -⟩ :=
    round_trip (Sample.platform 2)
      ⟨Sample.openSealLaw, Sample.sealLengthLaw, Sample.sealedBoxLaw, Sample.roundTripLaw _ _⟩
      Argon2idParameters.recommendedDefault none Sample.epoch 0 0 (Sample.builder 2) _ history
      (.buildPassphrase "secret") bundle stepped (by decide)
  cases unlocks
  exact ⟨bundle, start, manifest, unlocked, events, returned, made, moved, lists⟩

/-! ## Builder and parser on the same bundle -/

theorem items_foldl_add (builder : BundleBuilder) (items : List ItemContent) :
    items.foldl BundleBuilder.add builder =
      { builder with items := builder.items ++ items } := by
  induction items generalizing builder with
  | nil => rw [List.foldl_nil, List.append_nil]
  | cons item rest ih => rw [List.foldl_cons, ih, BundleBuilder.add, List.append_assoc]; rfl

/--
Whatever items were added, a bundle that the builder returns is accepted by the
parser under the same master key exactly when the ids are pairwise distinct.
-/
theorem importable_iff_distinct (platform : Platform) (laws : ReadLaws platform)
    (parameters : Argon2idParameters) (exportLabel : Option String) (exportedAt : Date)
    (items : List ItemContent) (masterKey : SymmetricKey) (salt manifestNonce : Bytes)
    (draw : Nat) (bundle : Data)
    (returned : (buildBundle platform
      (items.foldl BundleBuilder.add (BundleBuilder.init parameters exportLabel exportedAt))
      masterKey salt manifestNonce draw).1.outcome = .ok bundle) :
    (∃ start manifest, BundleParser.init bundle = .ok start ∧
      (unlockMasterKey platform masterKey start).1.outcome = .ok manifest) ↔
      (items.map ItemContent.id).Nodup := by
  rw [items_foldl_add] at returned
  obtain ⟨built⟩ := returned_of_build platform platform.random (Traced.eq_of_outcome returned)
  have begun := built.starts_itself laws
  constructor
  · rintro ⟨start, manifest, made, unlocked⟩
    cases begun.init_eq.symm.trans made
    rw [unlockMasterKey_ok_iff begun.accepted, built.opened_itself_iff laws] at unlocked
    exact unlocked.2
  · intro distinct
    have opened := (built.opened_itself_iff laws).mpr ⟨rfl, distinct⟩
    exact ⟨_, _, begun.init_eq, (unlockMasterKey_ok_iff begun.accepted).mpr opened⟩

/-- The bundle of two notes with one identifier. -/
theorem same_id_isSome : (Sample.build 1).outcome.toOption.isSome := by decide +kernel

theorem same_id_init_isSome : (BundleParser.init
    ((Sample.build 1).outcome.toOption.get same_id_isSome)).toOption.isSome := by
  decide +kernel

/-- Two notes with one identifier are exported, and the export cannot be imported. -/
theorem same_id_not_importable :
    ∃ bundle start,
      (buildBundle (Sample.platform 1)
        ([Sample.note 1 7 8, Sample.note 1 9 10].foldl BundleBuilder.add
          (BundleBuilder.init Argon2idParameters.recommendedDefault none Sample.epoch))
        Sample.masterKey Sample.salt Sample.manifestNonce 2).1.outcome = .ok bundle ∧
      BundleParser.init bundle = .ok start ∧
      (unlockMasterKey (Sample.platform 1) Sample.masterKey start).1.outcome =
        throwBundle (.manifestParseFailed
          "duplicate item id 00000000-0000-0000-0000-000000000001 in manifest") := by
  exact ⟨_, _, Sample.eq_ok_of_isSome same_id_isSome,
    Sample.eq_ok_of_isSome same_id_init_isSome, by decide +kernel⟩

/-- Two notes with two identifiers can be imported. -/
theorem two_ids_importable :
    ∃ bundle start manifest,
      (buildBundle (Sample.platform 2)
        ([Sample.note 1 7 8, Sample.note 2 9 10].foldl BundleBuilder.add
          (BundleBuilder.init Argon2idParameters.recommendedDefault none Sample.epoch))
        Sample.masterKey Sample.salt Sample.manifestNonce 2).1.outcome = .ok bundle ∧
      BundleParser.init bundle = .ok start ∧
      (unlockMasterKey (Sample.platform 2) Sample.masterKey start).1.outcome = .ok manifest := by
  obtain ⟨bundle, returned⟩ := Sample.returns_of_isSome Sample.build_isSome
  obtain ⟨start, manifest, made, unlocked⟩ := (importable_iff_distinct (Sample.platform 2)
    ⟨Sample.openSealLaw, Sample.sealLengthLaw, Sample.sealedBoxLaw, Sample.roundTripLaw _ _⟩
    Argon2idParameters.recommendedDefault none Sample.epoch
    [Sample.note 1 7 8, Sample.note 2 9 10] Sample.masterKey Sample.salt
    Sample.manifestNonce 2 bundle returned).mpr (by decide)
  exact ⟨bundle, start, manifest, returned, made, unlocked⟩

end UltraLocked.Format
