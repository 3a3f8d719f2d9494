import UltraLocked.Format.CallLimits
import UltraLocked.Format.Reopening
import UltraLocked.Format.SamplePlatform

/-!
# Tamper evidence

A family of bundles built under one master key, and any file whatever. When
nothing opens but what these builds sealed, the file opens only as one of the
bundles, and each item decrypts only from its own unchanged record.
-/

namespace UltraLocked.Format

open Library BundleBuilder BundleParser

/-- A build under a master key: its inputs, what it returned and the calls it made. -/
structure Build (platform : Platform) (masterKey : SymmetricKey) where
  random : SystemRandom
  builder : BundleBuilder
  salt : Bytes
  manifestNonce : Bytes
  draw : Nat
  bundle : Data
  events : List ForeignCall
  run : (buildBundle { platform with random := random } builder masterKey salt
    manifestNonce draw).1 = ⟨.ok bundle, events⟩

/-- The sealed boxes of a family of builds open to what was sealed; no other box opens. -/
structure Idealised {platform : Platform} {masterKey : SymmetricKey}
    (builds : List (Build platform masterKey)) : Prop where
  opens : ∀ build ∈ builds, ∀ key nonce plaintext aad ciphertext tag,
    .sealGCM key nonce plaintext aad ciphertext tag ∈ build.events →
    platform.kit.openBox key nonce ciphertext tag aad = .ok plaintext
  unforgeable : ∀ key nonce ciphertext tag aad plaintext,
    platform.kit.openBox key nonce ciphertext tag aad = .ok plaintext →
    ∃ build ∈ builds, ∃ original,
      .sealGCM key nonce original aad ciphertext tag ∈ build.events
  length : platform.kit.SealLengthLaw
  box : platform.kit.SealedBoxLaw
  json : platform.json.RoundTripLaw

namespace Build

variable {platform : Platform} {masterKey : SymmetricKey} (build : Build platform masterKey)

def headerBytes : Bytes := build.bundle.bytes.take 96

/-- Where the encrypted manifest of the bundle ends. -/
def sectionEnd : Nat := 96 + field build.bundle 48 4

/-- The manifest of the bundle, as it is read back. -/
def manifest : Manifest := restored build.random build.builder build.draw

/-- The bytes of a file where the record of an item of the bundle belongs. -/
def slot (data : Data) (k size : Nat) : Bytes :=
  (data.bytes.drop (build.sectionEnd + Windows.start (recordSizes build.builder.items) k)).take
    size

/-- A file that starts with the header and manifest of the bundle and can hold its records. -/
structure Covers (file : Data) : Prop where
  distinct : (build.builder.items.map ItemContent.id).Nodup
  long : build.bundle.bytes.length ≤ file.bytes.length
  same : file.bytes.take build.sectionEnd = build.bundle.bytes.take build.sectionEnd

abbrev Taken : Type :=
  Returned platform build.random build.builder masterKey build.salt build.manifestNonce
    build.draw build.bundle build.events

theorem taken : Nonempty build.Taken := returned_of_build platform build.random build.run

section Parts

variable {build} (taken : build.Taken)

include taken

theorem headerBytes_eq : build.headerBytes = taken.parts.header.encoded := by
  obtain ⟨tail, whole⟩ := taken.begins
  rw [headerBytes, ← whole, List.append_assoc]
  exact List.take_left' taken.parts.header.length_encoded

theorem sectionEnd_eq : build.sectionEnd = 96 + taken.parts.header.manifestSize.toNat := by
  rw [sectionEnd, field_manifestSize ((List.prefix_append _ _).trans taken.begins)]

theorem take_sectionEnd : build.bundle.bytes.take build.sectionEnd =
    taken.parts.header.encoded ++ joined taken.parts.box := by
  obtain ⟨tail, whole⟩ := taken.begins
  rw [← whole, sectionEnd_eq taken]
  exact List.take_left' taken.parts.length_front

theorem slot_eq (data : Data) (k size : Nat) :
    build.slot data k size = window data taken.parts.header build.builder.items k size := by
  rw [slot, window, windowStart, sectionEnd_eq taken]

end Parts

end Build

/-! ## Where a sealed box comes from -/

section Origins

variable {platform : Platform} {masterKey : SymmetricKey}
  {builds : List (Build platform masterKey)} {build : Build platform masterKey}

/-- A box of a build is its manifest or the record of one of its items. -/
theorem box_of_logged (taken : build.Taken) {key : SymmetricKey}
    {nonce plaintext aad ciphertext tag : Bytes}
    (logged : .sealGCM key nonce plaintext aad ciphertext tag ∈ build.events) :
    (nonce = build.manifestNonce ∧ aad = taken.parts.header.encoded ∧
      (ciphertext, tag) = taken.parts.box) ∨
    ∃ k, ∃ inside : k < build.builder.items.length,
      aad = taken.parts.header.encoded ++ build.builder.items[k].id.rawBytes ∧
        taken.parts.boxes[k]? = some (ciphertext, tag) := by
  rw [taken.mem_events_iff, Parts.events] at logged
  rcases List.mem_append.mp logged with first | records
  · rw [List.mem_cons, List.mem_singleton] at first
    rcases first with other | same
    · cases other
    · cases same
      exact .inl ⟨rfl, rfl, rfl⟩
  · exact .inr (taken.parts.encrypted.logged records)

/-- A box of a build whose AAD is a header alone is the build's manifest. -/
theorem manifest_of_logged (taken : build.Taken) {key : SymmetricKey}
    {nonce plaintext aad ciphertext tag : Bytes}
    (logged : .sealGCM key nonce plaintext aad ciphertext tag ∈ build.events)
    (short : aad.length = 96) :
    nonce = build.manifestNonce ∧ aad = taken.parts.header.encoded ∧
      (ciphertext, tag) = taken.parts.box := by
  rcases box_of_logged taken logged with manifest | ⟨k, inside, same, -⟩
  · exact manifest
  · rw [same, List.length_append, BundleHeader.length_encoded, UUID.length_rawBytes] at short
    cases short

/-- A box of a build whose AAD is a header and an id is the record of an item with that id. -/
theorem item_of_logged (taken : build.Taken) {key : SymmetricKey}
    {nonce plaintext front ciphertext tag : Bytes} {id : UUID}
    (logged : .sealGCM key nonce plaintext (front ++ id.rawBytes) ciphertext tag ∈
      build.events) (whole : front.length = 96) :
    front = taken.parts.header.encoded ∧
    ∃ k, ∃ inside : k < build.builder.items.length,
      id = build.builder.items[k].id ∧ taken.parts.boxes[k]? = some (ciphertext, tag) := by
  rcases box_of_logged taken logged with ⟨-, same, -⟩ | ⟨k, inside, same, found⟩
  · have lengths := congrArg List.length same
    rw [List.length_append, whole, BundleHeader.length_encoded, UUID.length_rawBytes] at lengths
    cases lengths
  · obtain ⟨header, raw⟩ := List.append_inj same
      (by rw [whole, BundleHeader.length_encoded])
    exact ⟨header, k, inside, UUID.rawBytes_injective raw, found⟩

/-- Headers tell the builds apart. -/
theorem build_of_header (different : (builds.map Build.headerBytes).Nodup)
    {other : Build platform masterKey} (member : build ∈ builds) (listed : other ∈ builds)
    (taken : build.Taken) (others : other.Taken)
    (same : taken.parts.header.encoded = others.parts.header.encoded) : build = other := by
  refine List.inj_on_of_nodup_map different member listed ?_
  rw [Build.headerBytes_eq taken, Build.headerBytes_eq others, same]

end Origins

/-! ## Files that open -/

section Files

variable {platform : Platform} {masterKey : SymmetricKey}
  {builds : List (Build platform masterKey)} (ideal : Idealised builds)
  {build : Build platform masterKey} (member : build ∈ builds) (taken : build.Taken)
  {file : Data}

theorem Build.Covers.starts (covers : build.Covers file)
    (small : file.bytes.length ≤ 2147483648) (lengths : platform.kit.SealLengthLaw) :
    Starts file taken.parts.header taken.parts.box := by
  refine taken.starts lengths small ⟨file.bytes.drop build.sectionEnd, ?_⟩
  rw [← Build.take_sectionEnd taken, ← covers.same, List.take_append_drop]

include ideal member in
/-- A file that starts like a bundle opens as its manifest, if it is long enough. -/
theorem opened_of_starts_iff (starts : Starts file taken.parts.header taken.parts.box)
    {manifest : Manifest} :
    Opened platform (startOf file taken.parts.header).toBundleFile masterKey manifest ↔
      manifest = build.manifest ∧ (build.builder.items.map ItemContent.id).Nodup ∧
      build.bundle.bytes.length ≤ file.bytes.length := by
  refine taken.opened_iff ideal.box ideal.json (ideal.opens build member _ _ _ _ _ _ ?_) starts
  rw [taken.mem_events_iff, Parts.events]
  exact List.mem_append_left _ (List.mem_cons_of_mem _ List.mem_cons_self)

include ideal in
/-- A file that opens under the key starts like one of the bundles. -/
theorem starts_of_opened {start : BundleParser} (initial : init file = .ok start)
    {manifest : Manifest} (opened : Opened platform start.toBundleFile masterKey manifest) :
    ∃ build ∈ builds, ∃ taken : build.Taken,
      Starts file taken.parts.header taken.parts.box := by
  obtain ⟨⟨sameData, -, -, -⟩, accepted⟩ := init_eq_ok_iff.mp initial
  have small := accepted.small
  have begins := section_isPrefix accepted
  rw [sameData, Data.copy_bytes] at small begins
  obtain ⟨-, -, plaintext, boxed, -, -⟩ := Manifest.decrypt_ok_iff.mp opened.decrypted
  rw [accepted.headerBytes] at boxed
  obtain ⟨build, member, original, logged⟩ := ideal.unforgeable _ _ _ _ _ _ boxed
  obtain ⟨taken⟩ := build.taken
  obtain ⟨-, header, box⟩ := manifest_of_logged taken logged start.header.length_encoded
  refine ⟨build, member, taken, taken.starts ideal.length small ?_⟩
  rw [← header, ← box]
  exact begins

/-! ## Records that decrypt -/

include ideal member in
/-- What opens as an item of a bundle is the record the build made of that item. -/
theorem recorded_of_opens (different : (builds.map Build.headerBytes).Nodup)
    (distinct : (build.builder.items.map ItemContent.id).Nodup) {k : Nat}
    (inside : k < build.builder.items.length) {key : SymmetricKey}
    {nonce ciphertext tag plaintext : Bytes}
    (opens : platform.kit.openBox key nonce ciphertext tag
      (taken.parts.header.encoded ++ build.builder.items[k].id.rawBytes) = .ok plaintext) :
    taken.parts.boxes[k]? = some (ciphertext, tag) := by
  obtain ⟨other, listed, original, source⟩ := ideal.unforgeable _ _ _ _ _ _ opens
  obtain ⟨others⟩ := other.taken
  obtain ⟨header, -⟩ := item_of_logged others source taken.parts.header.length_encoded
  cases build_of_header different member listed taken others header
  obtain ⟨-, i, within, id, record⟩ :=
    item_of_logged taken source taken.parts.header.length_encoded
  cases position_of_map distinct inside within id
  exact record

include ideal member taken in
/-- A window opens exactly when it is the record of its item. -/
theorem openGCM_window (different : (builds.map Build.headerBytes).Nodup)
    (distinct : (build.builder.items.map ItemContent.id).Nodup) {k : Nat}
    (inside : k < build.builder.items.length) {bytes : Bytes}
    (length : bytes.length = build.builder.items[k].plaintext.bytes.length + 16) :
    (Crypto.openGCM platform.kit
        (Crypto.itemKey platform.kit masterKey build.builder.items[k].id)
        (drawn build.random 12 (build.draw + k))
        (bytes.take build.builder.items[k].plaintext.bytes.length)
        (bytes.drop build.builder.items[k].plaintext.bytes.length)
        (taken.parts.header.encoded ++ build.builder.items[k].id.rawBytes)).outcome =
      if bytes = window build.bundle taken.parts.header build.builder.items k
          (build.builder.items[k].plaintext.bytes.length + 16)
        then .ok build.builder.items[k].plaintext.bytes
        else throwBundle .decryptionFailed := by
  have counted : k < (staged build.random build.draw build.builder.items).length := by
    rw [length_staged]
    exact inside
  obtain ⟨box, found, accepted, boxed, logged⟩ :=
    taken.parts.encrypted.getElem inside counted
  obtain ⟨ciphertext, tag⟩ := ideal.length _ _ _ _ _ _ boxed
  rw [getElem_staged inside, itemNonce_descriptor] at accepted logged
  have tagLength : (bytes.drop build.builder.items[k].plaintext.bytes.length).length = 16 := by
    rw [List.length_drop]
    omega
  rw [window_eq taken.parts taken.content inside found]
  split
  · rename_i same
    rw [same, joined, List.take_left' ciphertext, List.drop_left' ciphertext,
      Crypto.openGCM_ok_iff]
    refine ⟨accepted, ideal.box _ _ _ tag, ideal.opens build member _ _ _ _ _ _ ?_⟩
    rw [taken.mem_events_iff, Parts.events]
    exact List.mem_append_right _ logged
  · rename_i changed
    rw [throwBundle, Crypto.openGCM_error_iff accepted (ideal.box _ _ _ tagLength)]
    refine ⟨rfl, ?_⟩
    cases opens : platform.kit.openBox
      (Crypto.itemKey platform.kit masterKey build.builder.items[k].id)
      (drawn build.random 12 (build.draw + k))
      (bytes.take build.builder.items[k].plaintext.bytes.length)
      (bytes.drop build.builder.items[k].plaintext.bytes.length)
      (taken.parts.header.encoded ++ build.builder.items[k].id.rawBytes) with
    | error error => exact ⟨error, rfl⟩
    | ok plaintext =>
        have record := recorded_of_opens ideal member taken different distinct inside opens
        cases found.symm.trans record
        exact absurd (List.take_append_drop _ bytes).symm changed

end Files

/--
A file opens under the master key exactly when it is within the limit, starts
with the header and manifest section of a bundle with distinct ids and is at
least as long; the manifest is then that bundle's, and each of its items
decrypts to its plaintext if its record is unchanged and fails otherwise.
-/
theorem tamper_evidence (platform : Platform) (masterKey : SymmetricKey)
    (builds : List (Build platform masterKey))
    (different : (builds.map Build.headerBytes).Nodup) (ideal : Idealised builds)
    (file : Data) :
    ((∃ start manifest, init file = .ok start ∧
        (unlockMasterKey platform masterKey start).1.outcome = .ok manifest) ↔
      file.bytes.length ≤ 2147483648 ∧ ∃ build ∈ builds, build.Covers file) ∧
    ∀ build ∈ builds, build.Covers file → ∀ start manifest, init file = .ok start →
      (unlockMasterKey platform masterKey start).1.outcome = .ok manifest →
      manifest = build.manifest ∧
      ∀ k, ∀ inside : k < build.builder.items.length, ∀ listed : k < manifest.items.length,
        (decrypt platform manifest.items[k]
            (unlockMasterKey platform masterKey start).2).1.outcome =
          if build.slot file k (build.builder.items[k].plaintext.bytes.length + 16) =
              build.slot build.bundle k (build.builder.items[k].plaintext.bytes.length + 16)
            then .ok build.builder.items[k].plaintext.bytes
            else throwBundle .decryptionFailed := by
  refine ⟨⟨?_, ?_⟩, ?_⟩
  · rintro ⟨start, manifest, initial, unlocked⟩
    obtain ⟨-, accepted⟩ := init_eq_ok_iff.mp initial
    obtain ⟨build, member, taken, starts⟩ := starts_of_opened ideal initial
      ((unlockMasterKey_ok_iff accepted).mp unlocked)
    cases starts.init_eq.symm.trans initial
    rw [unlockMasterKey_ok_iff accepted, opened_of_starts_iff ideal member taken starts]
      at unlocked
    obtain ⟨-, distinct, long⟩ := unlocked
    refine ⟨starts.small, build, member, distinct, long, ?_⟩
    rw [Build.take_sectionEnd taken, Build.sectionEnd_eq taken]
    exact starts.take_section
  · rintro ⟨small, build, member, covers⟩
    obtain ⟨taken⟩ := build.taken
    have starts := covers.starts taken small ideal.length
    refine ⟨_, build.manifest, starts.init_eq, ?_⟩
    rw [unlockMasterKey_ok_iff starts.accepted, opened_of_starts_iff ideal member taken starts]
    exact ⟨rfl, covers.distinct, covers.long⟩
  · intro build member covers start manifest initial unlocked
    obtain ⟨taken⟩ := build.taken
    obtain ⟨⟨sameData, -, -, -⟩, accepted⟩ := init_eq_ok_iff.mp initial
    have small := accepted.small
    rw [sameData, Data.copy_bytes] at small
    have starts := covers.starts taken small ideal.length
    cases starts.init_eq.symm.trans initial
    have state := unlockMasterKey_state unlocked
    rw [unlockMasterKey_ok_iff accepted] at unlocked
    obtain ⟨rfl, distinct, -⟩ := (opened_of_starts_iff ideal member taken starts).mp unlocked
    refine ⟨rfl, fun k inside listed => ?_⟩
    refine (decrypt_restored starts unlocked inside (id_restored inside listed) state).trans ?_
    rw [openGCM_window ideal member taken different distinct inside
        (length_window unlocked inside),
      Build.slot_eq taken, Build.slot_eq taken]

namespace Sample

/-- A build of the two notes that returns, as a member of a family. -/
def member (nonce : Bytes) (returned : (buildBundle registering (builder 2) masterKey salt nonce
    2).1.outcome.toOption.isSome) : Build registering masterKey where
  random := random
  builder := builder 2
  salt := salt
  manifestNonce := nonce
  draw := 2
  bundle := (buildBundle registering (builder 2) masterKey salt nonce
    2).1.outcome.toOption.get returned
  events := (buildBundle registering (builder 2) masterKey salt nonce 2).1.events
  run := Traced.eq_of_outcome (eq_ok_of_isSome returned)

def firstMember : Build registering masterKey := member manifestNonce (by decide +kernel)

def secondMember : Build registering masterKey :=
  member (List.replicate 12 7) (by decide +kernel)

theorem register_eq : register = firstMember.events ++ secondMember.events := by
  decide +kernel

theorem idealised : Idealised [firstMember, secondMember] where
  opens := by
    intro build listed key nonce plaintext aad ciphertext tag logged
    refine registering_opens ?_
    rw [register_eq]
    rcases List.mem_cons.mp listed with rfl | later
    · exact List.mem_append_left _ logged
    · cases List.mem_singleton.mp later
      exact List.mem_append_right _ logged
  unforgeable := by
    intro key nonce ciphertext tag aad plaintext opened
    have listed := listed_of_registering_opens opened
    rw [register_eq] at listed
    rcases List.mem_append.mp listed with first | second
    · exact ⟨firstMember, List.mem_cons_self, ciphertext, first⟩
    · exact ⟨secondMember, List.mem_cons_of_mem _ List.mem_cons_self, ciphertext, second⟩
  length := registering_sealLengthLaw
  box := registering_sealedBoxLaw
  json := registering_roundTripLaw

/-- The first bundle with its last byte changed, which is in the record of the second note. -/
def tampered : Data :=
  Data.ofBytes (firstMember.bundle.bytes.dropLast ++ [255]) (by decide +kernel)

theorem tampered_covered : firstMember.Covers tampered :=
  ⟨by decide, by decide +kernel, by decide +kernel⟩

end Sample

/-- A bundle of two notes with a changed byte in a record still opens, record by record. -/
theorem tampered_note_detected :
    ∃ start, init Sample.tampered = .ok start ∧
      (unlockMasterKey Sample.registering Sample.masterKey start).1.outcome =
        .ok Sample.firstMember.manifest := by
  have different : ([Sample.firstMember, Sample.secondMember].map Build.headerBytes).Nodup := by
    decide +kernel
  obtain ⟨opens, reads⟩ := tamper_evidence Sample.registering Sample.masterKey _ different
    Sample.idealised Sample.tampered
  obtain ⟨start, manifest, made, unlocked⟩ := opens.mpr
    ⟨by decide +kernel, Sample.firstMember, List.mem_cons_self, Sample.tampered_covered⟩
  obtain ⟨rfl, -⟩ := reads _ List.mem_cons_self Sample.tampered_covered start manifest made
    unlocked
  exact ⟨start, made, unlocked⟩

end UltraLocked.Format
