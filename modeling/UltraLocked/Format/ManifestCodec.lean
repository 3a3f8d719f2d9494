import UltraLocked.Format.SamplePlatform

/-!
# The manifest codec

What encoding a manifest and decoding the text do to it: ids must be distinct,
dates lose what is below the second, nothing else changes, and a second pass
changes nothing at all.
-/

namespace UltraLocked.Format

/-- The text depends on the dates only through the whole seconds they fall in. -/
def JSONCoding.WholeSecondLaw (json : JSONCoding Manifest) : Prop :=
  ∀ manifest other : Manifest, manifest.wholeSeconds = other.wholeSeconds →
    json.encode manifest = json.encode other

/-! ## Cutting dates twice -/

theorem Date.wholeSecond_wholeSecond (date : Date) :
    date.wholeSecond.wholeSecond = date.wholeSecond := by
  rw [Date.wholeSecond, Date.wholeSecond, Rat.floor_intCast]

theorem ItemDescriptor.wholeSeconds_wholeSeconds (item : ItemDescriptor) :
    item.wholeSeconds.wholeSeconds = item.wholeSeconds := by
  have origin : (item.ttlOriginEpoch.map Date.wholeSecond).map Date.wholeSecond =
      item.ttlOriginEpoch.map Date.wholeSecond := by
    cases item.ttlOriginEpoch with
    | none => rfl
    | some date => exact congrArg some date.wholeSecond_wholeSecond
  simp only [ItemDescriptor.wholeSeconds, Date.wholeSecond_wholeSecond, origin]

theorem Manifest.wholeSeconds_wholeSeconds (manifest : Manifest) :
    manifest.wholeSeconds.wholeSeconds = manifest.wholeSeconds := by
  have items : (manifest.items.map ItemDescriptor.wholeSeconds).map
      ItemDescriptor.wholeSeconds = manifest.items.map ItemDescriptor.wholeSeconds := by
    rw [List.map_map]
    exact List.map_congr_left fun item _ => item.wholeSeconds_wholeSeconds
  simp only [Manifest.wholeSeconds, Date.wholeSecond_wholeSecond, items]

/-! ## What the checks accept -/

/-- The validating initialiser on the fields of a descriptor. -/
def ItemDescriptor.rebuilt (item : ItemDescriptor) : Throwing ItemDescriptor :=
  ItemDescriptor.init item.id item.name item.mimeType item.sizeBytes item.createdAt
    item.modifiedAt item.ttlSeconds item.ttlOriginEpoch item.itemNonce item.itemSize

/-- The check after decoding accepts what the initialiser accepts. -/
theorem ItemDescriptor.rebuilt_iff {item : ItemDescriptor} :
    item.rebuilt = .ok item ↔ item.Valid := by
  rw [ItemDescriptor.rebuilt, ItemDescriptor.init_eq_ok_iff]
  exact ⟨And.right, fun valid => ⟨rfl, valid⟩⟩

namespace Manifest

/-- The loop over the ids fails only at an id of the list. -/
theorem checkUniqueIDs_eq_error {seen : List UUID} {items : List ItemDescriptor} {stop : Stop}
    (failed : checkUniqueIDs seen items = .error stop) :
    ∃ item ∈ items, stop = .thrown (.bundle (.manifestParseFailed
      s!"duplicate item id {item.id} in manifest")) := by
  induction items generalizing seen with
  | nil => cases failed
  | cons item rest ih =>
      rw [checkUniqueIDs] at failed
      rcases throwing_bind_eq_error_iff.mp failed with now | ⟨_, -, later⟩
      · exact ⟨item, List.mem_cons_self, (guardElse_eq_error_iff.mp now).2⟩
      · obtain ⟨other, member, same⟩ := ih later
        exact ⟨other, List.mem_cons_of_mem _ member, same⟩

/-- A manifest that is valid but for a repeated id is refused for that id. -/
theorem validate_of_repeated {manifest : Manifest} (version : manifest.schemaVersion = 1)
    (items : ∀ item ∈ manifest.items, item.Valid)
    (repeated : ¬ (manifest.items.map ItemDescriptor.id).Nodup) :
    ∃ item ∈ manifest.items, manifest.validate = throwBundle (.manifestParseFailed
      s!"duplicate item id {item.id} in manifest") := by
  have current : manifest.schemaVersion = currentSchemaVersion := version
  rw [validate, guardElse_pos current, throwing_bind_ok, validateItems_eq_ok_iff.mpr items,
    throwing_bind_ok]
  cases checked : checkUniqueIDs [] manifest.items with
  | ok passed => exact absurd (checkUniqueIDs_eq_ok_iff.mp checked).1 repeated
  | error stop =>
      obtain ⟨item, member, rfl⟩ := checkUniqueIDs_eq_error checked
      exact ⟨item, member, rfl⟩

section Pass

variable {json : JSONCoding Manifest} {manifest : Manifest} {text : Data}

/-- A manifest encoded and decoded is the manifest with its dates cut. -/
theorem decodeJSON_encoded_iff (roundTrip : json.RoundTripLaw)
    (encoded : manifest.encodeJSON json = .ok text) {back : Manifest} :
    decodeJSON json text.bytes = .ok back ↔
      back = manifest.wholeSeconds ∧ manifest.wholeSeconds.Valid := by
  have read := roundTrip _ _ (encodeJSON_eq_ok_iff.mp encoded)
  rw [decodeJSON_eq_ok_iff, read, Except.ok.injEq]
  constructor
  · rintro ⟨rfl, valid⟩
    exact ⟨rfl, valid⟩
  · rintro ⟨rfl, valid⟩
    exact ⟨rfl, valid⟩

/-- With a repeated id the text is refused for that id. -/
theorem decodeJSON_of_repeated (roundTrip : json.RoundTripLaw)
    (encoded : manifest.encodeJSON json = .ok text) (version : manifest.schemaVersion = 1)
    (items : ∀ item ∈ manifest.items, item.Valid)
    (repeated : ¬ (manifest.items.map ItemDescriptor.id).Nodup) :
    ∃ item ∈ manifest.items, decodeJSON json text.bytes = throwBundle (.manifestParseFailed
      s!"duplicate item id {item.id} in manifest") := by
  have read := roundTrip _ _ (encodeJSON_eq_ok_iff.mp encoded)
  have valid : ∀ item ∈ manifest.wholeSeconds.items, item.Valid := by
    intro item member
    obtain ⟨original, inside, rfl⟩ := List.mem_map.mp member
    exact (items original inside).wholeSeconds
  have version' : manifest.wholeSeconds.schemaVersion = 1 := version
  have still : ¬ (manifest.wholeSeconds.items.map ItemDescriptor.id).Nodup := by
    rwa [map_id_wholeSeconds]
  obtain ⟨item, member, refused⟩ := validate_of_repeated version' valid still
  obtain ⟨original, inside, rfl⟩ := List.mem_map.mp member
  refine ⟨original, inside, ?_⟩
  rw [decodeJSON, read, throwing_bind_ok, refused]
  rfl

/-- What was read back is written as the same text. -/
theorem encodeJSON_wholeSeconds (seconds : json.WholeSecondLaw)
    (encoded : manifest.encodeJSON json = .ok text) :
    manifest.wholeSeconds.encodeJSON json = .ok text := by
  rw [encodeJSON_eq_ok_iff] at encoded ⊢
  rw [seconds _ manifest manifest.wholeSeconds_wholeSeconds, encoded]

end Pass

/--
Decoding what was encoded succeeds exactly for distinct ids and names a repeated
one otherwise; the manifest read back has its dates cut and is written as the
same text. Whatever the text, only what the initialisers accept is decoded.
-/
theorem manifest_codec (json : JSONCoding Manifest) :
    (json.RoundTripLaw → json.WholeSecondLaw → ∀ (exportedAt : Date)
      (exportLabel : Option String) (items : List ItemDescriptor) (text : Data),
      (∀ item ∈ items, item.rebuilt = .ok item) →
      (init exportedAt exportLabel items).encodeJSON json = .ok text →
        ((∃ back, decodeJSON json text.bytes = .ok back) ↔
          (items.map ItemDescriptor.id).Nodup) ∧
        (¬ (items.map ItemDescriptor.id).Nodup →
          ∃ item ∈ items, decodeJSON json text.bytes = throwBundle (.manifestParseFailed
            s!"duplicate item id {item.id} in manifest")) ∧
        ∀ back, decodeJSON json text.bytes = .ok back →
          back = init exportedAt.wholeSecond exportLabel
            (items.map ItemDescriptor.wholeSeconds) ∧
          back.encodeJSON json = .ok text ∧ back.wholeSeconds = back) ∧
    (∀ data back, decodeJSON json data = .ok back →
      back.schemaVersion = 1 ∧ (back.items.map ItemDescriptor.id).Nodup ∧
      ∀ item ∈ back.items, item.rebuilt = .ok item) := by
  refine ⟨?_, ?_⟩
  rotate_left
  · intro data back decoded
    obtain ⟨-, valid⟩ := decodeJSON_eq_ok_iff.mp decoded
    exact ⟨valid.schemaVersion, valid.ids, fun item member =>
      ItemDescriptor.rebuilt_iff.mpr (valid.items item member)⟩
  intro roundTrip seconds exportedAt exportLabel items text accepted encoded
  have items_valid : ∀ item ∈ items, item.Valid := fun item member =>
    ItemDescriptor.rebuilt_iff.mp (accepted item member)
  refine ⟨⟨?_, ?_⟩, ?_, ?_⟩
  · rintro ⟨back, decoded⟩
    obtain ⟨-, valid⟩ := (decodeJSON_encoded_iff roundTrip encoded).mp decoded
    have distinct := valid.ids
    rwa [map_id_wholeSeconds] at distinct
  · intro distinct
    have valid : (init exportedAt exportLabel items).Valid := ⟨rfl, items_valid, distinct⟩
    exact ⟨_, (decodeJSON_encoded_iff roundTrip encoded).mpr ⟨rfl, valid.wholeSeconds⟩⟩
  · exact decodeJSON_of_repeated roundTrip encoded rfl items_valid
  · intro back decoded
    obtain ⟨rfl, -⟩ := (decodeJSON_encoded_iff roundTrip encoded).mp decoded
    exact ⟨rfl, encodeJSON_wholeSeconds seconds encoded, wholeSeconds_wholeSeconds _⟩

end Manifest

namespace Sample

/-- JSON coders that know one document, whatever its dates are below the second. -/
def secondCoding (document : Manifest) (text : Data) : JSONCoding Manifest where
  encode manifest :=
    if manifest.wholeSeconds = document.wholeSeconds then .ok text
    else .error "unknown document"
  decode bytes :=
    if bytes = text.bytes then .ok document.wholeSeconds else .error "unknown text"

theorem secondCoding_roundTripLaw (document : Manifest) (text : Data) :
    (secondCoding document text).RoundTripLaw := by
  intro manifest data encoded
  simp only [secondCoding] at encoded ⊢
  split at encoded
  · rename_i same
    cases encoded
    rw [if_pos rfl, same]
  · cases encoded

theorem secondCoding_wholeSecondLaw (document : Manifest) (text : Data) :
    (secondCoding document text).WholeSecondLaw := by
  intro manifest other same
  simp only [secondCoding, same]

/-- The manifest of two notes, exported half a second after the epoch. -/
def lateManifest : Manifest := Manifest.init ⟨1 / 2⟩ none (manifest 2).items

end Sample

/-- Half a second is lost on the way through the text, and nothing else. -/
theorem late_manifest_codec :
    Manifest.decodeJSON (Sample.secondCoding (Sample.manifest 2) (Sample.text 2))
        (Sample.text 2).bytes = .ok (Sample.manifest 2) ∧
      Sample.lateManifest.exportedAt ≠ (Sample.manifest 2).exportedAt := by
  obtain ⟨success, -, pass⟩ := (Manifest.manifest_codec
    (Sample.secondCoding (Sample.manifest 2) (Sample.text 2))).1
    (Sample.secondCoding_roundTripLaw _ _) (Sample.secondCoding_wholeSecondLaw _ _) ⟨1 / 2⟩ none
    (Sample.manifest 2).items (Sample.text 2) (by decide +kernel)
    (Manifest.encodeJSON_eq_ok_iff.mpr (if_pos (by decide +kernel)))
  obtain ⟨back, decoded⟩ := success.mpr (by decide)
  obtain ⟨same, -⟩ := pass back decoded
  refine ⟨decoded.trans (congrArg _ (same.trans ?_)), by decide +kernel⟩
  decide +kernel

end UltraLocked.Format
