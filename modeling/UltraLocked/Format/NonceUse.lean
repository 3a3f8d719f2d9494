import UltraLocked.Format.HeaderCodec
import UltraLocked.Format.SamplePlatform
import UltraLocked.Format.Staging
import UltraLocked.Library.Plans

/-!
# Which keys and nonces a build uses

The seal calls of a build, also of one that fails, come in the order of a plan:
the manifest first, then the items. The plan tells the keys of different ids
and of the manifest apart, so a key meets a nonce twice only where the random
number generator repeats itself under one id.
-/

namespace UltraLocked.Format.BundleBuilder

open Library

structure SealCall where
  key : SymmetricKey
  nonce : Bytes
  plaintext : Bytes
  aad : Bytes
  deriving DecidableEq, Repr

/-- The seal call that an event records, answered or refused. -/
def sealCall : ForeignCall → Option SealCall
  | .sealGCM key nonce plaintext aad _ _ => some ⟨key, nonce, plaintext, aad⟩
  | .sealGCMRefused key nonce plaintext aad => some ⟨key, nonce, plaintext, aad⟩
  | _ => none

def sealCalls (platform : Platform) (builder : BundleBuilder) (masterKey : SymmetricKey)
    (salt manifestNonce : Bytes) (draw : Nat) : List SealCall :=
  (buildBundle platform builder masterKey salt manifestNonce draw).1.events.filterMap sealCall

def manifestSeal (kit : CryptoKit) (masterKey : SymmetricKey)
    (headerBytes manifestNonce text : Bytes) : SealCall :=
  ⟨Crypto.manifestKey kit masterKey, manifestNonce, text, headerBytes⟩

def itemSeal (kit : CryptoKit) (masterKey : SymmetricKey) (headerBytes : Bytes)
    (item : ItemContent) (nonce : Bytes) : SealCall :=
  ⟨Crypto.itemKey kit masterKey item.id, nonce, item.plaintext.bytes,
    headerBytes ++ item.id.rawBytes⟩

/-- The info strings under which a build derives its keys. -/
def infos (items : List ItemContent) : List Bytes :=
  Crypto.manifestKeyInfo :: items.map fun item => Crypto.itemKeyInfoPrefix ++ item.id.rawBytes

/-- Different info strings give different keys. -/
def NoCollision (kit : CryptoKit) (masterKey : SymmetricKey) (infos : List Bytes) : Prop :=
  ∀ first ∈ infos, ∀ second ∈ infos,
    kit.hkdf masterKey first Crypto.derivedKeySize =
      kit.hkdf masterKey second Crypto.derivedKeySize → first = second

/-! ## Each step follows its part of the plan -/

section Steps

variable {kit : CryptoKit} {masterKey : SymmetricKey} {headerBytes : Bytes}

/-- Sealing is one seal call, answered or refused. -/
theorem sealGCM_follows (key : SymmetricKey) (nonce plaintext aad : Bytes) :
    (Crypto.sealGCM kit key nonce plaintext aad).Follows sealCall
      [⟨key, nonce, plaintext, aad⟩] := by
  rw [Crypto.sealGCM]
  cases kit.nonceError nonce with
  | some error => exact .of_event rfl
  | none =>
      cases kit.sealBox key nonce plaintext aad with
      | error error => exact .of_event rfl
      | ok box => exact .of_event rfl

theorem encrypt_follows (item : ItemContent) (nonce : Bytes) :
    (ItemRecord.encrypt kit item.plaintext.bytes masterKey item.id nonce headerBytes).Follows
      sealCall [itemSeal kit masterKey headerBytes item nonce] := by
  rw [ItemRecord.encrypt, Crypto.deriveItemKey_eq]
  exact .after_unmarked rfl (.then_silent (sealGCM_follows _ _ _ _) fun _ => rfl)

theorem encryptManifest_follows {json : JSONCoding Manifest} {manifest : Manifest}
    {text : Data} (encoded : manifest.encodeJSON json = .ok text) (manifestNonce : Bytes) :
    (manifest.encrypt kit json masterKey manifestNonce headerBytes).Follows sealCall
      [manifestSeal kit masterKey headerBytes manifestNonce text.bytes] := by
  rw [Manifest.encrypt, encoded, Crypto.deriveManifestKey_eq]
  exact .after_silent fun _ same => by
    cases same
    exact .after_unmarked rfl (sealGCM_follows _ _ _ _)

theorem drop_of_element {α : Type} {array : List α} {i : Nat} {x : α}
    (found : element array i = .ok x) : array.drop i = x :: array.drop (i + 1) := by
  unfold element at found
  cases here : array[i]? with
  | none =>
      rw [here] at found
      cases found
  | some y =>
      rw [here] at found
      cases found
      obtain ⟨inside, same⟩ := List.getElem?_eq_some_iff.mp here
      rw [List.drop_eq_getElem_cons inside, same]

/-- The loop seals the items in order, each under the nonce at its position. -/
theorem encryptItems_follows (descriptors : List ItemDescriptor) (itemNonces : List Bytes)
    (i : Nat) (items : List ItemContent) (itemRecords : List Bytes) (total : UInt64) :
    (encryptItems kit masterKey headerBytes descriptors itemNonces i items itemRecords
      total).Follows sealCall
      (List.zipWith (itemSeal kit masterKey headerBytes) items (itemNonces.drop i)) := by
  induction items generalizing i itemRecords total with
  | nil => exact .of_silent _
  | cons item rest ih =>
      rw [encryptItems]
      refine .after_silent fun nonce found => ?_
      rw [drop_of_element found, List.zipWith_cons_cons]
      refine .bind (encrypt_follows item nonce) fun record => ?_
      refine .after_silent fun recordSize _ => .after_silent fun described _ =>
        .after_silent fun _ _ => .after_silent fun totalItemBytes _ => ?_
      exact ih _ _ _

/-- Past the staging loop a build seals the manifest and then the items. -/
theorem sealStaged_follows (json : JSONCoding Manifest) (builder : BundleBuilder)
    (salt manifestNonce : Bytes) (descriptors : List ItemDescriptor) (itemNonces : List Bytes) :
    ∃ text headerBytes,
      (sealStaged kit json builder masterKey salt manifestNonce descriptors
        itemNonces).Follows sealCall
        (manifestSeal kit masterKey headerBytes manifestNonce text ::
          List.zipWith (itemSeal kit masterKey headerBytes) builder.items itemNonces) := by
  rw [sealStaged]
  cases planned : planHeader json builder salt manifestNonce
      (Manifest.init builder.exportedAt builder.exportLabel descriptors) with
  | error stop => exact ⟨[], [], .of_error stop _⟩
  | ok plan =>
      obtain ⟨manifestCiphertextSize, header⟩ := plan
      obtain ⟨text, encoded, -⟩ := throwing_bind_eq_ok_iff.mp planned
      refine ⟨text.bytes, header.encoded, ?_⟩
      refine .after_silent fun _ same => ?_
      cases same
      refine .after_silent fun headerBytes serialized => ?_
      cases header.serialize_eq.symm.trans serialized
      refine .bind (encryptManifest_follows encoded manifestNonce) fun box => ?_
      refine .after_silent fun sum _ => .after_silent fun encryptedSize _ =>
        .after_silent fun _ _ => ?_
      exact .then_silent (encryptItems_follows _ _ 0 _ _ _) fun _ => rfl

end Steps

/-! ## The whole build -/

/-- The seal calls of a build that ends anywhere are the start of those planned. -/
theorem sealCalls_isPrefix (platform : Platform) (builder : BundleBuilder)
    (masterKey : SymmetricKey) (salt manifestNonce : Bytes) (draw : Nat) :
    ∃ text headerBytes, sealCalls platform builder masterKey salt manifestNonce draw <+:
      manifestSeal platform.kit masterKey headerBytes manifestNonce text ::
        List.zipWith (itemSeal platform.kit masterKey headerBytes) builder.items
          ((staged platform.random draw builder.items).map ItemDescriptor.itemNonce) := by
  rw [sealCalls, buildBundle_run]
  cases found : stageAll platform.random draw builder.items with
  | error stop => exact ⟨[], [], List.nil_prefix⟩
  | ok descriptors =>
      obtain ⟨-, -, rfl⟩ := stageAll_eq_ok_iff.mp found
      rw [Traced.bind_silent]
      obtain ⟨text, headerBytes, follows⟩ := @sealStaged_follows platform.kit masterKey
        platform.json builder salt manifestNonce (staged platform.random draw builder.items)
        ((staged platform.random draw builder.items).map ItemDescriptor.itemNonce)
      exact ⟨text, headerBytes, follows.start⟩

/-- The call at a position seals the item before that position. -/
structure SealsItem (platform : Platform) (builder : BundleBuilder) (masterKey : SymmetricKey)
    (draw i : Nat) (call : SealCall) (k : Nat) (item : ItemContent) : Prop where
  position : i = k + 1
  listed : builder.items[k]? = some item
  key : call.key = Crypto.itemKey platform.kit masterKey item.id
  nonce : call.nonce = drawn platform.random 12 (draw + k)
  plaintext : call.plaintext = item.plaintext.bytes

section Builds

variable {platform : Platform} {builder : BundleBuilder} {masterKey : SymmetricKey}
  {salt manifestNonce : Bytes} {draw : Nat}

/-- The first call seals the manifest, each later one the item at its place. -/
theorem sealCalls_cases {i : Nat} {call : SealCall}
    (made : (sealCalls platform builder masterKey salt manifestNonce draw)[i]? = some call) :
    (i = 0 ∧ call.key = Crypto.manifestKey platform.kit masterKey) ∨
      ∃ k item, SealsItem platform builder masterKey draw i call k item := by
  obtain ⟨text, headerBytes, planned⟩ :=
    sealCalls_isPrefix platform builder masterKey salt manifestNonce draw
  obtain ⟨inside, same⟩ := List.getElem?_eq_some_iff.mp made
  have plan := List.prefix_iff_getElem?.mp planned i inside
  rw [same] at plan
  cases i with
  | zero =>
      cases plan
      exact .inl ⟨rfl, rfl⟩
  | succ k =>
      rw [List.getElem?_cons_succ] at plan
      obtain ⟨item, nonce, listed, drawing, rfl⟩ := List.getElem?_zipWith_eq_some.mp plan
      obtain ⟨within, rfl⟩ := List.getElem?_eq_some_iff.mp listed
      obtain ⟨counted, rfl⟩ := List.getElem?_eq_some_iff.mp drawing
      refine .inr ⟨k, builder.items[k], rfl, listed, rfl, ?_, rfl⟩
      rw [itemSeal, List.getElem_map, getElem_staged within, itemNonce_descriptor]

/-- The manifest's info string is that of no item. -/
theorem manifestKeyInfo_ne (id : UUID) :
    Crypto.manifestKeyInfo ≠ Crypto.itemKeyInfoPrefix ++ id.rawBytes := by
  intro same
  have lengths := congrArg List.length same
  rw [List.length_append, UUID.length_rawBytes] at lengths
  have manifest : Crypto.manifestKeyInfo.length = 30 := by decide +kernel
  have item : Crypto.itemKeyInfoPrefix.length = 27 := by decide +kernel
  omega

theorem mem_infos {item : ItemContent} {k : Nat} (listed : builder.items[k]? = some item) :
    Crypto.itemKeyInfoPrefix ++ item.id.rawBytes ∈ infos builder.items :=
  List.mem_cons_of_mem _ (List.mem_map.mpr ⟨item, List.mem_of_getElem? listed, rfl⟩)

/-- Without collisions no item's key is the manifest's. -/
theorem itemKey_ne_manifestKey
    (distinct : NoCollision platform.kit masterKey (infos builder.items)) {item : ItemContent}
    {k : Nat} (listed : builder.items[k]? = some item) :
    Crypto.manifestKey platform.kit masterKey ≠
      Crypto.itemKey platform.kit masterKey item.id := fun same =>
  manifestKeyInfo_ne item.id (distinct _ List.mem_cons_self _ (mem_infos listed) same)

/-- Without collisions items under one key have one id. -/
theorem id_of_itemKey
    (distinct : NoCollision platform.kit masterKey (infos builder.items))
    {item other : ItemContent} {k l : Nat} (listed : builder.items[k]? = some item)
    (found : builder.items[l]? = some other)
    (same : Crypto.itemKey platform.kit masterKey item.id =
      Crypto.itemKey platform.kit masterKey other.id) : item.id = other.id := by
  have infos := distinct _ (mem_infos listed) _ (mem_infos found) same
  exact UUID.rawBytes_injective (List.append_cancel_left infos)

/-- Two seal calls that meet in key and nonce seal items with one id and one draw. -/
theorem items_of_meeting (distinct : NoCollision platform.kit masterKey (infos builder.items))
    {i j : Nat} {call other : SealCall} (apart : i ≠ j)
    (made : (sealCalls platform builder masterKey salt manifestNonce draw)[i]? = some call)
    (met : (sealCalls platform builder masterKey salt manifestNonce draw)[j]? = some other)
    (sameKey : call.key = other.key) (sameNonce : call.nonce = other.nonce) :
    ∃ k l item twin, SealsItem platform builder masterKey draw i call k item ∧
      SealsItem platform builder masterKey draw j other l twin ∧ item.id = twin.id ∧
      drawn platform.random 12 (draw + k) = drawn platform.random 12 (draw + l) := by
  rcases sealCalls_cases made with ⟨rfl, key⟩ | ⟨k, item, one⟩
  · rcases sealCalls_cases met with ⟨rfl, -⟩ | ⟨l, twin, two⟩
    · exact absurd rfl apart
    · rw [key, two.key] at sameKey
      exact absurd sameKey (itemKey_ne_manifestKey distinct two.listed)
  · rcases sealCalls_cases met with ⟨rfl, key⟩ | ⟨l, twin, two⟩
    · rw [one.key, key] at sameKey
      exact absurd sameKey.symm (itemKey_ne_manifestKey distinct one.listed)
    · rw [one.key, two.key] at sameKey
      rw [one.nonce, two.nonce] at sameNonce
      exact ⟨k, l, item, twin, one, two,
        id_of_itemKey distinct one.listed two.listed sameKey, sameNonce⟩

/-- With distinct ids an item is sealed by one call only. -/
theorem SealsItem.position_eq (ids : (builder.items.map ItemContent.id).Nodup)
    {i j k l : Nat} {call other : SealCall} {item twin : ItemContent}
    (one : SealsItem platform builder masterKey draw i call k item)
    (two : SealsItem platform builder masterKey draw j other l twin)
    (same : item.id = twin.id) : i = j := by
  obtain ⟨inside, rfl⟩ := List.getElem?_eq_some_iff.mp one.listed
  obtain ⟨within, rfl⟩ := List.getElem?_eq_some_iff.mp two.listed
  rw [one.position, two.position, position_of_map ids inside within same]

end Builds

/--
Two seal calls of a build, finished or not, meet in key and nonce only if they
seal two items with one id for which the same bytes were drawn; with distinct
ids no key is used twice with one nonce.
-/
theorem nonce_pairs_distinct (platform : Platform) (builder : BundleBuilder)
    (masterKey : SymmetricKey) (salt manifestNonce : Bytes) (draw : Nat)
    (distinct : NoCollision platform.kit masterKey (infos builder.items)) :
    (∀ i j call other, i ≠ j →
      (sealCalls platform builder masterKey salt manifestNonce draw)[i]? = some call →
      (sealCalls platform builder masterKey salt manifestNonce draw)[j]? = some other →
      call.key = other.key → call.nonce = other.nonce →
      ∃ k l item twin, SealsItem platform builder masterKey draw i call k item ∧
        SealsItem platform builder masterKey draw j other l twin ∧ item.id = twin.id ∧
        drawn platform.random 12 (draw + k) = drawn platform.random 12 (draw + l)) ∧
    ((builder.items.map ItemContent.id).Nodup →
      ((sealCalls platform builder masterKey salt manifestNonce draw).map
        fun call => (call.key, call.nonce)).Nodup) := by
  refine ⟨fun i j call other apart made met sameKey sameNonce =>
    items_of_meeting distinct apart made met sameKey sameNonce, fun ids => ?_⟩
  rw [List.nodup_iff_getElem?_ne_getElem?]
  intro i j before within same
  rw [List.length_map] at within
  have made := List.getElem?_eq_getElem (before.trans within)
  have met := List.getElem?_eq_getElem within
  rw [List.getElem?_map, List.getElem?_map, made, met] at same
  obtain ⟨sameKey, sameNonce⟩ := Prod.mk.inj (Option.some.inj same)
  obtain ⟨k, l, item, twin, one, two, sameID, -⟩ :=
    items_of_meeting distinct (Nat.ne_of_lt before) made met sameKey sameNonce
  exact absurd (one.position_eq ids two sameID) (Nat.ne_of_lt before)

/-- Two notes and a manifest under the nonce of the first note: no pair is used twice. -/
theorem shared_nonce_pairs_distinct :
    (sealCalls (Sample.platform 2) (Sample.builder 2) Sample.masterKey Sample.salt
        (drawn Sample.random 12 2) 2).length = 3 ∧
      ((sealCalls (Sample.platform 2) (Sample.builder 2) Sample.masterKey Sample.salt
        (drawn Sample.random 12 2) 2).map fun call => (call.key, call.nonce)).Nodup := by
  refine ⟨by decide +kernel, ?_⟩
  have distinct : NoCollision (Sample.platform 2).kit Sample.masterKey
      (infos (Sample.builder 2).items) := by
    unfold NoCollision
    decide +kernel
  exact (nonce_pairs_distinct (Sample.platform 2) (Sample.builder 2) Sample.masterKey
    Sample.salt (drawn Sample.random 12 2) 2 distinct).2 (by decide)

end UltraLocked.Format.BundleBuilder
