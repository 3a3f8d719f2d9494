import UltraLocked.Format.BundleParser
import UltraLocked.Library.History

/-!
# A platform that keeps the laws

A transparent stand-in for what the package calls outside itself: it keeps
every documented law and protects nothing. Small builds and sessions on it show
that the hypotheses of the results can be met together.
-/

namespace UltraLocked.Format.Sample

open Library

/-- Sixteen bytes made of the nonce and the key. -/
def tagOf (key : SymmetricKey) (nonce : Bytes) : Bytes :=
  (nonce ++ key.data ++ List.replicate 16 0).take 16

/-- An AEAD whose ciphertexts are the plaintexts. -/
def kit : CryptoKit where
  hkdf key info count := ⟨((key.data ++ info).reverse ++ List.replicate count 0).take count⟩
  nonceError nonce := if nonce.length < 12 then some .incorrectParameterSize else none
  sealBox key nonce plaintext _ :=
    if key.data.length = 32 then .ok (plaintext, tagOf key nonce)
    else .error .incorrectKeySize
  sealedBoxError _ _ tag :=
    if tag.length = 16 then none else some .incorrectParameterSize
  openBox key nonce ciphertext tag _ :=
    if tag = tagOf key nonce then .ok ciphertext else .error .authenticationFailure

/-- JSON coders that know one document and its text. -/
def coding (document : Manifest) (text : Data) : JSONCoding Manifest where
  encode manifest := if manifest = document then .ok text else .error "unknown document"
  decode bytes :=
    if bytes = text.bytes then .ok document.wholeSeconds else .error "unknown text"

/-- Draws that always succeed. -/
def random : SystemRandom where
  status _ := errSecSuccess
  byte draw i := UInt8.ofNat (16 * draw + i)

def argon2 : Argon2 := fun call =>
  (Argon2id.argon2OK,
    (call.password ++ call.salt ++ List.replicate call.hashLength 0).take call.hashLength)

/-! ## The laws -/

theorem length_tagOf (key : SymmetricKey) (nonce : Bytes) : (tagOf key nonce).length = 16 := by
  rw [tagOf, List.length_take, List.length_append, List.length_replicate]
  omega

theorem nonceLaw : kit.NonceLaw := fun _ long => if_neg (by omega)

theorem sealedBoxLaw : kit.SealedBoxLaw := fun _ _ _ length => if_pos length

theorem sealBox_eq_ok_iff {key : SymmetricKey} {nonce plaintext aad : Bytes}
    {box : Bytes × Bytes} :
    kit.sealBox key nonce plaintext aad = .ok box ↔
      key.data.length = 32 ∧ box = (plaintext, tagOf key nonce) := by
  simp only [kit]
  split
  · simp_all [eq_comm]
  · simp_all

theorem sealLengthLaw : kit.SealLengthLaw := by
  intro key nonce plaintext aad ciphertext tag boxed
  obtain ⟨-, same⟩ := sealBox_eq_ok_iff.mp boxed
  cases same
  exact ⟨rfl, length_tagOf key nonce⟩

theorem sealTotalLaw : kit.SealTotalLaw := fun _ _ _ _ size _ _ =>
  ⟨_, sealBox_eq_ok_iff.mpr ⟨size, rfl⟩⟩

theorem sealUniformLaw : kit.SealUniformLaw := by
  intro key nonce plaintext other aad error _ failed
  simp only [kit] at failed ⊢
  split at failed
  · cases failed
  · rename_i size
    rw [if_neg size, failed]

theorem hkdfLengthLaw : kit.HKDFLengthLaw := by
  intro key info count
  simp only [kit, List.length_take, List.length_append, List.length_replicate]
  omega

theorem openSealLaw : kit.OpenSealLaw := by
  intro key nonce plaintext aad ciphertext tag boxed
  obtain ⟨-, same⟩ := sealBox_eq_ok_iff.mp boxed
  cases same
  exact if_pos rfl

theorem openLengthLaw : kit.OpenLengthLaw := by
  intro key nonce ciphertext tag aad plaintext opened
  simp only [kit] at opened
  split at opened
  · cases opened
    rfl
  · cases opened

section Coding

variable (document : Manifest) (text : Data)

theorem roundTripLaw : (coding document text).RoundTripLaw := by
  intro manifest data encoded
  simp only [coding] at encoded ⊢
  split at encoded
  · rename_i same
    cases encoded
    rw [if_pos rfl, same]
  · cases encoded

variable {document text} (few : document.items.length ≤ text.bytes.length)

include few

theorem encodeCountLaw : (coding document text).EncodeCountLaw := by
  intro manifest data encoded
  simp only [coding] at encoded
  split at encoded
  · rename_i same
    cases encoded
    rwa [same]
  · cases encoded

theorem decodeCountLaw : (coding document text).DecodeCountLaw := by
  intro data manifest decoded
  simp only [coding] at decoded
  split at decoded
  · rename_i same
    cases decoded
    rw [same, Manifest.wholeSeconds, List.length_map]
    exact few
  · cases decoded

end Coding

theorem encode_document (document : Manifest) (text : Data) :
    (coding document text).encode document = .ok text := if_pos rfl

theorem successLaw : random.SuccessLaw := fun _ => rfl

/-! ## Two notes -/

def epoch : Date := ⟨0⟩

/-- The identifier whose last byte is given. -/
def noteID (last : UInt8) : UUID := ⟨(Vector.replicate 15 0).push last⟩

/-- A note of two bytes. -/
def note (last : UInt8) (first second : UInt8) : ItemContent :=
  ⟨noteID last, "note", "text/plain", ⟨[first, second], 0, by simp⟩, epoch, epoch, none,
    none⟩

/-- The descriptor of a note whose nonce is made by the given draw. -/
def noteDescriptor (last : UInt8) (draw : Nat) : ItemDescriptor :=
  ⟨noteID last, "note", "text/plain", 2, epoch, epoch, none, none,
    (List.range 12).map (random.byte draw), 18⟩

/-- The manifest of note 1 and a note with the given last byte, nonces from draw 2 on. -/
def manifest (last : UInt8) : Manifest :=
  ⟨1, epoch, none, [noteDescriptor 1 2, noteDescriptor last 3]⟩

/-- The JSON text of the manifest up to the last digit of the second identifier. -/
def textBefore : Bytes :=
  [123, 34, 101, 120, 112, 111, 114, 116, 101, 100, 95, 97, 116, 34, 58, 34, 49, 57, 55, 48, 45,
   48, 49, 45, 48, 49, 84, 48, 48, 58, 48, 48, 58, 48, 48, 90, 34, 44, 34, 105, 116, 101, 109,
   115, 34, 58, 91, 123, 34, 99, 114, 101, 97, 116, 101, 100, 95, 97, 116, 34, 58, 34, 49, 57,
   55, 48, 45, 48, 49, 45, 48, 49, 84, 48, 48, 58, 48, 48, 58, 48, 48, 90, 34, 44, 34, 105, 100,
   34, 58, 34, 48, 48, 48, 48, 48, 48, 48, 48, 45, 48, 48, 48, 48, 45, 48, 48, 48, 48, 45, 48,
   48, 48, 48, 45, 48, 48, 48, 48, 48, 48, 48, 48, 48, 48, 48, 49, 34, 44, 34, 105, 116, 101,
   109, 95, 110, 111, 110, 99, 101, 34, 58, 34, 73, 67, 69, 105, 73, 121, 81, 108, 74, 105, 99,
   111, 75, 83, 111, 114, 34, 44, 34, 105, 116, 101, 109, 95, 115, 105, 122, 101, 34, 58, 49,
   56, 44, 34, 109, 105, 109, 101, 95, 116, 121, 112, 101, 34, 58, 34, 116, 101, 120, 116, 47,
   112, 108, 97, 105, 110, 34, 44, 34, 109, 111, 100, 105, 102, 105, 101, 100, 95, 97, 116, 34,
   58, 34, 49, 57, 55, 48, 45, 48, 49, 45, 48, 49, 84, 48, 48, 58, 48, 48, 58, 48, 48, 90, 34,
   44, 34, 110, 97, 109, 101, 34, 58, 34, 110, 111, 116, 101, 34, 44, 34, 115, 105, 122, 101,
   95, 98, 121, 116, 101, 115, 34, 58, 50, 125, 44, 123, 34, 99, 114, 101, 97, 116, 101, 100,
   95, 97, 116, 34, 58, 34, 49, 57, 55, 48, 45, 48, 49, 45, 48, 49, 84, 48, 48, 58, 48, 48, 58,
   48, 48, 90, 34, 44, 34, 105, 100, 34, 58, 34, 48, 48, 48, 48, 48, 48, 48, 48, 45, 48, 48, 48,
   48, 45, 48, 48, 48, 48, 45, 48, 48, 48, 48, 45, 48, 48, 48, 48, 48, 48, 48, 48, 48, 48, 48]

/-- The JSON text of the manifest behind that digit. -/
def textBehind : Bytes :=
  [34, 44, 34, 105, 116, 101, 109, 95, 110, 111, 110, 99, 101, 34, 58, 34, 77, 68, 69, 121, 77,
   122, 81, 49, 78, 106, 99, 52, 79, 84, 111, 55, 34, 44, 34, 105, 116, 101, 109, 95, 115, 105,
   122, 101, 34, 58, 49, 56, 44, 34, 109, 105, 109, 101, 95, 116, 121, 112, 101, 34, 58, 34,
   116, 101, 120, 116, 47, 112, 108, 97, 105, 110, 34, 44, 34, 109, 111, 100, 105, 102, 105,
   101, 100, 95, 97, 116, 34, 58, 34, 49, 57, 55, 48, 45, 48, 49, 45, 48, 49, 84, 48, 48, 58,
   48, 48, 58, 48, 48, 90, 34, 44, 34, 110, 97, 109, 101, 34, 58, 34, 110, 111, 116, 101, 34,
   44, 34, 115, 105, 122, 101, 95, 98, 121, 116, 101, 115, 34, 58, 50, 125, 93, 44, 34, 115, 99,
   104, 101, 109, 97, 95, 118, 101, 114, 115, 105, 111, 110, 34, 58, 49, 125]

theorem length_textBefore : textBefore.length = 345 := by decide +kernel

theorem length_textBehind : textBehind.length = 161 := by decide +kernel

/-- The JSON text of the manifest. -/
def text (last : UInt8) : Data where
  bytes := textBefore ++ [48 + last] ++ textBehind
  startIndex := 0
  endIndex_lt := by
    rw [List.length_append, List.length_append, List.length_singleton, length_textBefore,
      length_textBehind]
    omega

def platform (last : UInt8) : Platform :=
  ⟨kit, argon2, coding (manifest last) (text last), random⟩

theorem few_items (last : UInt8) : (manifest last).items.length ≤ (text last).bytes.length := by
  change 2 ≤ _
  rw [text, List.length_append, List.length_append, length_textBefore]
  omega

/-- A builder with two notes. -/
def builder (last : UInt8) : BundleBuilder :=
  ⟨[note 1 7 8, note last 9 10], Argon2idParameters.recommendedDefault, none, epoch⟩

def masterKey : SymmetricKey := ⟨List.replicate 32 9⟩

def salt : Bytes := List.replicate 16 5

def manifestNonce : Bytes := List.replicate 12 6

/-- A build of the two notes, its nonces from draw 2 on. -/
def build (last : UInt8) : Calling Data :=
  (BundleBuilder.buildBundle (platform last) (builder last) masterKey salt manifestNonce 2).1

/-! ## A session over the bundle of two notes -/

theorem eq_ok_of_isSome {α : Type} {x : Throwing α} (returned : x.toOption.isSome) :
    x = .ok (x.toOption.get returned) := by
  cases x with
  | error stop => cases returned
  | ok value => rfl

theorem returns_of_isSome {α : Type} {x : Calling α} (returned : x.outcome.toOption.isSome) :
    ∃ value, x.outcome = .ok value := ⟨_, eq_ok_of_isSome returned⟩

theorem build_isSome : (build 2).outcome.toOption.isSome := by decide +kernel

/-- The bundle of notes 1 and 2. -/
def bundle : Data := (build 2).outcome.toOption.get build_isSome

theorem init_isSome : (BundleParser.init bundle).toOption.isSome := by decide +kernel

/-- The parser of the bundle. -/
def start : BundleParser := (BundleParser.init bundle).toOption.get init_isSome

theorem init_bundle : BundleParser.init bundle = .ok start := eq_ok_of_isSome init_isSome

/-- The unlock of the bundle under its key. -/
def unlocking : Calling BundleParser.Reply × BundleParser :=
  BundleParser.step (platform 2) start (.unlockMasterKey masterKey)

theorem unlocking_outcome : unlocking.1.outcome = .ok (.manifest (manifest 2)) := by
  decide +kernel

/-- The session of one unlock. -/
theorem session : History (BundleParser.step (platform 2)) Survives start
    [(.unlockMasterKey masterKey, unlocking.1)] unlocking.2 :=
  .called .opened (@Prod.mk.eta _ _ unlocking).symm (survives_of_ok unlocking_outcome)

theorem unlocking_masterKey : unlocking.2.masterKey = some masterKey := by decide +kernel

theorem unlocking_cachedManifest : unlocking.2.cachedManifest = some (manifest 2) := by
  decide +kernel

/-! ## A platform that opens nothing but what was sealed -/

/-- A second build of the notes, under another manifest nonce. -/
def otherBuild : Calling Data :=
  (BundleBuilder.buildBundle (platform 2) (builder 2) masterKey salt (List.replicate 12 7) 2).1

/-- The foreign calls of both builds. -/
def register : List ForeignCall := (build 2).events ++ otherBuild.events

/-- The platform on which a box opens only if a registered call has sealed it. -/
def registering : Platform :=
  { platform 2 with
    kit := { kit with
      openBox := fun key nonce ciphertext tag aad =>
        if .sealGCM key nonce ciphertext aad ciphertext tag ∈ register then .ok ciphertext
        else .error .authenticationFailure } }

/-- A sealed box holds its plaintext as it is. -/
def Transparent : ForeignCall → Prop
  | .sealGCM _ _ plaintext _ ciphertext _ => plaintext = ciphertext
  | _ => True

instance : DecidablePred Transparent
  | .argon2id_hash_raw _ => isTrue trivial
  | .hkdf _ _ _ => isTrue trivial
  | .sealGCM _ _ plaintext _ ciphertext _ =>
      inferInstanceAs (Decidable (plaintext = ciphertext))
  | .sealGCMRefused _ _ _ _ => isTrue trivial
  | .openGCM _ _ _ _ _ => isTrue trivial

theorem register_transparent : ∀ call ∈ register, Transparent call := by decide +kernel

theorem registering_opens {key : SymmetricKey} {nonce plaintext aad ciphertext tag : Bytes}
    (listed : .sealGCM key nonce plaintext aad ciphertext tag ∈ register) :
    registering.kit.openBox key nonce ciphertext tag aad = .ok plaintext := by
  have same : plaintext = ciphertext := register_transparent _ listed
  rw [same] at listed ⊢
  simp only [registering]
  rw [if_pos listed]

theorem registering_sealLengthLaw : registering.kit.SealLengthLaw := by
  intro key nonce plaintext aad ciphertext tag boxed
  simp only [registering] at boxed
  exact sealLengthLaw key nonce plaintext aad ciphertext tag boxed

theorem registering_sealedBoxLaw : registering.kit.SealedBoxLaw := by
  intro nonce ciphertext tag length
  simp only [registering]
  exact sealedBoxLaw nonce ciphertext tag length

theorem registering_roundTripLaw : registering.json.RoundTripLaw := roundTripLaw _ _

theorem listed_of_registering_opens {key : SymmetricKey}
    {nonce plaintext aad ciphertext tag : Bytes}
    (opened : registering.kit.openBox key nonce ciphertext tag aad = .ok plaintext) :
    .sealGCM key nonce ciphertext aad ciphertext tag ∈ register := by
  simp only [registering] at opened
  split at opened
  · assumption
  · cases opened

end UltraLocked.Format.Sample
