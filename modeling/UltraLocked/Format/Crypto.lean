import UltraLocked.Format.Platform

/-!
# Key derivation, AES-256-GCM and random bytes

`Crypto.swift` and `Random.swift`.
-/

namespace UltraLocked.Format

open Library

/-- `Data(text.utf8)` -/
def utf8 (text : String) : Bytes := text.toByteArray.data.toList

theorem utf8_injective : Function.Injective utf8 := fun _ _ same =>
  String.toByteArray_inj.mp (ByteArray.ext (Array.toList_inj.mp same))

theorem utf8_ne_nil {text : String} (nonempty : text ≠ "") : utf8 text ≠ [] :=
  fun none => nonempty (utf8_injective none)

namespace Crypto

def manifestKeyInfo : Bytes := utf8 "UltraLocked-Export-v1-Manifest"
def itemKeyInfoPrefix : Bytes := utf8 "UltraLocked-Export-v1-Item-"
def derivedKeySize : Nat := 32

/-- One call to HKDF. -/
def hkdf (kit : CryptoKit) (inputKeyMaterial : SymmetricKey) (info : Bytes) :
    Calling SymmetricKey := do
  Traced.emit (.hkdf inputKeyMaterial info derivedKeySize)
  pure (kit.hkdf inputKeyMaterial info derivedKeySize)

def deriveManifestKey (kit : CryptoKit) (masterKey : SymmetricKey) :
    Calling SymmetricKey :=
  hkdf kit masterKey manifestKeyInfo

def deriveItemKey (kit : CryptoKit) (masterKey : SymmetricKey) (itemID : UUID) :
    Calling SymmetricKey :=
  hkdf kit masterKey (itemKeyInfoPrefix ++ itemID.rawBytes)

/-- A CryptoKit initialiser that throws the given error, if any. -/
def rejectWith : Option CryptoKitError → Throwing Unit
  | none => .ok ()
  | some error => .error (.thrown (.cryptoKit error))

/-- A seal that CryptoKit refuses. -/
def refuseSeal (key : SymmetricKey) (nonce plaintext aad : Bytes) (error : CryptoKitError) :
    Calling (Bytes × Bytes) :=
  ⟨.error (.thrown (.cryptoKit error)), [.sealGCMRefused key nonce plaintext aad]⟩

def sealGCM (kit : CryptoKit) (key : SymmetricKey) (nonce plaintext aad : Bytes) :
    Calling (Bytes × Bytes) :=
  match kit.nonceError nonce with
  | some error => refuseSeal key nonce plaintext aad error
  | none =>
      match kit.sealBox key nonce plaintext aad with
      | .error error => refuseSeal key nonce plaintext aad error
      | .ok (ciphertext, tag) => do
          Traced.emit (.sealGCM key nonce plaintext aad ciphertext tag)
          pure (ciphertext, tag)

def openGCM (kit : CryptoKit) (key : SymmetricKey) (nonce ciphertext tag aad : Bytes) :
    Calling Bytes := do
  Traced.emit (.openGCM key nonce ciphertext tag aad)
  rejectWith (kit.nonceError nonce)
  rejectWith (kit.sealedBoxError nonce ciphertext tag)
  match kit.openBox key nonce ciphertext tag aad with
  | .ok plaintext => pure plaintext
  | .error _ => (throwBundle .decryptionFailed : Throwing Bytes)

@[simp] theorem rejectWith_none : rejectWith none = .ok () := rfl

/-! ## What the calls return and emit -/

/-- The key that `deriveManifestKey` returns. -/
def manifestKey (kit : CryptoKit) (masterKey : SymmetricKey) : SymmetricKey :=
  kit.hkdf masterKey manifestKeyInfo derivedKeySize

/-- The key that `deriveItemKey` returns. -/
def itemKey (kit : CryptoKit) (masterKey : SymmetricKey) (itemID : UUID) : SymmetricKey :=
  kit.hkdf masterKey (itemKeyInfoPrefix ++ itemID.rawBytes) derivedKeySize

theorem deriveManifestKey_eq (kit : CryptoKit) (masterKey : SymmetricKey) :
    deriveManifestKey kit masterKey =
      ⟨.ok (manifestKey kit masterKey),
        [.hkdf masterKey manifestKeyInfo derivedKeySize]⟩ := rfl

theorem deriveItemKey_eq (kit : CryptoKit) (masterKey : SymmetricKey) (itemID : UUID) :
    deriveItemKey kit masterKey itemID =
      ⟨.ok (itemKey kit masterKey itemID),
        [.hkdf masterKey (itemKeyInfoPrefix ++ itemID.rawBytes) derivedKeySize]⟩ := rfl

section Boxes

variable {kit : CryptoKit} {key : SymmetricKey} {nonce plaintext aad ciphertext tag : Bytes}

/-- Sealing returns exactly when the nonce is accepted and the plaintext is sealed. -/
theorem sealGCM_returns_iff {events : List ForeignCall} :
    sealGCM kit key nonce plaintext aad = ⟨.ok (ciphertext, tag), events⟩ ↔
      kit.nonceError nonce = none ∧
      kit.sealBox key nonce plaintext aad = .ok (ciphertext, tag) ∧
      events = [.sealGCM key nonce plaintext aad ciphertext tag] := by
  unfold sealGCM
  cases kit.nonceError nonce with
  | some error => simp [refuseSeal]
  | none =>
      cases kit.sealBox key nonce plaintext aad with
      | error error => simp [refuseSeal]
      | ok box =>
          obtain ⟨c, t⟩ := box
          simp only [Traced.bind_ok, Traced.emit, Traced.pure_def, List.append_nil,
            Traced.mk.injEq, Except.ok.injEq, Prod.mk.injEq, true_and]
          constructor
          · rintro ⟨⟨rfl, rfl⟩, rfl⟩; exact ⟨⟨rfl, rfl⟩, rfl⟩
          · rintro ⟨⟨rfl, rfl⟩, rfl⟩; exact ⟨⟨rfl, rfl⟩, rfl⟩

/-- The AEAD is called once, whatever comes of it. -/
theorem openGCM_events :
    (openGCM kit key nonce ciphertext tag aad).events =
      [.openGCM key nonce ciphertext tag aad] := by
  unfold openGCM
  cases kit.nonceError nonce with
  | some error => rfl
  | none =>
      cases kit.sealedBoxError nonce ciphertext tag with
      | some error => rfl
      | none => cases kit.openBox key nonce ciphertext tag aad <;> rfl

/-- Opening returns exactly when both initialisers accept and the box opens. -/
theorem openGCM_ok_iff :
    (openGCM kit key nonce ciphertext tag aad).outcome = .ok plaintext ↔
      kit.nonceError nonce = none ∧ kit.sealedBoxError nonce ciphertext tag = none ∧
      kit.openBox key nonce ciphertext tag aad = .ok plaintext := by
  unfold openGCM
  cases kit.nonceError nonce with
  | some error => simp [rejectWith, Traced.emit]
  | none =>
      cases kit.sealedBoxError nonce ciphertext tag with
      | some error => simp [rejectWith, Traced.emit]
      | none =>
          cases kit.openBox key nonce ciphertext tag aad with
          | error error => simp [Traced.emit, throwBundle]
          | ok opened => simp [Traced.emit]

/-- Once both initialisers accept, the only failure is `decryptionFailed`. -/
theorem openGCM_error_iff (nonceAccepted : kit.nonceError nonce = none)
    (boxAccepted : kit.sealedBoxError nonce ciphertext tag = none) {stop : Stop} :
    (openGCM kit key nonce ciphertext tag aad).outcome = .error stop ↔
      stop = .thrown (.bundle .decryptionFailed) ∧
      ∃ error, kit.openBox key nonce ciphertext tag aad = .error error := by
  unfold openGCM
  rw [nonceAccepted, boxAccepted]
  cases kit.openBox key nonce ciphertext tag aad with
  | error error => simp [Traced.emit, throwBundle, eq_comm]
  | ok opened => simp [Traced.emit]

/-- Opening never traps, and its only `BundleError` is `decryptionFailed`. -/
theorem openGCM_error {stop : Stop}
    (failed : (openGCM kit key nonce ciphertext tag aad).outcome = .error stop) :
    stop = .thrown (.bundle .decryptionFailed) ∨
      ∃ error, stop = .thrown (.cryptoKit error) := by
  unfold openGCM at failed
  cases nonceOutcome : kit.nonceError nonce with
  | some error =>
      rw [nonceOutcome] at failed
      cases failed
      exact .inr ⟨_, rfl⟩
  | none =>
      cases boxOutcome : kit.sealedBoxError nonce ciphertext tag with
      | some error =>
          rw [nonceOutcome, boxOutcome] at failed
          cases failed
          exact .inr ⟨_, rfl⟩
      | none => exact .inl ((openGCM_error_iff nonceOutcome boxOutcome).mp failed).1

end Boxes

end Crypto

/-- `Random.bytes(count)`; the state counts the draws made so far. -/
def Random.bytes (random : SystemRandom) (count : Nat) : Method Nat Bytes := do
  let draw ← Proc.read
  Proc.write (draw + 1)
  precondition (random.status draw = errSecSuccess)
    s!"SecRandomCopyBytes failed: status={random.status draw}"
  pure ((List.range count).map (random.byte draw))

end UltraLocked.Format
