import UltraLocked.Format.Foundation

/-!
# What the package calls outside itself

CryptoKit, libargon2, Foundation's JSON coders and the system random number
generator are parameters of the model. Each call that the package makes to
one of the first two is an event. The laws below are the documented behaviour
that single results rely on; every result names the laws it uses.
-/

namespace UltraLocked.Format

open Library

structure SymmetricKey where
  data : Bytes
  deriving DecidableEq, Repr

/-- The arguments of `argon2id_hash_raw`, buffers with their lengths. -/
structure Argon2Call where
  timeCost : UInt32
  memoryCost : UInt32
  parallelism : UInt32
  password : Bytes
  salt : Bytes
  hashLength : Nat
  deriving DecidableEq, Repr

/-- `argon2id_hash_raw`: the result code and what it leaves in the hash buffer. -/
abbrev Argon2 : Type := Argon2Call → Int32 × Bytes

structure CryptoKit where
  /-- `HKDF<SHA256>.deriveKey(inputKeyMaterial:info:outputByteCount:)` -/
  hkdf : SymmetricKey → Bytes → Nat → SymmetricKey
  /-- `AES.GCM.Nonce(data:)`: the error with which it rejects the data. -/
  nonceError : Bytes → Option CryptoKitError
  /-- `AES.GCM.seal(_:using:nonce:authenticating:)` of key, nonce, plaintext and AAD:
  ciphertext and tag. -/
  sealBox : SymmetricKey → Bytes → Bytes → Bytes → Except CryptoKitError (Bytes × Bytes)
  /-- `AES.GCM.SealedBox(nonce:ciphertext:tag:)`: the error with which it rejects. -/
  sealedBoxError : Bytes → Bytes → Bytes → Option CryptoKitError
  /-- `AES.GCM.open(_:using:authenticating:)` of key, nonce, ciphertext, tag and AAD. -/
  openBox : SymmetricKey → Bytes → Bytes → Bytes → Bytes → Except CryptoKitError Bytes

/-- `JSONEncoder` and `JSONDecoder` under the strategies the package sets. -/
structure JSONCoding (Document : Type) where
  encode : Document → Except String Data
  decode : Bytes → Except String Document

/-- `SecRandomCopyBytes`: status and bytes of the `n`-th call of the process. -/
structure SystemRandom where
  status : Nat → Int32
  byte : Nat → Nat → UInt8

/-- One call made outside the package; a seal that CryptoKit refuses is a call too. -/
inductive ForeignCall where
  | argon2id_hash_raw (call : Argon2Call)
  | hkdf (inputKeyMaterial : SymmetricKey) (info : Bytes) (outputByteCount : Nat)
  | sealGCM (key : SymmetricKey) (nonce plaintext aad ciphertext tag : Bytes)
  | sealGCMRefused (key : SymmetricKey) (nonce plaintext aad : Bytes)
  | openGCM (key : SymmetricKey) (nonce ciphertext tag aad : Bytes)
  deriving DecidableEq, Repr

/-- A throwing function that may call outside the package. -/
abbrev Calling : Type → Type := Traced ForeignCall Stop

abbrev Method (σ : Type) : Type → Type := Proc σ ForeignCall Stop

/-! ## Documented behaviour -/

namespace CryptoKit

variable (kit : CryptoKit)

/-- `AES.GCM.Nonce` rejects only data shorter than 12 bytes. -/
def NonceLaw : Prop :=
  ∀ nonce, 12 ≤ nonce.length → kit.nonceError nonce = none

/-- `AES.GCM.SealedBox` rejects only tags that are not 16 bytes long. -/
def SealedBoxLaw : Prop :=
  ∀ nonce ciphertext tag, tag.length = 16 →
    kit.sealedBoxError nonce ciphertext tag = none

/-- A sealed plaintext has a ciphertext of its own length and a 16-byte tag. -/
def SealLengthLaw : Prop :=
  ∀ key nonce plaintext aad ciphertext tag,
    kit.sealBox key nonce plaintext aad = .ok (ciphertext, tag) →
    ciphertext.length = plaintext.length ∧ tag.length = 16

/-- A 256-bit key seals every plaintext below the 64 GiB limit of AES-GCM. -/
def SealTotalLaw : Prop :=
  ∀ key nonce plaintext aad, key.data.length = 32 → 12 ≤ nonce.length →
    plaintext.length < 2 ^ 36 - 32 →
    ∃ box, kit.sealBox key nonce plaintext aad = .ok box

/-- Whether and how sealing fails depends on the length of the plaintext alone. -/
def SealUniformLaw : Prop :=
  ∀ key nonce plaintext other aad error, plaintext.length = other.length →
    kit.sealBox key nonce plaintext aad = .error error →
    kit.sealBox key nonce other aad = .error error

def HKDFLengthLaw : Prop :=
  ∀ key info count, (kit.hkdf key info count).data.length = count

def OpenSealLaw : Prop :=
  ∀ key nonce plaintext aad ciphertext tag,
    kit.sealBox key nonce plaintext aad = .ok (ciphertext, tag) →
    kit.openBox key nonce ciphertext tag aad = .ok plaintext

def OpenLengthLaw : Prop :=
  ∀ key nonce ciphertext tag aad plaintext,
    kit.openBox key nonce ciphertext tag aad = .ok plaintext →
    plaintext.length = ciphertext.length

end CryptoKit

def errSecSuccess : Int32 := 0

def SystemRandom.SuccessLaw (random : SystemRandom) : Prop :=
  ∀ draw, random.status draw = errSecSuccess

end UltraLocked.Format
