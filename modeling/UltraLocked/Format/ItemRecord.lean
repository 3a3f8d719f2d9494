import UltraLocked.Format.Crypto

/-!
# Item records

`ItemRecord.swift`: each item is sealed under its own key, with the header and
the item's id as AAD, and stored as ciphertext followed by tag.
-/

namespace UltraLocked.Format.ItemRecord

open Library

def tagSize : Int := 16

/-- Encrypt one plaintext: `ciphertext || tag`. -/
def encrypt (kit : CryptoKit) (plaintext : Bytes) (masterKey : SymmetricKey)
    (itemID : UUID) (nonce headerAAD : Bytes) : Calling Bytes := do
  let itemKey ← Crypto.deriveItemKey kit masterKey itemID
  let aad := headerAAD ++ itemID.rawBytes
  let (ciphertext, tag) ← Crypto.sealGCM kit itemKey nonce plaintext aad
  pure (ciphertext ++ tag)

/-- Split a sealed block into ciphertext and tag, its last 16 bytes. -/
def splitTag (block : Data) : Throwing (Bytes × Bytes) := do
  guardElse (block.count ≥ tagSize) (.truncated tagSize block.count)
  let tagOffset ← subInt block.count tagSize
  let ciphertext ← block.subdata 0 tagOffset
  let tag ← block.subdata tagOffset block.count
  pure (ciphertext.bytes, tag.bytes)

/-- Decrypt one record. -/
def decrypt (kit : CryptoKit) (record : Data) (masterKey : SymmetricKey) (itemID : UUID)
    (nonce headerAAD : Bytes) : Calling Bytes := do
  let normalized := record.copy
  let (ciphertext, tag) ← splitTag normalized
  let itemKey ← Crypto.deriveItemKey kit masterKey itemID
  let aad := headerAAD ++ itemID.rawBytes
  Crypto.openGCM kit itemKey nonce ciphertext tag aad

theorem splitTag_eq {block : Data} (fresh : block.startIndex = 0)
    (long : 16 ≤ block.bytes.length) :
    splitTag block = .ok (block.bytes.take (block.bytes.length - 16),
      block.bytes.drop (block.bytes.length - 16)) := by
  have bound := block.length_lt
  have enough : block.count ≥ tagSize := by
    simp only [Data.count, byteCount, tagSize]; omega
  have offset : subInt block.count tagSize = .ok ((block.bytes.length - 16 : Nat) : Int) := by
    have value : block.count - tagSize = ((block.bytes.length - 16 : Nat) : Int) := by
      simp only [Data.count, byteCount, tagSize]; omega
    rw [subInt_ok (by omega) (by omega), value]
  have first := Data.subdata_eq fresh 0 (block.bytes.length - 16) (by omega) (by omega)
  have second := Data.subdata_eq fresh (block.bytes.length - 16) block.bytes.length
    (by omega) (by omega)
  have whole : (block.bytes.drop (block.bytes.length - 16)).take
      (block.bytes.length - (block.bytes.length - 16)) =
      block.bytes.drop (block.bytes.length - 16) := by
    exact List.take_of_length_le (Nat.le_of_eq List.length_drop)
  simp only [Int.natCast_zero] at first
  rw [splitTag, guardElse_pos enough, throwing_bind_ok, offset, throwing_bind_ok, first,
    throwing_bind_ok]
  change (block.subdata _ (block.bytes.length : Nat) >>= fun _ => _) = _
  rw [second, throwing_bind_ok, Data.part_bytes, Data.part_bytes, whole, List.drop_zero,
    Nat.sub_zero]
  rfl

/-- A record of at least 16 bytes is opened under the item's own key and AAD. -/
theorem decrypt_eq {kit : CryptoKit} {record : Data} (long : 16 ≤ record.bytes.length)
    (masterKey : SymmetricKey) (itemID : UUID) (nonce headerAAD : Bytes) :
    decrypt kit record masterKey itemID nonce headerAAD =
      ⟨(Crypto.openGCM kit (Crypto.itemKey kit masterKey itemID) nonce
          (record.bytes.take (record.bytes.length - 16))
          (record.bytes.drop (record.bytes.length - 16))
          (headerAAD ++ itemID.rawBytes)).outcome,
        [.hkdf masterKey (Crypto.itemKeyInfoPrefix ++ itemID.rawBytes) Crypto.derivedKeySize,
          .openGCM (Crypto.itemKey kit masterKey itemID) nonce
            (record.bytes.take (record.bytes.length - 16))
            (record.bytes.drop (record.bytes.length - 16))
            (headerAAD ++ itemID.rawBytes)]⟩ := by
  rw [decrypt, splitTag_eq (Data.copy_startIndex record) long, Crypto.deriveItemKey_eq]
  simp only [Traced.liftM_def, Traced.bind_ok, Data.copy_bytes, Crypto.openGCM_events,
    List.nil_append, List.cons_append]

/-- Encrypting returns exactly when sealing under the item's own key and AAD does. -/
theorem encrypt_returns_iff {kit : CryptoKit} {plaintext : Bytes}
    {masterKey : SymmetricKey} {itemID : UUID} {nonce headerAAD record : Bytes}
    {events : List ForeignCall} :
    encrypt kit plaintext masterKey itemID nonce headerAAD = ⟨.ok record, events⟩ ↔
      kit.nonceError nonce = none ∧
      ∃ ciphertext tag, record = ciphertext ++ tag ∧
        kit.sealBox (Crypto.itemKey kit masterKey itemID) nonce plaintext
          (headerAAD ++ itemID.rawBytes) = .ok (ciphertext, tag) ∧
        events =
          [.hkdf masterKey (Crypto.itemKeyInfoPrefix ++ itemID.rawBytes)
              Crypto.derivedKeySize,
            .sealGCM (Crypto.itemKey kit masterKey itemID) nonce plaintext
              (headerAAD ++ itemID.rawBytes) ciphertext tag] := by
  rw [encrypt, Crypto.deriveItemKey_eq, Traced.bind_returns_iff]
  constructor
  · rintro ⟨key, before, after, same, rest, rfl⟩
    cases same
    obtain ⟨⟨ciphertext, tag⟩, sealing, nothing, sealed, done, rfl⟩ :=
      Traced.bind_returns_iff.mp rest
    cases done
    obtain ⟨accepted, boxed, rfl⟩ := Crypto.sealGCM_returns_iff.mp sealed
    exact ⟨accepted, ciphertext, tag, rfl, boxed, rfl⟩
  · rintro ⟨accepted, ciphertext, tag, rfl, sealed, rfl⟩
    have sealing := Crypto.sealGCM_returns_iff.mpr ⟨accepted, sealed, rfl⟩
    refine ⟨_, _, [.sealGCM _ nonce plaintext _ ciphertext tag], rfl, ?_, rfl⟩
    exact Traced.bind_returns_iff.mpr ⟨(ciphertext, tag), _, [], sealing, rfl, rfl⟩

end UltraLocked.Format.ItemRecord
