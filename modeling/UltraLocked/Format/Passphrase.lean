import UltraLocked.Format.KDFLimits
import UltraLocked.Library.CanonicalEquivalence

/-!
# Equal passphrases

Swift compares Strings up to canonical equivalence, while a derivation hashes the
UTF-8 bytes of the passphrase as it stands.
-/

namespace UltraLocked.Format

open Library

/-- `left == right` for two Strings, under the character data of Unicode. -/
def Unicode.Equal (data : CharacterData) (left right : String) : Prop :=
  data.Equivalent left.toList right.toList

instance (data : CharacterData) (left right : String) :
    Decidable (Unicode.Equal data left right) :=
  inferInstanceAs (Decidable (data.Equivalent _ _))

namespace Argon2id

/-- The password bytes that an event hands to `argon2id_hash_raw`. -/
def passwordOf : ForeignCall → Option Bytes
  | .argon2id_hash_raw call => some call.password
  | _ => none

/-- The password bytes that a derivation hands to `argon2id_hash_raw`. -/
def passwords (argon2 : Argon2) (passphrase : String) (salt : Bytes)
    (parameters : Argon2idParameters) : List Bytes :=
  (deriveKey argon2 passphrase salt parameters).events.filterMap passwordOf

/-- What tells the bytes of non-empty passphrases apart, and these from the empty
passphrase, tells any two passphrases apart. -/
theorem injective_of_bytes {β : Type} {result : String → β} {ofBytes : Bytes → β}
    (injective : Function.Injective ofBytes) (refused : ∀ bytes, result "" ≠ ofBytes bytes)
    (returns : ∀ passphrase, passphrase ≠ "" → result passphrase = ofBytes (utf8 passphrase)) :
    Function.Injective result := by
  intro left right same
  by_cases leftEmpty : left = ""
  · by_cases rightEmpty : right = ""
    · rw [leftEmpty, rightEmpty]
    · rw [returns right rightEmpty, leftEmpty] at same
      exact absurd same (refused _)
  · rw [returns left leftEmpty] at same
    by_cases rightEmpty : right = ""
    · rw [rightEmpty] at same
      exact absurd same.symm (refused _)
    · rw [returns right rightEmpty] at same
      exact utf8_injective (injective same)

section Salted

variable {salt : Bytes} (sixteen : salt.length = 16) (parameters : Argon2idParameters)

include sixteen

theorem passwords_injective (argon2 : Argon2) :
    Function.Injective fun passphrase => passwords argon2 passphrase salt parameters := by
  refine injective_of_bytes List.singleton_injective (fun bytes => nofun) ?_
  intro passphrase nonempty
  rw [passwords, deriveKey_eq nonempty sixteen rfl]
  rfl

/-- A KDF that returns its password tells any two passphrases apart. -/
theorem exists_deriveKey_injective : ∃ argon2 : Argon2, Function.Injective fun passphrase =>
    (deriveKey argon2 passphrase salt parameters).outcome := by
  have injective : Function.Injective fun bytes => (.ok ⟨bytes⟩ : Throwing SymmetricKey) :=
    fun _ _ same => SymmetricKey.mk.inj (Except.ok.inj same)
  refine ⟨fun call => (argon2OK, call.password),
    injective_of_bytes injective (fun bytes => nofun) ?_⟩
  intro passphrase nonempty
  rw [deriveKey_eq nonempty sixteen rfl]
  rfl

/--
Of two equal Strings a derivation hashes the same bytes, and every KDF derives the
same key, exactly when they consist of the same scalars; so it is when both are
in one normalization form.
-/
theorem same_password_iff (data : CharacterData) (argon2 : Argon2) {left right : String}
    (equal : Unicode.Equal data left right) :
    (passwords argon2 left salt parameters = passwords argon2 right salt parameters ↔
      left.toList = right.toList) ∧
    ((∀ kdf : Argon2, (deriveKey kdf left salt parameters).outcome =
        (deriveKey kdf right salt parameters).outcome) ↔ left.toList = right.toList) ∧
    (∀ form : List Char → List Char,
      (∀ l r, data.Equivalent l r → form l = form r) →
      form left.toList = left.toList → form right.toList = right.toList →
      passwords argon2 left salt parameters = passwords argon2 right salt parameters) := by
  have scalars : left = right ↔ left.toList = right.toList := String.toList_inj.symm
  refine ⟨?_, ?_, ?_⟩
  · rw [← scalars]
    exact (passwords_injective sixteen parameters argon2).eq_iff
  · rw [← scalars]
    constructor
    · intro agree
      obtain ⟨kdf, injective⟩ := exists_deriveKey_injective sixteen parameters
      exact injective (agree kdf)
    · rintro rfl kdf
      rfl
  · intro form normalizes leftFixed rightFixed
    rw [scalars.mpr (equal.eq_of_form normalizes leftFixed rightFixed)]

/-- A passphrase differs in its password bytes from its own canonical decomposition
unless it is decomposed already; as Strings the two are always equal. -/
theorem password_normalForm_iff {data : CharacterData} (full : data.Full) (argon2 : Argon2)
    (passphrase : String) :
    Unicode.Equal data passphrase (String.ofList (data.normalForm passphrase.toList)) ∧
    (passwords argon2 passphrase salt parameters =
        passwords argon2 (String.ofList (data.normalForm passphrase.toList)) salt parameters ↔
      data.Normal passphrase.toList) := by
  constructor
  · rw [Unicode.Equal, String.toList_ofList]
    exact CharacterData.equivalent_normalForm full _
  · rw [(passwords_injective sixteen parameters argon2).eq_iff, ← String.toList_inj,
      String.toList_ofList]
    exact eq_comm

end Salted

/-- The Unicode data of the characters in the passphrases below. -/
def accents : CharacterData where
  mapping c := if c = Char.ofNat 0xE9 then [Char.ofNat 0x65, Char.ofNat 0x301] else [c]
  combiningClass c :=
    if c = Char.ofNat 0x301 then 230 else if c = Char.ofNat 0x323 then 220 else 0

theorem accents_full : accents.Full := by
  refine CharacterData.full_of_mapping ?_ ?_
  · intro c other d part
    simp only [accents] at part
    split at part
    · rcases List.mem_pair.mp part with rfl | rfl
      · decide
      · decide
    · rename_i plain
      cases List.mem_singleton.mp part
      exact ⟨other, if_neg plain⟩
  · rintro c ⟨first, -⟩
    refine if_neg ?_
    rintro rfl
    exact absurd first (by decide)

/-- An e with an acute accent, as one scalar and as two. -/
def composed : String := String.ofList [Char.ofNat 0xE9]
def decomposed : String := String.ofList [Char.ofNat 0x65, Char.ofNat 0x301]

example (argon2 : Argon2) :
    passwords argon2 composed minimalSalt minimalParams ≠
      passwords argon2 (String.ofList (accents.normalForm composed.toList)) minimalSalt
        minimalParams :=
  (password_normalForm_iff rfl minimalParams accents_full argon2 composed).2.not.mpr
    (by decide +kernel)

/-- An a with a dot below and an acute accent, the marks in either order. -/
def dotFirst : String :=
  String.ofList [Char.ofNat 0x61, Char.ofNat 0x323, Char.ofNat 0x301]
def acuteFirst : String :=
  String.ofList [Char.ofNat 0x61, Char.ofNat 0x301, Char.ofNat 0x323]

/-- The first Hangul syllable and its two letters. -/
def syllable : String := String.ofList [Char.ofNat 0xAC00]
def letters : String := String.ofList [Char.ofNat 0x1100, Char.ofNat 0x1161]

/-- Argon2id of the accented e under the minimal salt and parameters. -/
def accentedArgon2 : Argon2 := fun call =>
  (argon2OK,
    if call.password = utf8 composed then
      [203, 239, 66, 217, 148, 209, 26, 250, 105, 114, 66, 104, 43, 205, 193, 88,
        179, 251, 189, 204, 125, 70, 91, 166, 12, 121, 227, 127, 182, 191, 109, 84]
    else
      [192, 160, 234, 158, 139, 182, 92, 101, 19, 130, 175, 108, 243, 99, 168, 72,
        213, 183, 37, 151, 136, 62, 59, 217, 194, 247, 185, 48, 0, 106, 120, 147])

/-- Equal Strings that hand over different bytes and, for one of them, different keys. -/
theorem equal_strings_differ :
    (Unicode.Equal accents composed decomposed ∧
      passwords accentedArgon2 composed minimalSalt minimalParams ≠
        passwords accentedArgon2 decomposed minimalSalt minimalParams ∧
      (deriveKey accentedArgon2 composed minimalSalt minimalParams).outcome ≠
        (deriveKey accentedArgon2 decomposed minimalSalt minimalParams).outcome) ∧
    (Unicode.Equal accents dotFirst acuteFirst ∧
      passwords accentedArgon2 dotFirst minimalSalt minimalParams ≠
        passwords accentedArgon2 acuteFirst minimalSalt minimalParams) ∧
    (Unicode.Equal accents syllable letters ∧
      passwords accentedArgon2 syllable minimalSalt minimalParams ≠
        passwords accentedArgon2 letters minimalSalt minimalParams) := by
  have differ {left right : String} (scalars : left ≠ right) :
      passwords accentedArgon2 left minimalSalt minimalParams ≠
        passwords accentedArgon2 right minimalSalt minimalParams :=
    (passwords_injective rfl minimalParams accentedArgon2).ne scalars
  refine ⟨⟨by decide +kernel, differ (by decide +kernel), ?_⟩,
    ⟨by decide +kernel, differ (by decide +kernel)⟩,
    ⟨by decide +kernel, differ (by decide +kernel)⟩⟩
  decide +kernel

/-- The two forms of the accented e are not one passphrase to every KDF. -/
theorem accented_keys_differ :
    ¬ ∀ kdf : Argon2, (deriveKey kdf composed minimalSalt minimalParams).outcome =
      (deriveKey kdf decomposed minimalSalt minimalParams).outcome :=
  (same_password_iff rfl minimalParams accents accentedArgon2
    (show Unicode.Equal accents composed decomposed by decide +kernel)).2.1.not.mpr
      (by decide +kernel)

end Argon2id

end UltraLocked.Format
