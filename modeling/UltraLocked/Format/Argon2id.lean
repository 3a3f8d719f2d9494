import UltraLocked.Format.BundleHeader
import UltraLocked.Format.Crypto

/-!
# Master-key derivation

`Argon2id.swift`. Parameters carry the fact that they are within the limits.
-/

namespace UltraLocked.Format

open Library

structure Argon2idParameters where
  timeCost : UInt32
  memoryKiB : UInt32
  parallelism : UInt8
  checked : BundleLimits.validateArgon2Params timeCost memoryKiB parallelism = .ok ()

namespace Argon2idParameters

def init (timeCost memoryKiB : UInt32) (parallelism : UInt8) :
    Throwing Argon2idParameters :=
  match passed : BundleLimits.validateArgon2Params timeCost memoryKiB parallelism with
  | .ok () => .ok ⟨timeCost, memoryKiB, parallelism, passed⟩
  | .error stop => .error stop

/-- The defaults of an export; they are within the limits. -/
def recommendedDefault : Argon2idParameters where
  timeCost := 3
  memoryKiB := 64 * 1024
  parallelism := 4
  checked := BundleLimits.validateArgon2Params_eq_ok_iff.mpr (by decide)

/-- Parameters that were validated once are accepted again. -/
theorem init_eq (parameters : Argon2idParameters) :
    init parameters.timeCost parameters.memoryKiB parameters.parallelism =
      .ok parameters := by
  unfold init
  split
  · rfl
  · rename_i failed
    rw [parameters.checked] at failed
    cases failed

end Argon2idParameters

/-- The KDF parameters of a header, which its initialiser has validated. -/
def BundleHeader.parameters (header : BundleHeader) : Argon2idParameters :=
  ⟨header.argon2TimeCost, header.argon2MemoryKiB, header.argon2Parallelism,
    header.argon2Params_valid⟩

theorem BundleHeader.parameters_init (header : BundleHeader) :
    Argon2idParameters.init header.argon2TimeCost header.argon2MemoryKiB
      header.argon2Parallelism = .ok header.parameters :=
  Argon2idParameters.init_eq header.parameters

namespace Argon2id

def keyLengthBytes : Nat := 32

def argon2OK : Int32 := 0

/-- One call to `argon2id_hash_raw`. -/
def hashRaw (argon2 : Argon2) (call : Argon2Call) : Calling (Int32 × Bytes) := do
  Traced.emit (.argon2id_hash_raw call)
  pure (argon2 call)

/-- Derive a 32-byte master key from the passphrase and salt. -/
def deriveKey (argon2 : Argon2) (passphrase : String) (salt : Bytes)
    (parameters : Argon2idParameters) : Calling SymmetricKey := do
  guardElse (¬ passphrase.isEmpty)
    (.parameterOutOfBounds "passphrase must not be empty")
  guardElse (byteCount salt = BundleHeader.saltSize)
    (.parameterOutOfBounds
      s!"salt must be {BundleHeader.saltSize} bytes, got {byteCount salt}")
  let pwdData := utf8 passphrase
  guardElse (¬ pwdData.isEmpty)
    (.parameterOutOfBounds "passphrase utf-8 encoding produced zero bytes")
  let (result, keyBuffer) ← hashRaw argon2
    ⟨parameters.timeCost, parameters.memoryKiB, parameters.parallelism.toUInt32, pwdData,
      salt, keyLengthBytes⟩
  guardElse (result = argon2OK)
    (.parameterOutOfBounds s!"argon2id_hash_raw failed with code {result}")
  pure ⟨keyBuffer⟩

/-- The call that a derivation makes when it passes its own checks. -/
def callOf (passphrase : String) (salt : Bytes) (parameters : Argon2idParameters) :
    Argon2Call :=
  ⟨parameters.timeCost, parameters.memoryKiB, parameters.parallelism.toUInt32,
    utf8 passphrase, salt, keyLengthBytes⟩

/-- A derivation hands its arguments to one call, whose code decides the result. -/
theorem deriveKey_eq {argon2 : Argon2} {passphrase : String} {salt : Bytes}
    {parameters : Argon2idParameters} {result : Int32} {keyBuffer : Bytes}
    (nonempty : passphrase ≠ "") (sixteen : salt.length = 16)
    (called : argon2 (callOf passphrase salt parameters) = (result, keyBuffer)) :
    deriveKey argon2 passphrase salt parameters =
      ⟨guardElse (result = argon2OK)
          (.parameterOutOfBounds s!"argon2id_hash_raw failed with code {result}") >>=
            fun _ => .ok ⟨keyBuffer⟩,
        [.argon2id_hash_raw (callOf passphrase salt parameters)]⟩ := by
  have bytes : ¬ (utf8 passphrase).isEmpty := by
    rw [List.isEmpty_iff]
    exact utf8_ne_nil nonempty
  have count : byteCount salt = BundleHeader.saltSize := by
    rw [byteCount, sixteen]
    rfl
  have hashed : hashRaw argon2 (callOf passphrase salt parameters) =
      ⟨.ok (result, keyBuffer), [.argon2id_hash_raw (callOf passphrase salt parameters)]⟩ := by
    rw [hashRaw, called]
    rfl
  rw [deriveKey, guardElse_pos (mt String.isEmpty_iff.mp nonempty), Traced.liftM_def,
    Traced.bind_silent, guardElse_pos count, Traced.liftM_def, Traced.bind_silent]
  simp only [guardElse_pos bytes, Traced.liftM_def, Traced.bind_silent]
  rw [← callOf, hashed, Traced.bind_ok, Traced.outcome_bind,
    Traced.events_bind_quiet fun _ => rfl]
  rfl

/-- What a call to `argon2id_hash_raw` is allowed to ask for. -/
structure WithinLimits (call : Argon2Call) : Prop where
  timeCost : 1 ≤ call.timeCost.toNat ∧ call.timeCost.toNat ≤ 10
  memoryCost : 8 ≤ call.memoryCost.toNat ∧ call.memoryCost.toNat ≤ 262144
  parallelism : 1 ≤ call.parallelism.toNat ∧ call.parallelism.toNat ≤ 8
  salt : call.salt.length = 16
  password : call.password ≠ []
  hashLength : call.hashLength = 32

/-- Every call made is within the limits, and only a `BundleError` is thrown. -/
theorem deriveKey_sat (argon2 : Argon2) (passphrase : String) (salt : Bytes)
    (parameters : Argon2idParameters) :
    (deriveKey argon2 passphrase salt parameters).Sat
      (fun event => ∃ call, event = .argon2id_hash_raw call ∧ WithinLimits call)
      (fun _ => True) Stop.IsBundleError := by
  have bounds := BundleLimits.validateArgon2Params_eq_ok_iff.mp parameters.checked
  refine .bind (fun _ => True) (.of_except (fun _ _ => trivial) Clean.of_guard)
    fun _ _ => ?_
  refine .bind (fun _ => salt.length = 16) (.of_except ?_ Clean.of_guard)
    fun _ saltLength => ?_
  · rintro ⟨⟩ passed
    have count := guardElse_eq_ok_iff.mp passed
    simp only [byteCount, BundleHeader.saltSize] at count
    omega
  refine .bind (fun _ => utf8 passphrase ≠ []) (.of_except ?_ Clean.of_guard)
    fun _ nonempty => ?_
  · rintro ⟨⟩ passed
    have some := guardElse_eq_ok_iff.mp passed
    simpa using some
  refine .bind (fun _ => True) ?_ fun _ _ => ?_
  · refine .bind _ (.of_emit ⟨_, rfl, ?_⟩) fun _ _ => .of_pure trivial
    exact ⟨bounds.1, bounds.2.1, by simpa using bounds.2.2, saltLength, nonempty, rfl⟩
  · exact .bind (fun _ => True) (.of_except (fun _ _ => trivial) Clean.of_guard)
      fun _ _ => .of_pure trivial

end Argon2id

end UltraLocked.Format
