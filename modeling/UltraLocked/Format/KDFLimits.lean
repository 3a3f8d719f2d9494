import UltraLocked.CArgon2.Hash
import UltraLocked.Format.Session

/-!
# The limits of the format and those of libargon2

The package bounds each cost alone; libargon2 also compares memory with lanes.
Here `argon2id_hash_raw` is the vendored library.
-/

namespace UltraLocked.Format

open Library

namespace Argon2id

/-- `baseAddress` of a buffer; an empty one may have none. -/
def baseAddress (bytes : Bytes) : CArgon2.Pointer :=
  if bytes.isEmpty then none else some bytes

/-- What `argon2id_hash_raw` passes on to `argon2_hash`. -/
def hashArguments (call : Argon2Call) : CArgon2.HashArguments where
  tCost := call.timeCost
  mCost := call.memoryCost
  parallelism := call.parallelism
  pwd := baseAddress call.password
  pwdlen := UInt64.ofNat call.password.length
  salt := baseAddress call.salt
  saltlen := UInt64.ofNat call.salt.length
  hashlen := UInt64.ofNat call.hashLength
  type := CArgon2.argon2id
  version := CArgon2.versionNumber

/-- `argon2id_hash_raw`; an error leaves the zeroed hash buffer as it is. -/
def argon2idHashRaw (machine : CArgon2.Machine) : Argon2 := fun call =>
  match CArgon2.argon2Hash machine (hashArguments call) with
  | .ok tag => (argon2OK, tag)
  | .error code => (code.rawValue, List.replicate call.hashLength 0)

/-- What the caller of a derivation relies on. -/
structure Accepted (machine : CArgon2.Machine) (passphrase : String) (salt : Bytes)
    (parameters : Argon2idParameters) : Prop where
  /-- The arguments handed over pass the checks of libargon2. -/
  checksPass : ∃ call,
    (deriveKey (argon2idHashRaw machine) passphrase salt parameters).events =
        [.argon2id_hash_raw call] ∧
      CArgon2.ChecksPass machine (hashArguments call)
  returns : ∃ key,
    (deriveKey (argon2idHashRaw machine) passphrase salt parameters).outcome = .ok key

theorem baseAddress_ne_none {bytes : Bytes} (nonempty : bytes ≠ []) :
    baseAddress bytes ≠ none := by
  rw [baseAddress, if_neg (mt List.isEmpty_iff.mp nonempty)]
  exact Option.some_ne_none bytes

theorem toNat_parallelism (passphrase : String) (salt : Bytes)
    (parameters : Argon2idParameters) :
    (hashArguments (callOf passphrase salt parameters)).parallelism.toNat =
      parameters.parallelism.toNat :=
  UInt8.toNat_toUInt32 _

section Linked

variable {machine : CArgon2.Machine} {passphrase : String} (nonempty : passphrase ≠ "")
  {salt : Bytes} (sixteen : salt.length = 16) (parameters : Argon2idParameters)

include nonempty sixteen

theorem deriveKey_of_error {code : CArgon2.ErrorCode}
    (failed : CArgon2.argon2Hash machine (hashArguments (callOf passphrase salt parameters)) =
      .error code) :
    (deriveKey (argon2idHashRaw machine) passphrase salt parameters).outcome =
      throwBundle (.parameterOutOfBounds
        s!"argon2id_hash_raw failed with code {code.rawValue}") := by
  have result : argon2idHashRaw machine (callOf passphrase salt parameters) =
      (code.rawValue, List.replicate keyLengthBytes 0) := by
    rw [argon2idHashRaw, failed]
    rfl
  have other : code.rawValue ≠ argon2OK := code.rawValue_ne_zero
  rw [deriveKey_eq nonempty sixteen result, guardElse_neg other]
  rfl

theorem deriveKey_of_tag {tag : Bytes}
    (hashed : CArgon2.argon2Hash machine (hashArguments (callOf passphrase salt parameters)) =
      .ok tag) :
    deriveKey (argon2idHashRaw machine) passphrase salt parameters =
      ⟨.ok ⟨tag⟩, [.argon2id_hash_raw (callOf passphrase salt parameters)]⟩ := by
  have result : argon2idHashRaw machine (callOf passphrase salt parameters) =
      (argon2OK, tag) := by
    rw [argon2idHashRaw, hashed]
  rw [deriveKey_eq nonempty sixteen result]
  rfl

end Linked

section Call

variable {passphrase : String} (nonempty : passphrase ≠ "")
  (short : (utf8 passphrase).length ≤ 2 ^ 32 - 1)
  {salt : Bytes} (sixteen : salt.length = 16) (parameters : Argon2idParameters)

include nonempty short sixteen

/-- Validated parameters are in the range that libargon2 allows for each alone. -/
theorem inRange : CArgon2.InRange (hashArguments (callOf passphrase salt parameters)) := by
  have bounds := BundleLimits.validateArgon2Params_eq_ok_iff.mp parameters.checked
  have pwdlen : (UInt64.ofNat (utf8 passphrase).length).toNat = (utf8 passphrase).length :=
    UInt64.toNat_ofNat_of_lt' (by change _ < 2 ^ 64; omega)
  have salted : salt ≠ [] := by
    rintro rfl
    cases sixteen
  have saltlen : (hashArguments (callOf passphrase salt parameters)).saltlen.toNat = 16 := by
    change (UInt64.ofNat salt.length).toNat = 16
    rw [sixteen]
    rfl
  have hashlen : (hashArguments (callOf passphrase salt parameters)).hashlen.toNat = 32 := rfl
  have lanes := toNat_parallelism passphrase salt parameters
  exact
    { pwd := baseAddress_ne_none (utf8_ne_nil nonempty)
      pwdlen := pwdlen.trans_le short
      salt := baseAddress_ne_none salted
      saltlen := by omega
      hashlen := by omega
      time := bounds.1.1
      memory := bounds.2.1.1
      lanes := by omega }

variable {machine : CArgon2.Machine} (provides : machine.Provides)

include provides

/-- Too little memory for the lanes ends in `ARGON2_MEMORY_TOO_LITTLE`. -/
theorem deriveKey_refuses
    (little : parameters.memoryKiB.toNat < 8 * parameters.parallelism.toNat) :
    (deriveKey (argon2idHashRaw machine) passphrase salt parameters).outcome =
      throwBundle (.parameterOutOfBounds "argon2id_hash_raw failed with code -14") := by
  have refused := (inRange nonempty short sixteen parameters).argon2Hash_refuses provides
    (by rwa [toNat_parallelism])
  rw [deriveKey_of_error nonempty sixteen parameters refused]
  rfl

/--
Libargon2 accepts validated parameters exactly when they leave eight blocks of
memory to each lane.
-/
theorem accepted_iff :
    Accepted machine passphrase salt parameters ↔
      8 * parameters.parallelism.toNat ≤ parameters.memoryKiB.toNat := by
  constructor
  · intro accepted
    by_contra little
    obtain ⟨key, returned⟩ := accepted.returns
    rw [deriveKey_refuses nonempty short sixteen parameters provides (Nat.lt_of_not_le little)]
      at returned
    cases returned
  · intro enough
    have lanes : 8 * (hashArguments (callOf passphrase salt parameters)).parallelism.toNat ≤
        (hashArguments (callOf passphrase salt parameters)).mCost.toNat := by
      rwa [toNat_parallelism]
    have range := inRange nonempty short sixteen parameters
    obtain ⟨tag, hashed⟩ := range.argon2Hash_returns provides rfl lanes
    have derived := deriveKey_of_tag nonempty sixteen parameters hashed
    constructor
    · refine ⟨callOf passphrase salt parameters, ?_, (range.checksPass_iff provides).mpr lanes⟩
      rw [derived]
    · exact ⟨⟨tag⟩, by rw [derived]⟩

end Call

/-- Nothing fails, and the tag is that of `test` under the salt and parameters below. -/
def minimalMachine : CArgon2.Machine where
  malloc _ := some []
  calloc _ _ := some []
  create _ _ _ := 0
  join _ _ _ := 0
  finalize _ _ :=
    [188, 107, 26, 30, 181, 247, 17, 214, 147, 8, 114, 82, 119, 124, 211, 147,
      220, 33, 9, 143, 125, 27, 30, 250, 221, 174, 61, 235, 70, 174, 161, 239]

theorem minimalMachine_provides : minimalMachine.Provides :=
  ⟨fun _ => nofun, fun _ _ => nofun, fun _ _ _ => rfl, fun _ _ _ => rfl⟩

def minimalSalt : Bytes := List.replicate 16 0xAB

/-- One pass over 8 KiB in one lane. -/
def minimalParams : Argon2idParameters where
  timeCost := 1
  memoryKiB := 8
  parallelism := 1
  checked := BundleLimits.validateArgon2Params_eq_ok_iff.mpr (by decide)

theorem minimalParams_accepted : Accepted minimalMachine "test" minimalSalt minimalParams :=
  (accepted_iff (by decide) (by decide +kernel) rfl minimalParams minimalMachine_provides).mpr
    (by decide)

/-- The same memory for two lanes. -/
def crowdedParams : Argon2idParameters where
  timeCost := 1
  memoryKiB := 8
  parallelism := 2
  checked := BundleLimits.validateArgon2Params_eq_ok_iff.mpr (by decide)

/-- The constructor accepts it and libargon2 refuses it. -/
theorem crowdedParams_refused :
    Argon2idParameters.init 1 8 2 = .ok crowdedParams ∧
      ¬ Accepted minimalMachine "test" minimalSalt crowdedParams ∧
      (deriveKey (argon2idHashRaw minimalMachine) "test" minimalSalt crowdedParams).outcome =
        throwBundle (.parameterOutOfBounds "argon2id_hash_raw failed with code -14") := by
  have refused := deriveKey_refuses (show "test" ≠ "" by decide) (by decide +kernel)
    (show minimalSalt.length = 16 from rfl) crowdedParams minimalMachine_provides (by decide)
  refine ⟨crowdedParams.init_eq, fun accepted => ?_, refused⟩
  obtain ⟨key, returned⟩ := accepted.returns
  cases refused.symm.trans returned

end Argon2id

namespace BundleHeader

/-- Every validated triple of costs stands in the header of some accepted input. -/
theorem exists_parsed_parameters (parameters : Argon2idParameters) :
    ∃ input header, parse input = .ok header ∧ header.parameters = parameters := by
  have checked : check 1 1 parameters.timeCost parameters.memoryKiB parameters.parallelism
      (List.replicate 16 0) (List.replicate 12 0) 16 = .ok () :=
    check_eq_ok_iff.mpr ⟨rfl, rfl, rfl, rfl, parameters.checked, by decide⟩
  obtain ⟨input, -, parsed⟩ := exists_parsed ⟨_, _, _, _, _, _, _, _, checked⟩
  exact ⟨input, _, parsed, rfl⟩

end BundleHeader

namespace BundleParser

/-- No passphrase unlocks a bundle whose header leaves its lanes too little memory. -/
theorem unlockPassphrase_refuses {machine : CArgon2.Machine} (provides : machine.Provides)
    {platform : Platform} (linked : platform.argon2 = Argon2id.argon2idHashRaw machine)
    (parser : BundleParser)
    (little : parser.header.argon2MemoryKiB.toNat <
      8 * parser.header.argon2Parallelism.toNat)
    {passphrase : String} (nonempty : passphrase ≠ "")
    (short : (utf8 passphrase).length ≤ 2 ^ 32 - 1) :
    ∃ events, unlockPassphrase platform passphrase parser =
      (⟨throwBundle (.parameterOutOfBounds "argon2id_hash_raw failed with code -14"), events⟩,
        parser) := by
  have refused := Argon2id.deriveKey_refuses nonempty short parser.header.length_salt
    parser.header.parameters provides little
  have stopped : (passphraseKey platform parser.header passphrase).outcome =
      throwBundle (.parameterOutOfBounds "argon2id_hash_raw failed with code -14") := by
    rw [passphraseKey, parser.header.parameters_init, linked]
    exact refused
  refine ⟨(passphraseKey platform parser.header passphrase).events, ?_⟩
  rw [unlockPassphrase_run]
  refine unlock_error ?_
  rw [attempt, Traced.eq_of_outcome stopped]
  rfl

end BundleParser

end UltraLocked.Format
