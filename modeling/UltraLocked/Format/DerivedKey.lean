import UltraLocked.CArgon2.HashRuns
import UltraLocked.Format.KDFLimits

/-!
# The derived key on every machine

A bundle is sealed on one machine and opened on another. The key of a
passphrase is the same on both: it does not depend on what their memory held,
nor on the order in which their threads ran.
-/

namespace UltraLocked.Format.Argon2id

open Library

/-! ## The hash -/

/-- The checks look at the output of a context only to see that it is there. -/
theorem validateInputs_out (arguments : CArgon2.HashArguments) {out out' : CArgon2.Pointer}
    (there : out ≠ none) (there' : out' ≠ none) :
    CArgon2.validateInputs (some (CArgon2.contextOf out arguments)) =
      CArgon2.validateInputs (some (CArgon2.contextOf out' arguments)) := by
  have written : (CArgon2.contextOf out arguments).out ≠ none := there
  have written' : (CArgon2.contextOf out' arguments).out ≠ none := there'
  simp only [CArgon2.validateInputs, CArgon2.checkBuffers, checks_of_ok (refuseIf_neg written),
    checks_of_ok (refuseIf_neg written')]
  rfl

section Machines

variable {machine machine' : CArgon2.Machine} (runs : machine.Runs) (runs' : machine'.Runs)
  (provides : machine.Provides) (provides' : machine'.Provides)

include runs runs' provides provides'

/-- Two machines that provide memory and threads hash alike. -/
theorem argon2Hash_eq (arguments : CArgon2.HashArguments) (id : arguments.type = CArgon2.argon2id) :
    CArgon2.argon2Hash machine arguments = CArgon2.argon2Hash machine' arguments := by
  have there := provides.malloc arguments.hashlen
  have there' := provides'.malloc arguments.hashlen
  cases lengths : CArgon2.checkLengths arguments with
  | error code => rw [CArgon2.argon2Hash, CArgon2.argon2Hash, lengths]; rfl
  | ok =>
      have same := validateInputs_out arguments there there'
      cases inputs : CArgon2.validateInputs
          (some (CArgon2.contextOf (machine.malloc arguments.hashlen) arguments)) with
      | error code =>
          have inputs' := same.symm.trans inputs
          simp only [CArgon2.argon2Hash, CArgon2.argon2Ctx, checks_of_ok lengths,
            checks_of_ok (refuseIf_neg there), checks_of_ok (refuseIf_neg there'),
            checks_of_error inputs, checks_of_error inputs']
      | ok =>
          obtain ⟨tag, written⟩ := CArgon2.argon2Ctx_returns provides inputs rfl
          obtain ⟨tag', written'⟩ := CArgon2.argon2Ctx_returns provides' (same.symm.trans inputs) rfl
          have hashed := CArgon2.argon2Hash_eq_ok_iff.mpr ⟨lengths, there, id ▸ written⟩
          have hashed' := CArgon2.argon2Hash_eq_ok_iff.mpr ⟨lengths, there', id ▸ written'⟩
          obtain ⟨valid, own⟩ := CArgon2.argon2Hash_tag runs hashed none
          obtain ⟨valid', own'⟩ := CArgon2.argon2Hash_tag runs' hashed' none
          rw [hashed, hashed', own, own']

/--
`argon2id_hash_raw` is one function: for every call, machines that provide
memory and threads write the same tag or return the same error.
-/
theorem argon2idHashRaw_machines : argon2idHashRaw machine = argon2idHashRaw machine' := by
  funext call
  rw [argon2idHashRaw, argon2idHashRaw,
    argon2Hash_eq runs runs' provides provides' (hashArguments call) rfl]

end Machines

/-- Memory at another address, and with something else in it. -/
def otherMachine : CArgon2.Machine := { minimalMachine with malloc := fun _ => some [1] }

theorem otherMachine_provides : otherMachine.Provides :=
  ⟨fun _ => nofun, minimalMachine_provides.calloc, minimalMachine_provides.create,
    minimalMachine_provides.join⟩

theorem otherMachine_hashes :
    argon2idHashRaw minimalMachine.reference = argon2idHashRaw otherMachine.reference :=
  argon2idHashRaw_machines minimalMachine.reference_runs otherMachine.reference_runs
    (CArgon2.Machine.reference_provides minimalMachine_provides)
    (CArgon2.Machine.reference_provides otherMachine_provides)

/-! ## The key -/

/-- The context of a derivation, up to where its tag goes. -/
def contextOfKey (passphrase : String) (salt : Bytes) (parameters : Argon2idParameters) :
    CArgon2.Context :=
  CArgon2.contextOf none (hashArguments (callOf passphrase salt parameters))

/--
With eight blocks of memory for each lane, the key is the tag of the
specification, on any machine that provides memory and threads; and no run of
the library on any machine leads to another key.
-/
theorem deriveKey_tag {passphrase : String} (nonempty : passphrase ≠ "")
    (short : (utf8 passphrase).length ≤ 2 ^ 32 - 1) {salt : Bytes} (sixteen : salt.length = 16)
    (parameters : Argon2idParameters)
    (enough : 8 * parameters.parallelism.toNat ≤ parameters.memoryKiB.toNat) :
    ∃ valid : CArgon2.CostsValid (contextOfKey passphrase salt parameters),
      ∀ machine : CArgon2.Machine, machine.Runs →
        (machine.Provides →
          (deriveKey (argon2idHashRaw machine) passphrase salt parameters).outcome =
            .ok ⟨valid.tag CArgon2.argon2id⟩) ∧
        ∀ key, (deriveKey (argon2idHashRaw machine) passphrase salt parameters).outcome = .ok key →
          key = ⟨valid.tag CArgon2.argon2id⟩ := by
  have range := inRange nonempty short sixteen parameters
  have lanes : 8 * (hashArguments (callOf passphrase salt parameters)).parallelism.toNat ≤
      (hashArguments (callOf passphrase salt parameters)).mCost.toNat := by
    rwa [toNat_parallelism]
  refine ⟨⟨range.memory, lanes, range.time, range.lanes, range.lanes, rfl⟩,
    fun machine runs => ⟨fun provides => ?_, fun key derived => ?_⟩⟩
  · obtain ⟨tag, hashed⟩ := range.argon2Hash_returns provides rfl lanes
    obtain ⟨_, rfl⟩ := CArgon2.argon2Hash_tag runs hashed none
    rw [deriveKey_of_tag nonempty sixteen parameters hashed]
    rfl
  · cases hashed : CArgon2.argon2Hash machine
        (hashArguments (callOf passphrase salt parameters)) with
    | error code =>
        rw [deriveKey_of_error nonempty sixteen parameters hashed] at derived
        cases derived
    | ok tag =>
        obtain ⟨_, rfl⟩ := CArgon2.argon2Hash_tag runs hashed none
        rw [deriveKey_of_tag nonempty sixteen parameters hashed] at derived
        cases derived
        rfl

theorem minimalParams_tag :
    ∃ valid : CArgon2.CostsValid (contextOfKey "test" minimalSalt minimalParams),
      (deriveKey (argon2idHashRaw otherMachine.reference) "test" minimalSalt
        minimalParams).outcome = .ok ⟨valid.tag CArgon2.argon2id⟩ := by
  have nonempty : "test" ≠ "" := by decide
  have short : (utf8 "test").length ≤ 2 ^ 32 - 1 := by decide +kernel
  have sixteen : minimalSalt.length = 16 := rfl
  obtain ⟨valid, derives⟩ := deriveKey_tag nonempty short sixteen minimalParams (by decide)
  exact ⟨valid, (derives otherMachine.reference otherMachine.reference_runs).1
    (CArgon2.Machine.reference_provides otherMachine_provides)⟩

end UltraLocked.Format.Argon2id
