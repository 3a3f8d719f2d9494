import UltraLocked.Format.Foundation

/-!
# Hard caps on parser inputs

The constants and validators of `BundleLimits.swift`. Each validator has one
lemma that says exactly when it passes and one that says that it fails cleanly.
-/

namespace UltraLocked.Format.BundleLimits

def argon2TimeCostMin : UInt32 := 1
def argon2TimeCostMax : UInt32 := 10
def argon2MemoryKiBMin : UInt32 := 8
def argon2MemoryKiBMax : UInt32 := 256 * 1024
def argon2ParallelismMin : UInt8 := 1
def argon2ParallelismMax : UInt8 := 8
def manifestSizeMin : UInt32 := 16
def manifestSizeMax : UInt32 := 1 * 1024 * 1024
def itemSizeMin : UInt64 := 16
def itemSizeMax : UInt64 := 250 * 1024 * 1024
def totalFileSizeMax : UInt64 := 2 * 1024 * 1024 * 1024

def validateArgon2Params (timeCost memoryKiB : UInt32) (parallelism : UInt8) :
    Throwing Unit := do
  guardElse (argon2TimeCostMin ≤ timeCost ∧ timeCost ≤ argon2TimeCostMax)
    (.parameterOutOfBounds
      s!"argon2.time_cost {timeCost} outside [{argon2TimeCostMin}, {argon2TimeCostMax}]")
  guardElse (argon2MemoryKiBMin ≤ memoryKiB ∧ memoryKiB ≤ argon2MemoryKiBMax)
    (.parameterOutOfBounds
      s!"argon2.memory_kib {memoryKiB} outside [{argon2MemoryKiBMin}, {argon2MemoryKiBMax}]")
  guardElse (argon2ParallelismMin ≤ parallelism ∧ parallelism ≤ argon2ParallelismMax)
    (.parameterOutOfBounds
      s!"argon2.parallelism {parallelism} outside [{argon2ParallelismMin}, {argon2ParallelismMax}]")

def validateManifestSize (size : UInt64) : Throwing Unit := do
  guardElse (manifestSizeMin.toUInt64 ≤ size)
    (.parameterOutOfBounds s!"manifest_size {size} < min {manifestSizeMin}")
  guardElse (size ≤ manifestSizeMax.toUInt64)
    (.parameterOutOfBounds s!"manifest_size {size} > max {manifestSizeMax}")

def validateItemSize (size : UInt64) : Throwing Unit := do
  guardElse (itemSizeMin ≤ size)
    (.parameterOutOfBounds s!"item_size {size} < min {itemSizeMin}")
  guardElse (size ≤ itemSizeMax)
    (.parameterOutOfBounds s!"item_size {size} > max {itemSizeMax}")

def validateTotalFileSize (size : UInt64) : Throwing Unit :=
  guardElse (size ≤ totalFileSizeMax)
    (.parameterOutOfBounds s!"total file size {size} > max {totalFileSizeMax}")

theorem validateArgon2Params_eq_ok_iff {timeCost memoryKiB : UInt32}
    {parallelism : UInt8} :
    validateArgon2Params timeCost memoryKiB parallelism = .ok () ↔
      (1 ≤ timeCost.toNat ∧ timeCost.toNat ≤ 10) ∧
      (8 ≤ memoryKiB.toNat ∧ memoryKiB.toNat ≤ 262144) ∧
      (1 ≤ parallelism.toNat ∧ parallelism.toNat ≤ 8) := by
  simp only [validateArgon2Params, guards_eq_ok_iff, guardElse_eq_ok_iff,
    UInt32.le_iff_toNat_le, UInt8.le_iff_toNat_le]
  exact Iff.rfl

theorem validateManifestSize_eq_ok_iff {size : UInt64} :
    validateManifestSize size = .ok () ↔
      16 ≤ size.toNat ∧ size.toNat ≤ 1048576 := by
  simp only [validateManifestSize, guards_eq_ok_iff, guardElse_eq_ok_iff,
    UInt64.le_iff_toNat_le]
  exact Iff.rfl

theorem validateItemSize_eq_ok_iff {size : UInt64} :
    validateItemSize size = .ok () ↔
      16 ≤ size.toNat ∧ size.toNat ≤ 262144000 := by
  simp only [validateItemSize, guards_eq_ok_iff, guardElse_eq_ok_iff,
    UInt64.le_iff_toNat_le]
  exact Iff.rfl

theorem validateTotalFileSize_eq_ok_iff {size : UInt64} :
    validateTotalFileSize size = .ok () ↔ size.toNat ≤ 2147483648 := by
  simp only [validateTotalFileSize, guardElse_eq_ok_iff, UInt64.le_iff_toNat_le]
  exact Iff.rfl

theorem validateArgon2Params_clean (timeCost memoryKiB : UInt32) (parallelism : UInt8) :
    Clean (validateArgon2Params timeCost memoryKiB parallelism) :=
  .guards .of_guard (.guards .of_guard .of_guard)

theorem validateManifestSize_clean (size : UInt64) : Clean (validateManifestSize size) :=
  .guards .of_guard .of_guard

theorem validateItemSize_clean (size : UInt64) : Clean (validateItemSize size) :=
  .guards .of_guard .of_guard

theorem validateTotalFileSize_clean (size : UInt64) :
    Clean (validateTotalFileSize size) :=
  .of_guard

end UltraLocked.Format.BundleLimits
