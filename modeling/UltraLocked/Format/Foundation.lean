import Mathlib.Algebra.Group.Int.Defs
import Mathlib.Algebra.Ring.Nat
import Mathlib.Data.List.Nodup
import UltraLocked.Library.Checks
import UltraLocked.Library.Effects

/-!
# The Swift values the package works with

Errors, traps, fixed-width conversions, byte buffers, identifiers and dates.
A throwing Swift function is a function into `Throwing`: it returns, throws or
traps, and a trap ends the process. `Bytes` is the content of a buffer that
the code builds itself; `Data` is a buffer handed in from outside, which may
be a slice whose indices do not start at zero.
-/

namespace UltraLocked.Format

inductive BundleError where
  | invalidHeader (message : String)
  | unsupportedVersion (version : UInt16)
  | unsupportedKDF (id : UInt8)
  | parameterOutOfBounds (message : String)
  | decryptionFailed
  | manifestParseFailed (message : String)
  | truncated (expected actual : Int)
  deriving DecidableEq, Repr

/-- The errors of `AES.GCM` that can leave `Crypto.swift`. -/
inductive CryptoKitError where
  | incorrectKeySize
  | incorrectParameterSize
  | authenticationFailure
  | underlyingCoreCryptoError (code : Int32)
  deriving DecidableEq, Repr

/-- What a function of the package can throw. -/
inductive Thrown where
  | bundle (error : BundleError)
  | cryptoKit (error : CryptoKitError)
  | encoding (message : String)
  deriving DecidableEq, Repr

/-- The run-time checks that end the process when they fail. -/
inductive Trap where
  | arithmeticOverflow
  | inexactConversion
  | indexOutOfRange
  | precondition (message : String)
  deriving DecidableEq, Repr

/-- Why a function did not return. -/
inductive Stop where
  | thrown (error : Thrown)
  | trapped (trap : Trap)
  deriving DecidableEq, Repr

abbrev Throwing : Type → Type := Except Stop

/-- `throw BundleError...` -/
def throwBundle {α : Type} (error : BundleError) : Throwing α :=
  .error (.thrown (.bundle error))

/-- `guard condition else { throw error }` -/
def guardElse (condition : Prop) [Decidable condition] (error : BundleError) :
    Throwing Unit :=
  if condition then .ok () else throwBundle error

/-- `precondition(condition, message)` -/
def precondition (condition : Prop) [Decidable condition] (message : String) :
    Throwing Unit :=
  if condition then .ok () else .error (.trapped (.precondition message))

/-- The function ended by throwing a `BundleError`. -/
def Stop.IsBundleError (stop : Stop) : Prop :=
  ∃ error, stop = .thrown (.bundle error)

@[simp] theorem guardElse_eq_ok_iff {condition : Prop} [Decidable condition]
    {error : BundleError} : guardElse condition error = .ok () ↔ condition := by
  unfold guardElse throwBundle
  split <;> simp_all

theorem guardElse_eq_error_iff {condition : Prop} [Decidable condition]
    {error : BundleError} {stop : Stop} :
    guardElse condition error = .error stop ↔
      ¬ condition ∧ stop = .thrown (.bundle error) := by
  unfold guardElse throwBundle
  split <;> simp_all [eq_comm]

theorem guardElse_pos {condition : Prop} [Decidable condition] {error : BundleError}
    (holds : condition) : guardElse condition error = .ok () :=
  if_pos holds

theorem guardElse_neg {condition : Prop} [Decidable condition] {error : BundleError}
    (fails : ¬ condition) : guardElse condition error = throwBundle error :=
  if_neg fails

@[simp] theorem precondition_eq_ok_iff {condition : Prop} [Decidable condition]
    {message : String} : precondition condition message = .ok () ↔ condition := by
  unfold precondition
  split <;> simp_all

theorem precondition_pos {condition : Prop} [Decidable condition] {message : String}
    (holds : condition) : precondition condition message = .ok () :=
  if_pos holds

theorem throwBundle_isBundleError {error : BundleError} :
    Stop.IsBundleError (.thrown (.bundle error)) := ⟨error, rfl⟩

/-! ## Sequencing in `Throwing` -/

theorem throwing_bind_eq_ok_iff {α β : Type} {x : Throwing α} {f : α → Throwing β}
    {b : β} : (x >>= f) = .ok b ↔ ∃ a, x = .ok a ∧ f a = .ok b :=
  Library.bind_eq_ok_iff

theorem throwing_bind_eq_error_iff {α β : Type} {x : Throwing α} {f : α → Throwing β}
    {stop : Stop} :
    (x >>= f) = .error stop ↔
      x = .error stop ∨ ∃ a, x = .ok a ∧ f a = .error stop := by
  cases x with
  | error other =>
      constructor
      · intro h; cases h; exact .inl rfl
      · rintro (h | ⟨a, h, _⟩)
        · cases h; rfl
        · cases h
  | ok a =>
      constructor
      · intro h; exact .inr ⟨a, rfl, h⟩
      · rintro (h | ⟨a', same, h⟩)
        · cases h
        · cases same; exact h

/-- What follows a guard is reached exactly when the guard passes. -/
theorem guards_eq_ok_iff {β : Type} {x : Throwing Unit} {f : Unit → Throwing β} {b : β} :
    (x >>= f) = .ok b ↔ x = .ok () ∧ f () = .ok b :=
  Library.checks_eq_ok_iff

@[simp] theorem throwing_bind_ok {α β : Type} (a : α) (f : α → Throwing β) :
    ((.ok a : Throwing α) >>= f) = f a := rfl

@[simp] theorem throwing_bind_error {α β : Type} (stop : Stop) (f : α → Throwing β) :
    ((.error stop : Throwing α) >>= f) = .error stop := rfl

/-! ## Functions that fail only by throwing a `BundleError` -/

/-- The function does not trap, and throws nothing but a `BundleError`. -/
def Clean {α : Type} (x : Throwing α) : Prop :=
  ∀ stop, x = .error stop → stop.IsBundleError

namespace Clean

variable {α β : Type}

theorem of_ok (a : α) : Clean (.ok a) := by rintro _ ⟨⟩

theorem of_throw (error : BundleError) : Clean (throwBundle error : Throwing α) := by
  rintro _ ⟨⟩
  exact throwBundle_isBundleError

theorem of_guard {condition : Prop} [Decidable condition] {error : BundleError} :
    Clean (guardElse condition error) :=
  fun _ failed => ⟨error, (guardElse_eq_error_iff.mp failed).2⟩

theorem bind {x : Throwing α} {f : α → Throwing β} (first : Clean x)
    (second : ∀ a, x = .ok a → Clean (f a)) : Clean (x >>= f) := by
  intro stop failed
  rcases throwing_bind_eq_error_iff.mp failed with now | ⟨a, returned, later⟩
  · exact first stop now
  · exact second a returned stop later

theorem guards {x : Throwing Unit} {y : Throwing β} (first : Clean x)
    (second : Clean y) : Clean (x >>= fun _ => y) :=
  bind first fun _ _ => second

end Clean

/-! ## Integers of a 64-bit platform -/

/-- The result of an `Int` operation, which traps outside `-2 ^ 63 ..< 2 ^ 63`. -/
def checkedInt (n : Int) : Throwing Int :=
  if n.toNat < 2 ^ 63 ∧ (-n).toNat ≤ 2 ^ 63 then .ok n
  else .error (.trapped .arithmeticOverflow)

/-- `a + b` on `Int`. -/
def addInt (a b : Int) : Throwing Int := checkedInt (a + b)

/-- `a - b` on `Int`. -/
def subInt (a b : Int) : Throwing Int := checkedInt (a - b)

/-- `a + b` on `UInt64`. -/
def addUInt64 (a b : UInt64) : Throwing UInt64 :=
  if a.toNat + b.toNat < 2 ^ 64 then .ok (a + b)
  else .error (.trapped .arithmeticOverflow)

/-- `UInt64(n)` for an `Int`. -/
def uint64OfInt (n : Int) : Throwing UInt64 :=
  if 0 ≤ n ∧ n.toNat < 2 ^ 64 then .ok (UInt64.ofNat n.toNat)
  else .error (.trapped .inexactConversion)

/-- `Int(n)` for a `UInt64`. -/
def intOfUInt64 (n : UInt64) : Throwing Int :=
  if n.toNat < 2 ^ 63 then .ok n.toNat else .error (.trapped .inexactConversion)

/-- `UInt32(n)` for a `UInt64`. -/
def uint32OfUInt64 (n : UInt64) : Throwing UInt32 :=
  if n.toNat < 2 ^ 32 then .ok n.toUInt32 else .error (.trapped .inexactConversion)

theorem addInt_ok {a b : Int} (low : -2 ^ 63 ≤ a + b) (high : a + b < 2 ^ 63) :
    addInt a b = .ok (a + b) := if_pos (by omega)

theorem subInt_ok {a b : Int} (low : -2 ^ 63 ≤ a - b) (high : a - b < 2 ^ 63) :
    subInt a b = .ok (a - b) := if_pos (by omega)

theorem addInt_eq_ok {a b c : Int} (returned : addInt a b = .ok c) : c = a + b := by
  unfold addInt checkedInt at returned
  split at returned
  · cases returned
    rfl
  · cases returned

theorem addUInt64_eq_ok_iff {a b c : UInt64} :
    addUInt64 a b = .ok c ↔ c.toNat = a.toNat + b.toNat := by
  unfold addUInt64
  split
  · rename_i fits
    have sum : (a + b).toNat = a.toNat + b.toNat := by
      rw [UInt64.toNat_add, Nat.mod_eq_of_lt fits]
    constructor
    · intro same; cases same; exact sum
    · intro same; rw [UInt64.toNat_inj.mp (same.trans sum.symm)]
  · rename_i overflow
    have small := c.toNat_lt
    constructor
    · intro impossible; cases impossible
    · intro same; omega

theorem uint64OfInt_eq_ok_iff {n : Int} {m : UInt64} :
    uint64OfInt n = .ok m ↔ n = m.toNat := by
  unfold uint64OfInt
  split
  · rename_i fits
    have value : (UInt64.ofNat n.toNat).toNat = n.toNat := by
      rw [UInt64.toNat_ofNat', Nat.mod_eq_of_lt (by omega)]
    constructor
    · intro same; cases same; rw [value]; omega
    · intro same
      have equal : (UInt64.ofNat n.toNat).toNat = m.toNat := by rw [value]; omega
      rw [UInt64.toNat_inj.mp equal]
  · rename_i outside
    have small := m.toNat_lt
    constructor
    · intro impossible; cases impossible
    · intro same; omega

/-- A count converts exactly. -/
theorem uint64OfInt_natCast {n : Nat} (fits : n < 2 ^ 64) :
    uint64OfInt n = .ok (UInt64.ofNat n) ∧ (UInt64.ofNat n).toNat = n := by
  have value : (UInt64.ofNat n).toNat = n := by
    rw [UInt64.toNat_ofNat', Nat.mod_eq_of_lt fits]
  exact ⟨uint64OfInt_eq_ok_iff.mpr (by rw [value]), value⟩

theorem intOfUInt64_ok {n : UInt64} (fits : n.toNat < 2 ^ 63) :
    intOfUInt64 n = .ok (n.toNat : Int) := if_pos fits

theorem uint32OfUInt64_ok {n : UInt64} (fits : n.toNat < 2 ^ 32) :
    uint32OfUInt64 n = .ok n.toUInt32 := if_pos fits

/-! ## Buffers -/

/-- The content of a buffer. -/
abbrev Bytes : Type := List UInt8

/-- `count` of a buffer. -/
def byteCount (bytes : Bytes) : Int := bytes.length

/-- A `Data` value: its bytes, and the index of the first of them. -/
structure Data where
  bytes : Bytes
  startIndex : Nat
  endIndex_lt : startIndex + bytes.length < 2 ^ 63

namespace Data

/-- A fresh buffer with the given content. -/
def ofBytes (bytes : Bytes) (fits : bytes.length < 2 ^ 63) : Data :=
  ⟨bytes, 0, by omega⟩

def count (data : Data) : Int := byteCount data.bytes

/-- `data.prefix(n)`, which keeps the indices of `data`. -/
def take (data : Data) (n : Nat) : Data where
  bytes := data.bytes.take n
  startIndex := data.startIndex
  endIndex_lt := by
    have bound := data.endIndex_lt
    have shorter := List.length_take_le n data.bytes
    have whole := List.length_take_le' n data.bytes
    omega

/-- `Data(data)`: a copy indexed from zero. -/
def copy (data : Data) : Data where
  bytes := data.bytes
  startIndex := 0
  endIndex_lt := by have bound := data.endIndex_lt; omega

/-- `data[i]` -/
def subscript (data : Data) (i : Int) : Throwing UInt8 :=
  if data.startIndex ≤ i then
    match data.bytes[(i - data.startIndex).toNat]? with
    | some byte => .ok byte
    | none => .error (.trapped .indexOutOfRange)
  else .error (.trapped .indexOutOfRange)

/-- A fresh buffer holding `size` bytes from position `start` on. -/
def part (data : Data) (start size : Nat) : Data where
  bytes := (data.bytes.drop start).take size
  startIndex := 0
  endIndex_lt := by
    have bound := data.endIndex_lt
    have shorter := List.length_take_le' size (data.bytes.drop start)
    rw [List.length_drop] at shorter
    omega

/-- `data.subdata(in: lower..<upper)`: a copy of that range, indexed from zero. -/
def subdata (data : Data) (lower upper : Int) : Throwing Data :=
  if data.startIndex ≤ lower ∧ lower ≤ upper ∧
      upper ≤ data.startIndex + data.bytes.length then
    .ok (data.part (lower - data.startIndex).toNat (upper - lower).toNat)
  else .error (.trapped .indexOutOfRange)

@[simp] theorem ofBytes_bytes (bytes : Bytes) (fits : bytes.length < 2 ^ 63) :
    (ofBytes bytes fits).bytes = bytes := rfl

@[simp] theorem ofBytes_startIndex (bytes : Bytes) (fits : bytes.length < 2 ^ 63) :
    (ofBytes bytes fits).startIndex = 0 := rfl

@[simp] theorem copy_bytes (data : Data) : data.copy.bytes = data.bytes := rfl

@[simp] theorem copy_startIndex (data : Data) : data.copy.startIndex = 0 := rfl

theorem length_lt (data : Data) : data.bytes.length < 2 ^ 63 := by
  have bound := data.endIndex_lt; omega

/-- Inside a buffer indexed from zero a subscript reads that byte. -/
theorem subscript_eq {data : Data} (fresh : data.startIndex = 0) {i : Nat}
    (inside : i < data.bytes.length) : data.subscript i = .ok data.bytes[i] := by
  simp [subscript, fresh, inside]

@[simp] theorem part_bytes (data : Data) (start size : Nat) :
    (data.part start size).bytes = (data.bytes.drop start).take size := rfl

/-- Inside a buffer indexed from zero a range reads those bytes. -/
theorem subdata_eq {data : Data} (fresh : data.startIndex = 0) (lower upper : Nat)
    (ordered : lower ≤ upper) (inside : upper ≤ data.bytes.length) :
    data.subdata lower upper = .ok (data.part lower (upper - lower)) := by
  unfold subdata
  have lowerEq : ((lower : Int) - ((0 : Nat) : Int)).toNat = lower := by omega
  have sizeEq : ((upper : Int) - (lower : Int)).toNat = upper - lower := by omega
  rw [if_pos (by rw [fresh]; omega), fresh, lowerEq, sizeEq]

end Data

/-! ## Identifiers and dates -/

/-- A 16-byte identifier. -/
structure UUID where
  uuid : Vector UInt8 16
  deriving DecidableEq, Repr

namespace UUID

/-- The 16 raw bytes, in order. -/
def rawBytes (id : UUID) : Bytes := id.uuid.toList

@[simp] theorem length_rawBytes (id : UUID) : id.rawBytes.length = 16 := by
  simp [rawBytes]

theorem rawBytes_injective {left right : UUID}
    (same : left.rawBytes = right.rawBytes) : left = right := by
  cases left; cases right
  simpa [rawBytes, Vector.toList_inj] using same

def hexByte (byte : UInt8) : List Char :=
  [(Nat.digitChar (byte.toNat / 16)).toUpper, (Nat.digitChar (byte.toNat % 16)).toUpper]

/-- The text of an identifier in a message: upper-case hex in groups 4-2-2-2-6. -/
def description (id : UUID) : String :=
  let group (start size : Nat) : List Char :=
    ((id.rawBytes.drop start).take size).flatMap hexByte
  String.ofList
    (['-'].intercalate [group 0 4, group 4 2, group 6 2, group 8 2, group 10 6])

instance : ToString UUID := ⟨description⟩

end UUID

/-- Distinct identifiers point to distinct positions. -/
theorem position_of_map {α β : Type} {f : α → β} {list : List α}
    (distinct : (list.map f).Nodup) {i j : Nat} (inside : i < list.length)
    (within : j < list.length) (same : f list[i] = f list[j]) : i = j := by
  have left : i < (list.map f).length := by simpa using inside
  have right : j < (list.map f).length := by simpa using within
  have images : (list.map f)[i] = (list.map f)[j] := by simpa using same
  exact distinct.getElem_inj_iff.mp images

/-- A point in time, in seconds since 1970. -/
structure Date where
  timeIntervalSince1970 : Rat
  deriving DecidableEq, Repr

/-- The whole second a date falls in. -/
def Date.wholeSecond (date : Date) : Date := ⟨date.timeIntervalSince1970.floor⟩

end UltraLocked.Format
