import UltraLocked.CArgon2.HashRegions

/-!
# What verification gives back

A call of `argon2_verify` gives back what it took, with the same exception as
hashing. It does not wipe its buffers: the tag of the text and the tag of the
password that was offered go back to the heap as they are.
-/

namespace UltraLocked.CArgon2

open Library Library.Heap

section Buffers

variable {heap : Heap Contents} {n salt out desired : Nat} {more : List Contents}
  {s c d : Contents}

end Buffers

namespace Process

variable (process : Process) (heap : Heap Contents) (n : Nat) (own : List (Nat × Contents))
  (more : List Contents)

def Decoded (encoded pwd : Pointer) (pwdlen : UInt64) (type : UInt32) (context : Context) :
    Prop :=
  ∃ str salt out, encoded = some str ∧
    decodeString (verifyContext salt out pwd (UInt32.ofNat (strlen str)) pwdlen.toUInt32) str
      type = .ok context

/-- The buffers of a comparison: the salt, the tag of the password and that of the text. -/
def Compared (encoded pwd : Pointer) (pwdlen : UInt64) (type : UInt32)
    (buffers : List Contents) : Prop :=
  ∃ context out, Decoded encoded pwd pwdlen type context ∧
    ∃ costs : CostsValid { context with out := out }, buffers = [.bytes (context.salt.getD []),
      .bytes (costs.tag type), .bytes (context.out.getD [])]

/-- The memory of a hash for the text and the password that was offered. -/
def UnwipedFor (machine : Machine) (encoded pwd : Pointer) (pwdlen : UInt64) (type : UInt32)
    (memory : Memory) : Prop :=
  ∃ context out, Decoded encoded pwd pwdlen type context ∧
    Unwiped machine { context with out := out } type memory

/-- How a verification ends, its first allocation being `first`. -/
structure Verifies (machine : Machine) (encoded pwd : Pointer) (pwdlen : UInt64) (type : UInt32)
    (first : Nat) (result : Except FormCode Unit) (k : Nat) (kept : List (Nat × Contents))
    (wiped buffers : List Contents) : Prop where
  clean : ∀ contents ∈ wiped, contents.Clean
  few : buffers.length ≤ 3
  keeps : Keeps (UnwipedFor machine encoded pwd pwdlen type) (first + 3) 5
    (∃ code, result = .error (.refused code)) k kept
  compared : result = .ok () ∨ result = .error .verifyMismatch →
    Compared encoded pwd pwdlen type buffers

theorem Verifies.refused {machine : Machine} {encoded pwd : Pointer} {pwdlen : UInt64}
    {type : UInt32} {first : Nat} {code : FormCode} {k : Nat} {buffers : List Contents}
    (early : k ≤ 3) (few : buffers.length ≤ 3) (other : code ≠ .verifyMismatch) :
    Verifies machine encoded pwd pwdlen type first (.error code) k [] [] buffers := by
  refine ⟨List.forall_mem_nil _, few, .inr ⟨rfl, fun both => ?_⟩, ?_⟩
  · have many := both.2
    omega
  rintro (never | mismatch)
  · cases never
  · exact absurd (Except.error.inj mismatch) other

section Into

variable {encoded : List UInt8} {salt out : List UInt8}
  (saltRoom : salt.length = (UInt32.ofNat (strlen encoded)).toNat)
  (outRoom : out.length = (UInt32.ofNat (strlen encoded)).toNat)

include saltRoom outRoom

end Into

end Process

end UltraLocked.CArgon2
