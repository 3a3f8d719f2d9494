import UltraLocked.CArgon2.ThreadRegions

/-!
# What hashing gives back

A call of `argon2_hash` wipes what it gives back, and gives back what it took. The
one exception is the memory of a hash whose threads cannot all run: it is neither wiped nor
given back.
-/

namespace UltraLocked.CArgon2

open Library Library.Heap

/-- Allocations do not depend on their number, and the tags are those of runs. -/
structure Process.Steady (process : Process) : Prop where
  malloc : ∀ n, process.malloc n = process.machine.malloc
  calloc : ∀ n, process.calloc n = process.machine.calloc
  runs : process.machine.Runs

/-- What is in the memory once `fill_memory_blocks` returns. -/
def Left (machine : Machine) (inst : Instance) (blocks : Memory) :
    Except ErrorCode Unit → Memory → Prop
  | .ok (), left => Fills machine inst blocks left
  | .error _, left => left = blocks ∨ ∃ state : Mt, state.Reachable machine inst blocks ∧
      (∃ code, state.control = .returned (.error code)) ∧ left = state.memory

/-- Memory that is not wiped: the first blocks, or what the threads made of them. -/
def Unwiped (machine : Machine) (context : Context) (type : UInt32) (memory : Memory) : Prop :=
  ∃ bytes seeded code, fillFirstBlocks (initialHash context type).1 (instanceOf context type)
      (blocksOf bytes) = some seeded ∧
    Left machine (instanceOf context type) seeded (.error code) memory

/-! ## Regions of bytes -/

section Bytes

variable {heap : Heap Contents} {n region : Nat} {own later : List (Nat × Contents)}
  {more : List Contents} {bytes : List UInt8}

end Bytes

namespace Process

variable (process : Process) (heap : Heap Contents) (n : Nat) (own : List (Nat × Contents))
  (more : List Contents)

section Context

variable {context : Context} (valid : CostsValid context) (type : UInt32)

include valid

variable (joins : process.machine.Joins (instanceOf context type))
  (together : context.lanes ≤ context.threads) {memory : Nat} {blocks : Memory}
  (size : blocks.size = (instanceOf context type).memoryBlocks.toNat)

include joins together size

end Context

/-! ## `argon2_ctx` -/

section Context

variable {context : Context} (valid : CostsValid context) (type : UInt32)
  (positive : 0 < context.outlen.toNat) {machine : Machine} {seeded left : Memory}
  (start : ((instanceOf context type).filling valid.geometry (firstBlock (Blake2b.digest
    prehashDigestLength 0 (preimage context type)))).Filled 0 seeded)
  (fills : Fills machine (instanceOf context type) seeded left)

include positive start fills

end Context

/-- How `argon2_ctx` ends, its first allocation being `first`. -/
structure Ends (context : Context) (type : UInt32) (first : Nat)
    (result : Except ErrorCode Unit) (k : Nat) (kept : List (Nat × Contents))
    (tag : List UInt8) (clean : List Contents) : Prop where
  length : tag.length = context.outlen.toNat
  clean : ∀ contents ∈ clean, contents.Clean
  kept : (result ≠ .ok () ∧ 2 ≤ k ∧ ∃ memory, kept = [(first, .blocks memory)] ∧
      Unwiped process.machine context type memory) ∨
    (kept = [] ∧ (2 ≤ k → result = .ok ()))
  written : result = .ok () → ∃ valid : CostsValid context, tag = valid.tag type
  steady : process.Steady →
    CArgon2.argon2Ctx process.machine context type = result.map fun _ => tag

/-- Before the memory is there, nothing happens to the output. -/
theorem Ends.refused {context : Context} {type : UInt32} {first : Nat} {code : ErrorCode}
    {k : Nat} {old : List UInt8} (few : k ≤ 1) (length : old.length = context.outlen.toNat)
    (same : process.Steady → CArgon2.argon2Ctx process.machine context type = .error code) :
    process.Ends context type first (.error code) k [] old [] :=
  ⟨length, List.forall_mem_nil _, .inr ⟨rfl, fun many => by omega⟩, (fun never => by cases never),
    same⟩

/-- How a hash ends: what is kept of the memory it took. -/
def Keeps (unwiped : Memory → Prop) (first limit : Nat) (refused : Prop) (k : Nat)
    (kept : List (Nat × Contents)) : Prop :=
  (refused ∧ limit ≤ k ∧ ∃ memory, kept = [(first, .blocks memory)] ∧ unwiped memory) ∨
    (kept = [] ∧ ¬ (refused ∧ limit ≤ k))

section Keeps

variable {unwiped : Memory → Prop} {first limit : Nat} {refused : Prop} {k : Nat}
  {kept : List (Nat × Contents)} (keeps : Keeps unwiped first limit refused k kept)

include keeps

theorem Keeps.congr {refused' : Prop} (same : refused ↔ refused') :
    Keeps unwiped first limit refused' k kept := by
  rw [← same]
  exact keeps

/-- More may have been asked for before. -/
theorem Keeps.later (n : Nat) : Keeps unwiped first (n + limit) refused (n + k) kept := by
  rw [Keeps, Nat.add_le_add_iff_left]
  exact keeps

theorem Keeps.imp {unwiped' : Memory → Prop}
    (weaker : ∀ memory, unwiped memory → unwiped' memory) :
    Keeps unwiped' first limit refused k kept := by
  rcases keeps with ⟨holds, many, memory, same, left⟩ | nothing
  · exact .inl ⟨holds, many, memory, same, weaker memory left⟩
  · exact .inr nothing

theorem Keeps.number : ∀ entry ∈ kept, entry.1 = first := by
  rcases keeps with ⟨-, -, memory, rfl, -⟩ | ⟨rfl, -⟩
  · exact List.forall_mem_singleton.mpr rfl
  · exact List.forall_mem_nil _

theorem Keeps.nothing (accepted : ¬ refused) : kept = [] := by
  rcases keeps with ⟨holds, -⟩ | ⟨nothing, -⟩
  · exact absurd holds accepted
  · exact nothing

theorem Keeps.live (heap : Heap Contents) (more : List Contents) :
    (refused ∧ heap.asked + limit ≤ (heap.after k kept more).asked →
      ∃ memory, unwiped memory ∧
        (heap.after k kept more).live = (first, .blocks memory) :: heap.live) ∧
    (¬ (refused ∧ heap.asked + limit ≤ (heap.after k kept more).asked) →
      (heap.after k kept more).live = heap.live) := by
  have count : heap.asked + limit ≤ (heap.after k kept more).asked ↔ limit ≤ k :=
    Nat.add_le_add_iff_left
  rw [count]
  rcases keeps with ⟨holds, many, memory, rfl, left⟩ | ⟨rfl, fails⟩
  · exact ⟨fun _ => ⟨memory, left, rfl⟩, fun others => absurd ⟨holds, many⟩ others⟩
  · exact ⟨fun holds => absurd holds fails, fun _ => rfl⟩

end Keeps

theorem Ends.keeps {context : Context} {type : UInt32} {first : Nat}
    {result : Except ErrorCode Unit} {k : Nat} {kept : List (Nat × Contents)}
    {tag : List UInt8} {clean : List Contents}
    (ends : process.Ends context type first result k kept tag clean) :
    Keeps (Unwiped process.machine context type) first 2 (result ≠ .ok ()) k kept :=
  ends.kept.imp_right fun nothing => ⟨nothing.1, fun both => both.1 (nothing.2 both.2)⟩

end Process

/-! ## A process -/

/-- Allocations are those of a machine, and everybody takes turns. -/
def Machine.process (machine : Machine)
    (sized : ∀ size bytes, machine.malloc size = some bytes → bytes.length = size.toNat) :
    Process where
  machine := machine
  malloc _ := machine.malloc
  calloc _ := machine.calloc
  schedule inst _ := Mt.turns inst
  halfway _ := []
  length_malloc _ := sized
  ends _ type _ valid size :=
    Mt.turns_end (valid.laid type) (valid.limited type)
      (filled_contents _ (size.trans (valid.laid type).memoryBlocks)) machine

end UltraLocked.CArgon2
