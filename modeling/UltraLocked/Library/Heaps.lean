import Mathlib.Logic.Basic

/-!
# Regions of memory

A heap hands out regions, numbered in the order in which they are asked for, and
takes them back. A computation that uses a region which is not there, because it
was given back before or never handed out, has no result; nor has one that uses a
region in a way that its contents do not allow.
-/

namespace UltraLocked.Library

/-- The regions that are handed out, the latest first, and what was in the others. -/
structure Heap (α : Type) where
  /-- Regions that were asked for, also in vain. -/
  asked : Nat
  live : List (Nat × α)
  returned : List α

/-- A computation over a heap. -/
abbrev HeapM (α : Type) := StateT (Heap α) Option

namespace Heap

variable {α β γ : Type}

/-- What is in a region. -/
def find (region : Nat) : List (Nat × α) → Option α
  | [] => none
  | (number, contents) :: rest => if number = region then some contents else find region rest

/-- The regions after a write to one of them. -/
def replace (region : Nat) (f : α → Option α) : List (Nat × α) → Option (List (Nat × α))
  | [] => none
  | (number, contents) :: rest =>
      if number = region then (f contents).map fun written => (number, written) :: rest
      else (replace region f rest).map ((number, contents) :: ·)

/-- The regions without one of them, and what was in it. -/
def takeOut (region : Nat) : List (Nat × α) → Option (α × List (Nat × α))
  | [] => none
  | (number, contents) :: rest =>
      if number = region then some (contents, rest)
      else (takeOut region rest).map fun found => (found.1, (number, contents) :: found.2)

/-- Ask for a region; what is in it, if there is one, depends on its number. -/
def allocate (answer : Nat → Option α) : HeapM α (Option Nat) := fun heap =>
  match answer heap.asked with
  | none => some (none, { heap with asked := heap.asked + 1 })
  | some contents => some (some heap.asked, { heap with
      asked := heap.asked + 1, live := (heap.asked, contents) :: heap.live })

def read (region : Nat) (view : α → Option β) : HeapM α β := fun heap =>
  ((find region heap.live).bind view).map fun seen => (seen, heap)

def change (region : Nat) (f : α → Option α) : HeapM α Unit := fun heap =>
  (replace region f heap.live).map fun live => ((), { heap with live := live })

def release (region : Nat) : HeapM α Unit := fun heap =>
  (takeOut region heap.live).map fun found =>
    ((), { heap with live := found.2, returned := heap.returned ++ [found.1] })

/-- Nothing is given back where there is no region. -/
def releaseIf : Option Nat → HeapM α Unit
  | none => pure ()
  | some region => release region

/-- A heap later on: regions were asked for, some of which are there, and others given back. -/
def after (heap : Heap α) (n : Nat) (own : List (Nat × α)) (more : List α) : Heap α :=
  ⟨heap.asked + n, own ++ heap.live, heap.returned ++ more⟩

variable {heap heap' : Heap α} {n : Nat} {own : List (Nat × α)} {more : List α}
  {region : Nat} {contents written : α}

/-- What was given back cannot be used. -/
theorem read_of_gone {view : α → Option β} (gone : ∀ entry ∈ heap.live, entry.1 ≠ region) :
    read region view heap = none := by
  have missing : find region heap.live = none := by
    generalize heap.live = live at gone
    induction live with
    | nil => rfl
    | cons entry live ih =>
        rw [find, if_neg (gone entry List.mem_cons_self)]
        exact ih fun other member => gone other (List.mem_cons_of_mem _ member)
  rw [read, missing]
  rfl

/-! ## A region behind others -/

section Apart

variable {later : List (Nat × α)} (apart : ∀ entry ∈ later, entry.1 ≠ region)

include apart

theorem find_apart (rest : List (Nat × α)) :
    find region (later ++ (region, contents) :: rest) = some contents := by
  induction later with
  | nil => exact if_pos rfl
  | cons entry later ih =>
      rw [List.cons_append, find, if_neg (apart entry List.mem_cons_self)]
      exact ih fun other member => apart other (List.mem_cons_of_mem _ member)

theorem read_eq {view : α → Option β} {seen : β} (sees : view contents = some seen) :
    read region view (heap.after n (later ++ (region, contents) :: own) more) =
      some (seen, heap.after n (later ++ (region, contents) :: own) more) := by
  rw [read, after, List.append_assoc, List.cons_append, find_apart apart, Option.bind_some, sees]
  rfl

end Apart

/-! ## The latest region -/

end Heap

end UltraLocked.Library
