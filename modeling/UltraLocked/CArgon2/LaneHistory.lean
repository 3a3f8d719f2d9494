import UltraLocked.CArgon2.FillSegment

/-!
# The lanes without memory

What filling computes, stated without a memory to fill: each lane is an
unbounded sequence of blocks, and each block is made from earlier blocks of
the sequences alone. Pass, slice and column are ways to count along a
sequence, and overwriting is mixing in the block one round before.
-/

namespace UltraLocked.CArgon2

open Library

structure Filling where
  geometry : Geometry
  first : Nat → Nat → Block
  /-- Segments whose references come from addresses and not from blocks. -/
  addressed : Nat → Bool
  /-- The random number of a block in such a segment. -/
  address : Nat → Nat → UInt64
  /-- Whether a block is mixed with the one it replaces. -/
  mixes : Bool

namespace Filling

variable (filling : Filling)

/-- The lane that block `t` of a lane refers to. -/
def refLane (lane t : Nat) (rand : UInt64) : Nat :=
  if t < filling.geometry.segment then lane
  else rand.toNat / 2 ^ 32 % filling.geometry.lanes

def refBlock (lane t : Nat) (rand : UInt64) : Nat :=
  filling.geometry.reference t (filling.refLane lane t rand = lane) (rand.toNat % 2 ^ 32)

theorem finished_of_refLane {lane t : Nat} {rand : UInt64}
    (other : decide (filling.refLane lane t rand = lane) = false) :
    filling.geometry.segment ≤ t := by
  by_contra early
  rw [refLane, if_pos (Nat.not_le.mp early)] at other
  exact of_decide_eq_false other rfl

theorem refBlock_lt {t : Nat} (third : 2 ≤ t) (lane : Nat) (rand : UInt64) :
    filling.refBlock lane t rand < t :=
  filling.geometry.reference_lt third filling.finished_of_refLane _

def history (lane t : Nat) : Block :=
  if early : t < 2 then filling.first lane t
  else
    let prev := history lane (t - 1)
    let rand := if filling.addressed (t / filling.geometry.segment) then filling.address lane t
      else prev.get 0
    let ref := history (filling.refLane lane t rand) (filling.refBlock lane t rand)
    if filling.mixes ∧ filling.geometry.columns ≤ t then
      fillBlock prev ref (history lane (t - filling.geometry.columns)) true
    else fillBlock prev ref zeroBlock false
termination_by t
decreasing_by
  · omega
  · exact filling.refBlock_lt (Nat.not_lt.mp early) lane _
  · have := filling.geometry.columns_pos
    omega

def rand (lane t : Nat) : UInt64 :=
  if filling.addressed (t / filling.geometry.segment) then filling.address lane t
  else (filling.history lane (t - 1)).get 0

def refHistory (lane t : Nat) : Block :=
  filling.history (filling.refLane lane t (filling.rand lane t))
    (filling.refBlock lane t (filling.rand lane t))

/-- From the third block on, a block is made from the last one and a reference. -/
theorem history_eq {t : Nat} (third : 2 ≤ t) (lane : Nat) :
    filling.history lane t =
      if filling.mixes ∧ filling.geometry.columns ≤ t then
        fillBlock (filling.history lane (t - 1)) (filling.refHistory lane t)
          (filling.history lane (t - filling.geometry.columns)) true
      else
        fillBlock (filling.history lane (t - 1)) (filling.refHistory lane t) zeroBlock false := by
  rw [history, dif_neg (Nat.not_lt.mpr third)]
  rfl

theorem history_first {t : Nat} (early : t < 2) (lane : Nat) :
    filling.history lane t = filling.first lane t := by
  rw [history, dif_pos early]

/-- The cells that making block `t` touches. -/
def access (lane t : Nat) : Access where
  prev := Rings.cell filling.geometry.columns lane (t - 1)
  ref := Rings.cell filling.geometry.columns (filling.refLane lane t (filling.rand lane t))
    (filling.refBlock lane t (filling.rand lane t))
  curr := Rings.cell filling.geometry.columns lane t

end Filling
end UltraLocked.CArgon2
