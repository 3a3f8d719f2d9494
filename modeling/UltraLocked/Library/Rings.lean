import Mathlib.Data.Nat.ModEq
import Mathlib.Logic.Function.Basic

/-!
# Histories kept in rings

Several writers share one array. Each owns a ring of `size` consecutive cells
and writes an unbounded history of values into it, value `t` into cell
`t % size`, so that the ring holds the last `size` values it wrote.
-/

namespace UltraLocked.Library.Rings

variable {β : Type} {size : Nat}

/-- The cell of value `t` of a writer. -/
def cell (size writer t : Nat) : Nat := writer * size + t % size

/-- The ring of one writer after `n` values. -/
def Keeps (cells : Array β) (size writer : Nat) (history : Nat → β) (n : Nat) : Prop :=
  ∀ t, t < n → n ≤ t + size → cells[cell size writer t]? = some (history t)

/-- The rings of all writers, each with its own number of values. -/
def KeepsAll (cells : Array β) (size writers : Nat) (history : Nat → Nat → β)
    (written : Nat → Nat) : Prop :=
  ∀ writer, writer < writers → Keeps cells size writer (history writer) (written writer)

theorem cell_lt (positive : 0 < size) {writer writers : Nat} (known : writer < writers)
    (t : Nat) : cell size writer t < writers * size := by
  have inside : t % size < size := Nat.mod_lt t positive
  have room : (writer + 1) * size ≤ writers * size := Nat.mul_le_mul_right size known
  rw [Nat.succ_mul] at room
  exact Nat.lt_of_lt_of_le (Nat.add_lt_add_left inside _) room

theorem cell_inj (positive : 0 < size) {writer writer' t t' : Nat} :
    cell size writer t = cell size writer' t' ↔ writer = writer' ∧ t % size = t' % size := by
  constructor
  · intro same
    have inside : t % size < size := Nat.mod_lt t positive
    have inside' : t' % size < size := Nat.mod_lt t' positive
    have quotient := congrArg (· / size) same
    have remainder := congrArg (· % size) same
    simp only [cell, Nat.mul_comm _ size, Nat.mul_add_div positive, Nat.mul_add_mod,
      Nat.div_eq_of_lt inside, Nat.div_eq_of_lt inside', Nat.add_zero, Nat.mod_mod] at quotient remainder
    exact ⟨quotient, remainder⟩
  · rintro ⟨rfl, same⟩
    rw [cell, cell, same]

theorem mod_ne_of_near {t t' : Nat} (before : t < t') (near : t' < t + size) :
    t % size ≠ t' % size := by
  intro same
  have divides : size ∣ t' - t := (Nat.modEq_iff_dvd' before.le).mp same
  have least := Nat.le_of_dvd (Nat.sub_pos_of_lt before) divides
  omega

variable {cells : Array β} {writers : Nat} {history : Nat → Nat → β} {written : Nat → Nat}

theorem KeepsAll.read (keeps : KeepsAll cells size writers history written) {writer t : Nat}
    (known : writer < writers) (past : t < written writer) (recent : written writer ≤ t + size) :
    cells[cell size writer t]? = some (history writer t) :=
  keeps writer known t past recent

theorem KeepsAll.write (keeps : KeepsAll cells size writers history written)
    (positive : 0 < size) {writer : Nat} (known : writer < writers)
    (room : cells.size = writers * size) :
    KeepsAll (cells.setIfInBounds (cell size writer (written writer))
        (history writer (written writer))) size writers history
      (Function.update written writer (written writer + 1)) := by
  have inside : cell size writer (written writer) < cells.size :=
    room ▸ cell_lt positive known _
  intro other isKnown t past recent
  rw [Array.getElem?_setIfInBounds]
  by_cases same : other = writer
  · subst same
    rw [Function.update_self] at past recent
    by_cases now : t = written other
    · subst now
      rw [if_pos rfl, if_pos inside]
    · have differ : cell size other (written other) ≠ cell size other t := fun equal =>
        mod_ne_of_near (show t < written other by omega) (by omega)
          ((cell_inj positive).mp equal).2.symm
      rw [if_neg differ]
      exact keeps other isKnown t (by omega) (by omega)
  · have differ : cell size writer (written writer) ≠ cell size other t := fun equal =>
      same ((cell_inj positive).mp equal).1.symm
    rw [Function.update_of_ne same] at past recent
    rw [if_neg differ]
    exact keeps other isKnown t past recent

/-- Full rings determine the array. -/
theorem KeepsAll.unique {cells cells' : Array β}
    (keeps : KeepsAll cells size writers history written)
    (keeps' : KeepsAll cells' size writers history written) (room : cells.size = writers * size)
    (room' : cells'.size = writers * size) (full : ∀ writer < writers, size ≤ written writer) :
    cells = cells' := by
  apply Array.ext_getElem?
  intro c
  by_cases inside : c < writers * size
  · have positive : 0 < size := Nat.pos_of_ne_zero fun none => by simp [none] at inside
    have known : c / size < writers := Nat.div_lt_of_lt_mul (by rwa [Nat.mul_comm])
    have least := full _ known
    have column : c % size < size := Nat.mod_lt c positive
    -- the value of the last round that is in this column
    let t := written (c / size) - size + (c + size * written (c / size) -
      (written (c / size) - size)) % size
    have place : cell size (c / size) t = c := by
      have more : written (c / size) - size ≤ c + size * written (c / size) :=
        Nat.le_trans (Nat.sub_le _ _)
          (Nat.le_trans (Nat.le_mul_of_pos_left _ positive) (Nat.le_add_left _ _))
      rw [cell, Nat.add_mod_mod, Nat.add_sub_cancel' more, Nat.add_mul_mod_self_left,
        Nat.mul_comm, Nat.div_add_mod]
    have inRound := Nat.mod_lt (c + size * written (c / size) - (written (c / size) - size)) positive
    have past : t < written (c / size) := by omega
    have recent : written (c / size) ≤ t + size := by omega
    have first := keeps.read known past recent
    rw [place] at first
    have second := keeps'.read known past recent
    rw [place] at second
    rw [first, second]
  · rw [Array.getElem?_eq_none (by omega), Array.getElem?_eq_none (by omega)]

end UltraLocked.Library.Rings
