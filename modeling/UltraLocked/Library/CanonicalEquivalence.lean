import Mathlib.Data.List.Sort
import Mathlib.Data.List.Chain

/-!
# Canonical equivalence of texts

Two texts are canonically equivalent when their canonical decompositions agree:
every character is replaced by its full decomposition, and each run of combining
marks is sorted by combining class, stably. The character data are a parameter;
Hangul syllables are decomposed by computation.
-/

namespace UltraLocked.Library

/-! ## Hangul syllables -/

namespace Hangul

def sBase : Nat := 0xAC00
def lBase : Nat := 0x1100
def vBase : Nat := 0x1161
def tBase : Nat := 0x11A7
def vCount : Nat := 21
def tCount : Nat := 28
def sCount : Nat := 19 * vCount * tCount

/-- The precomposed syllables. -/
def IsSyllable (c : Char) : Prop := sBase ≤ c.toNat ∧ c.toNat < sBase + sCount

instance (c : Char) : Decidable (IsSyllable c) := inferInstanceAs (Decidable (_ ∧ _))

/-- Leading consonant, vowel and, if there is one, trailing consonant. -/
def decompose (c : Char) : List Char :=
  let index := c.toNat - sBase
  let leading := Char.ofNat (lBase + index / (vCount * tCount))
  let vowel := Char.ofNat (vBase + index % (vCount * tCount) / tCount)
  if index % tCount = 0 then [leading, vowel]
  else [leading, vowel, Char.ofNat (tBase + index % tCount)]

/-- The conjoining letters. -/
def IsLetter (c : Char) : Prop := lBase ≤ c.toNat ∧ c.toNat < tBase + tCount

theorem toNat_ofNat {n : Nat} (small : n < 0xD800) : (Char.ofNat n).toNat = n := by
  have valid : n.isValidChar := .inl small
  rw [Char.ofNat, dif_pos valid]
  rfl

theorem isLetter_ofNat {n : Nat} (first : lBase ≤ n) (last : n < tBase + tCount) :
    IsLetter (Char.ofNat n) := by
  have same : (Char.ofNat n).toNat = n := toNat_ofNat (by
    simp only [tBase, tCount] at last
    omega)
  exact ⟨same.symm ▸ first, same.symm ▸ last⟩

theorem isLetter_of_mem {c d : Char} (syllable : IsSyllable c) (part : d ∈ decompose c) :
    IsLetter d := by
  have below : c.toNat - sBase < 19 * 588 := by
    have := syllable.1
    have := syllable.2
    simp only [sBase, sCount, vCount, tCount] at *
    omega
  have leading : IsLetter (Char.ofNat (lBase + (c.toNat - sBase) / (vCount * tCount))) :=
    isLetter_ofNat (Nat.le_add_right _ _)
      (by simp only [lBase, tBase, vCount, tCount] at below ⊢; omega)
  have vowel : IsLetter
      (Char.ofNat (vBase + (c.toNat - sBase) % (vCount * tCount) / tCount)) :=
    isLetter_ofNat (by simp only [lBase, vBase, vCount, tCount]; omega)
      (by simp only [vBase, tBase, vCount, tCount]; omega)
  have trailing : IsLetter (Char.ofNat (tBase + (c.toNat - sBase) % tCount)) :=
    isLetter_ofNat (by simp only [lBase, tBase, tCount]; omega)
      (by simp only [tCount]; omega)
  simp only [decompose] at part
  split at part
  · rcases List.mem_pair.mp part with same | same
    · exact same ▸ leading
    · exact same ▸ vowel
  · rcases List.mem_cons.mp part with same | rest
    · exact same ▸ leading
    · rcases List.mem_pair.mp rest with same | same
      · exact same ▸ vowel
      · exact same ▸ trailing

theorem IsLetter.not_isSyllable {c : Char} (letter : IsLetter c) : ¬ IsSyllable c := by
  rintro ⟨first, -⟩
  have last := letter.2
  simp only [sBase, tBase, tCount] at first last
  omega

end Hangul

/-! ## Canonical decomposition -/

/-- What canonical equivalence needs to know of the other characters. -/
structure CharacterData where
  /-- The full canonical decomposition; the character itself where it has none. -/
  mapping : Char → List Char
  combiningClass : Char → Nat

namespace CharacterData

variable (data : CharacterData)

def decompose (c : Char) : List Char :=
  if Hangul.IsSyllable c then Hangul.decompose c else data.mapping c

/-- The first of two neighbours need not move behind the second. -/
def InOrder (c d : Char) : Prop :=
  ¬ (0 < data.combiningClass d ∧ data.combiningClass d < data.combiningClass c)

instance : DecidableRel data.InOrder := fun _ _ => inferInstanceAs (Decidable (¬ _))

/-- The canonical decomposition of a text. -/
def normalForm (text : List Char) : List Char :=
  (text.flatMap data.decompose).insertionSort data.InOrder

/-- Canonical equivalence. -/
def Equivalent (left right : List Char) : Prop :=
  data.normalForm left = data.normalForm right

instance (left right : List Char) : Decidable (data.Equivalent left right) :=
  inferInstanceAs (Decidable (_ = _))

/-- The text is its own canonical decomposition. -/
def Normal (text : List Char) : Prop := data.normalForm text = text

instance (text : List Char) : Decidable (data.Normal text) :=
  inferInstanceAs (Decidable (_ = _))

/-- Decompositions are full: they decompose no further. -/
def Full : Prop := ∀ c, ∀ d ∈ data.decompose c, data.decompose d = [d]

variable {data}

/-- Equivalent texts that are both in one normalization form are the same text. -/
theorem Equivalent.eq_of_form {form : List Char → List Char} {left right : List Char}
    (normalizes : ∀ l r, data.Equivalent l r → form l = form r)
    (same : data.Equivalent left right) (leftFixed : form left = left)
    (rightFixed : form right = right) : left = right :=
  leftFixed.symm.trans ((normalizes left right same).trans rightFixed)

/-- Decompositions are full where the mapping is, letters included. -/
theorem full_of_mapping
    (fixed : ∀ c, ¬ Hangul.IsSyllable c → ∀ d ∈ data.mapping c,
      ¬ Hangul.IsSyllable d ∧ data.mapping d = [d])
    (letters : ∀ c, Hangul.IsLetter c → data.mapping c = [c]) : data.Full := by
  intro c d part
  rw [decompose] at part
  split at part
  · rename_i syllable
    have letter := Hangul.isLetter_of_mem syllable part
    rw [decompose, if_neg letter.not_isSyllable, letters d letter]
  · rename_i other
    obtain ⟨plain, same⟩ := fixed c other d part
    rw [decompose, if_neg plain, same]

/-! ## Normal forms are normal -/

/-- Inserting a character keeps neighbours in order. -/
theorem isChain_orderedInsert {c : Char} {text : List Char}
    (ordered : text.IsChain data.InOrder) :
    (text.orderedInsert data.InOrder c).IsChain data.InOrder := by
  induction text with
  | nil => exact List.isChain_singleton c
  | cons d rest ih =>
      by_cases stays : data.InOrder c d
      · rw [List.orderedInsert_cons_of_le _ rest stays]
        exact List.isChain_cons_cons.mpr ⟨stays, ordered⟩
      · rw [List.orderedInsert_of_not_le _ rest stays]
        have moves := not_not.mp stays
        have back : data.InOrder d c := fun ⟨_, below⟩ => absurd moves.2 (Nat.lt_asymm below)
        have later := ih ordered.tail
        cases rest with
        | nil => exact List.isChain_cons_cons.mpr ⟨back, List.isChain_singleton c⟩
        | cons e rest =>
            rw [List.orderedInsert_cons] at later ⊢
            split at later
            · rw [if_pos ‹_›]
              exact List.isChain_cons_cons.mpr ⟨back, later⟩
            · rw [if_neg ‹_›]
              exact List.isChain_cons_cons.mpr
                ⟨(List.isChain_cons_cons.mp ordered).1, later⟩

theorem isChain_insertionSort (text : List Char) :
    (text.insertionSort data.InOrder).IsChain data.InOrder := by
  induction text with
  | nil => exact List.isChain_nil
  | cons c rest ih =>
      rw [List.insertionSort_cons]
      exact isChain_orderedInsert ih

/-- A text in order is sorted already. -/
theorem insertionSort_of_isChain {text : List Char} (ordered : text.IsChain data.InOrder) :
    text.insertionSort data.InOrder = text := by
  induction text with
  | nil => rfl
  | cons c rest ih =>
      rw [List.insertionSort_cons, ih ordered.tail]
      cases rest with
      | nil => rfl
      | cons d rest =>
          exact List.orderedInsert_cons_of_le _ rest (List.isChain_cons_cons.mp ordered).1

/-- Characters that decompose no further are left as they are. -/
theorem flatMap_decompose {text : List Char} (full : ∀ c ∈ text, data.decompose c = [c]) :
    text.flatMap data.decompose = text := by
  induction text with
  | nil => rfl
  | cons c rest ih =>
      have later := ih fun d member => full d (List.mem_cons_of_mem c member)
      rw [List.flatMap_cons, full c List.mem_cons_self, later]
      rfl

/-- Decomposing twice changes nothing more. -/
theorem normal_normalForm (full : data.Full) (text : List Char) :
    data.Normal (data.normalForm text) := by
  have decomposed : ∀ d ∈ data.normalForm text, data.decompose d = [d] := by
    intro d member
    obtain ⟨c, -, part⟩ := List.mem_flatMap.mp ((List.mem_insertionSort _).mp member)
    exact full c d part
  rw [Normal, normalForm, flatMap_decompose decomposed]
  exact insertionSort_of_isChain (isChain_insertionSort _)

/-- Every text is equivalent to its canonical decomposition. -/
theorem equivalent_normalForm (full : data.Full) (text : List Char) :
    data.Equivalent text (data.normalForm text) :=
  (normal_normalForm full text).symm

end CharacterData

end UltraLocked.Library
