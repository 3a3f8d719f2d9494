import UltraLocked.CArgon2.Blake2bStream

/-!
# The variable-length hash

`blake2b_long` of `blake2/blake2b.c`. Its specification is a chain of 64-byte
digests: all but the last one give their first half, and the last one is as
long as what is still missing.
-/

namespace UltraLocked.CArgon2.Blake2b

open Library

/-- The loop of `blake2b_long`: `outBuffer` is the previous digest, the bytes come after it. -/
def produce (outBuffer : List UInt8) (toproduce : UInt32) : Option (List UInt8) := do
  if toproduce.toNat > outBytes then
    let outBuffer ← blake2b outBytes outBuffer []
    let behind ← produce outBuffer (toproduce - UInt32.ofNat (outBytes / 2))
    pure (outBuffer.take (outBytes / 2) ++ behind)
  else
    let outBuffer ← blake2b toproduce.toNat outBuffer []
    pure (outBuffer.take toproduce.toNat)
termination_by toproduce.toNat
decreasing_by
  rename_i more
  simp only [outBytes] at more ⊢
  rw [UInt32.toNat_sub_of_le _ _ (by rw [UInt32.le_iff_toNat_le]; simp; omega)]
  simp
  omega

/-- The bytes that `blake2b_long` writes; `none` is the code -1. -/
def blake2bLong (outlen : Nat) (input : List UInt8) : Option (List UInt8) := do
  if outlen > 0xFFFFFFFF then none
  let outlenBytes := store32 (UInt32.ofNat outlen)
  if outlen ≤ outBytes then
    let S ← init outlen
    let S ← update S outlenBytes
    let S ← update S input
    let (out, _) ← final S outlen
    pure out
  else
    let S ← init outBytes
    let S ← update S outlenBytes
    let S ← update S input
    let (outBuffer, _) ← final S outBytes
    let behind ← produce outBuffer (UInt32.ofNat outlen - UInt32.ofNat (outBytes / 2))
    pure (outBuffer.take (outBytes / 2) ++ behind)

/-! ## Specification -/

/-- Digest `i` of the chain. -/
def chain (first : List UInt8) : Nat → List UInt8
  | 0 => first
  | i + 1 => digest outBytes 0 (chain first i)

/-- The hash of any length: `halves` digests give 32 bytes each. -/
def longDigest (outlen : Nat) (input : List UInt8) : List UInt8 :=
  let prefixed := LittleEndian.encode 4 outlen ++ input
  if outlen ≤ 64 then digest outlen 0 prefixed
  else
    let first := digest 64 0 prefixed
    let halves := (outlen + 31) / 32 - 2
    (List.range halves).flatMap (fun i => (chain first i).take 32) ++
      digest (outlen - 32 * halves) 0 (chain first (halves - 1))

/-! ## Lengths -/

theorem length_storeWords (h : Vector UInt64 8) : (storeWords h).length = 64 := by
  have each : ∀ w ∈ h.toList, (store64 w).length = 8 := fun w _ => LittleEndian.length_encode 8 _
  rw [storeWords, List.length_flatMap, List.map_congr_left each, List.map_const',
    List.sum_replicate_nat, Vector.length_toList]

theorem length_digest {outlen : Nat} (short : outlen ≤ outBytes) (keylen : Nat)
    (input : List UInt8) : (digest outlen keylen input).length = outlen := by
  rw [digest, List.length_take, length_storeWords]
  exact Nat.min_eq_left short

theorem length_chain {first : List UInt8} (full : first.length = outBytes) (i : Nat) :
    (chain first i).length = outBytes := by
  cases i with
  | zero => exact full
  | succ i => exact length_digest (Nat.le_refl _) 0 _

/-! ## The loop follows the chain -/

/-- What is still missing behind digest `i` when `toproduce` bytes are. -/
def behind (first : List UInt8) (i toproduce : Nat) : List UInt8 :=
  let halves := (toproduce + 31) / 32 - 2
  (List.range halves).flatMap (fun j => (chain first (i + 1 + j)).take 32) ++
    digest (toproduce - 32 * halves) 0 (chain first (i + halves))

theorem behind_of_le {toproduce : Nat} (few : toproduce ≤ 64) (first : List UInt8) (i : Nat) :
    behind first i toproduce = digest toproduce 0 (chain first i) := by
  have none : (toproduce + 31) / 32 - 2 = 0 := by omega
  simp [behind, none]

theorem behind_of_lt {toproduce : Nat} (many : 64 < toproduce) (first : List UInt8) (i : Nat) :
    behind first i toproduce =
      (chain first (i + 1)).take 32 ++ behind first (i + 1) (toproduce - 32) := by
  obtain ⟨rest, more, later⟩ : ∃ rest, (toproduce + 31) / 32 - 2 = rest + 1 ∧
      (toproduce - 32 + 31) / 32 - 2 = rest :=
    ⟨(toproduce + 31) / 32 - 3, by omega, by omega⟩
  have missing : toproduce - 32 * (rest + 1) = toproduce - 32 - 32 * rest := by omega
  have last : i + (rest + 1) = i + 1 + rest := by omega
  have shift (j : Nat) : chain first (i + 1 + (j + 1)) = chain first (i + 1 + 1 + j) := by
    rw [show i + 1 + (j + 1) = i + 1 + 1 + j by omega]
  simp only [behind, more, later]
  rw [List.range_succ_eq_map, List.flatMap_cons, List.flatMap_map, missing, last,
    List.append_assoc]
  simp only [Nat.succ_eq_add_one, shift, Nat.add_zero]

/-- The loop writes what is missing, whatever the previous digest was. -/
theorem produce_eq (first : List UInt8) (i : Nat) {toproduce : UInt32}
    (positive : 0 < toproduce.toNat) :
    produce (chain first i) toproduce = some (behind first i toproduce.toNat) := by
  induction h : toproduce.toNat using Nat.strong_induction_on generalizing toproduce i with
  | _ n ih =>
    subst h
    rw [produce]
    by_cases more : toproduce.toNat > outBytes
    · have many : 64 < toproduce.toNat := more
      have less : (toproduce - UInt32.ofNat (outBytes / 2)).toNat = toproduce.toNat - 32 :=
        UInt32.toNat_sub_of_le _ _ (UInt32.le_iff_toNat_le.mpr (by simp [outBytes]; omega))
      have later := ih (toproduce.toNat - 32) (by omega) (i + 1) (by rw [less]; omega) less
      have next : blake2b outBytes (chain first i) [] = some (chain first (i + 1)) :=
        blake2b_eq (by decide) (Nat.le_refl _) _
      rw [if_pos more, next, behind_of_lt many]
      simp only [Option.bind_eq_bind, Option.bind_some, later]
      rfl
    · have few : toproduce.toNat ≤ outBytes := Nat.not_lt.mp more
      rw [if_neg more, blake2b_eq positive few, behind_of_le few]
      simp only [Option.bind_eq_bind, Option.bind_some]
      rw [List.take_of_length_le (length_digest few 0 _).le]
      rfl

/-- Hashing a prefix and an input without a buffer between them. -/
theorem hash_pieces {β : Type} {outlen : Nat} (positive : 0 < outlen) (short : outlen ≤ outBytes)
    (front input : List UInt8) (next : List UInt8 → Option β) :
    (do let S ← init outlen
        let S ← update S front
        let S ← update S input
        let closed ← final S outlen
        next closed.1) = next (digest outlen 0 (front ++ input)) := by
  obtain ⟨S, opened, fresh⟩ := init_live positive short
  obtain ⟨S', updated, live⟩ := fresh.update front
  obtain ⟨S'', again, complete⟩ := live.update input
  obtain ⟨T, closed, -⟩ := complete.final (Nat.le_refl outlen)
  simp only [opened, updated, again, closed, Option.bind_eq_bind, Option.bind_some]
  rfl

theorem longDigest_of_lt {outlen : Nat} (long : 64 < outlen) (input : List UInt8) :
    longDigest outlen input =
      (digest 64 0 (LittleEndian.encode 4 outlen ++ input)).take 32 ++
        behind (digest 64 0 (LittleEndian.encode 4 outlen ++ input)) 0 (outlen - 32) := by
  obtain ⟨rest, more, later⟩ : ∃ rest, (outlen + 31) / 32 - 2 = rest + 1 ∧
      (outlen - 32 + 31) / 32 - 2 = rest :=
    ⟨(outlen + 31) / 32 - 3, by omega, by omega⟩
  have missing : outlen - 32 * (rest + 1) = outlen - 32 - 32 * rest := by omega
  simp only [longDigest, behind, more, later, if_neg (Nat.not_le.mpr long)]
  rw [List.range_succ_eq_map, List.flatMap_cons, List.flatMap_map, missing, List.append_assoc]
  simp only [Nat.succ_eq_add_one, Nat.zero_add, Nat.add_sub_cancel, Nat.add_comm 1]
  rfl

theorem blake2bLong_eq {outlen : Nat} (positive : 0 < outlen) (fits : outlen ≤ 0xFFFFFFFF)
    (input : List UInt8) : blake2bLong outlen input = some (longDigest outlen input) := by
  have same : (UInt32.ofNat outlen).toNat = outlen := Nat.mod_eq_of_lt (by omega)
  have lengthBytes : store32 (UInt32.ofNat outlen) = LittleEndian.encode 4 outlen := by
    rw [store32, same]
  rw [blake2bLong, if_neg (Nat.not_lt.mpr fits)]
  simp only [lengthBytes]
  by_cases short : outlen ≤ outBytes
  · have few : outlen ≤ 64 := short
    rw [if_pos short, hash_pieces positive short, longDigest, if_pos few]
    rfl
  · have long : 64 < outlen := Nat.not_le.mp short
    have less : (UInt32.ofNat outlen - UInt32.ofNat (outBytes / 2)).toNat = outlen - 32 := by
      rw [UInt32.toNat_sub_of_le _ _ (UInt32.le_iff_toNat_le.mpr (by simp [same, outBytes]; omega)),
        same]
      rfl
    have loop := produce_eq (digest 64 0 (LittleEndian.encode 4 outlen ++ input)) 0
      (show 0 < (UInt32.ofNat outlen - UInt32.ofNat (outBytes / 2)).toNat by omega)
    have front := hash_pieces (by decide) (Nat.le_refl outBytes) (LittleEndian.encode 4 outlen)
      input fun outBuffer => do
        let behind ← produce outBuffer (UInt32.ofNat outlen - UInt32.ofNat (outBytes / 2))
        pure (outBuffer.take (outBytes / 2) ++ behind)
    rw [chain, less] at loop
    rw [if_neg short, longDigest_of_lt long]
    refine front.trans ?_
    change (do let behind ← produce (digest 64 0 _) _; pure _) = _
    rw [loop]
    rfl

/-- No bytes, or more than 32 bits can count, are refused. -/
theorem blake2bLong_eq_none {outlen : Nat} (refused : outlen = 0 ∨ 0xFFFFFFFF < outlen)
    (input : List UInt8) : blake2bLong outlen input = none := by
  rcases refused with rfl | long
  · rfl
  · rw [blake2bLong, if_pos long]
    rfl

theorem length_behind {first : List UInt8} (full : first.length = outBytes) (i : Nat)
    (toproduce : Nat) : (behind first i toproduce).length = toproduce := by
  induction toproduce using Nat.strong_induction_on generalizing i with
  | _ n ih =>
    by_cases few : n ≤ 64
    · rw [behind_of_le few, length_digest few]
    · have many : 64 < n := Nat.not_le.mp few
      have half : ((chain first (i + 1)).take 32).length = 32 :=
        List.length_take_of_le (by rw [length_chain full]; decide)
      rw [behind_of_lt many, List.length_append, half, ih (n - 32) (by omega)]
      omega

theorem length_longDigest (outlen : Nat) (input : List UInt8) :
    (longDigest outlen input).length = outlen := by
  by_cases few : outlen ≤ 64
  · rw [longDigest, if_pos few, length_digest few]
  · have many : 64 < outlen := Nat.not_le.mp few
    have full : (digest 64 0 (LittleEndian.encode 4 outlen ++ input)).length = outBytes :=
      length_digest (Nat.le_refl _) 0 _
    have half : ((digest 64 0 (LittleEndian.encode 4 outlen ++ input)).take 32).length = 32 :=
      List.length_take_of_le (by rw [full]; decide)
    rw [longDigest_of_lt many, List.length_append, half, length_behind full]
    omega

/--
The variable-length hash succeeds for every length from 1 to `2 ^ 32 - 1`, and
then writes as many bytes as it was asked for, those of the specification.
-/
theorem long_hash_iff (outlen : Nat) (input out : List UInt8) :
    blake2bLong outlen input = some out ↔
      0 < outlen ∧ outlen ≤ 0xFFFFFFFF ∧ out = longDigest outlen input ∧ out.length = outlen := by
  constructor
  · intro hashed
    have positive : 0 < outlen := by
      rcases Nat.eq_zero_or_pos outlen with zero | positive
      · rw [blake2bLong_eq_none (.inl zero)] at hashed
        cases hashed
      · exact positive
    have fits : outlen ≤ 0xFFFFFFFF := by
      by_contra long
      rw [blake2bLong_eq_none (.inr (Nat.not_le.mp long))] at hashed
      cases hashed
    rw [blake2bLong_eq positive fits, Option.some.injEq] at hashed
    subst hashed
    exact ⟨positive, fits, rfl, length_longDigest outlen input⟩
  · rintro ⟨positive, fits, rfl, -⟩
    exact blake2bLong_eq positive fits input

end UltraLocked.CArgon2.Blake2b
