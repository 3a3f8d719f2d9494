import UltraLocked.CArgon2.Blake2b
import UltraLocked.Library.History

/-!
# BLAKE2b as a stream

The hash of a byte string is stated without state or buffer: its blocks are
compressed in order, each with the number of bytes up to its end, and the last
one is padded and marked. An object of `blake2b.c` gives that hash of whatever
its updates were given, however they cut it up.
-/

namespace UltraLocked.CArgon2.Blake2b

open Library Library.BlockStream

/-- Compression of a block that ends at byte `count` of the input. -/
def compressAt (h : Vector UInt64 8) (count : Nat) (last : Bool) (block : List UInt8) :
    Vector UInt64 8 :=
  compressed h (UInt64.ofNat count) (UInt64.ofNat (count / 2 ^ 64)) (if last then -1 else 0) 0
    block

theorem zero_lt_eight : 0 < 8 := by decide

/-- The first chaining value, for digest and key lengths. -/
def initialChain (outlen keylen : Nat) : Vector UInt64 8 :=
  iv.set 0 (iv.get ⟨0, zero_lt_eight⟩ ^^^ ((0x01010000 : UInt64) ^^^ (UInt64.ofNat keylen <<< 8) ^^^
    UInt64.ofNat outlen)) zero_lt_eight

/-- A block padded with zeros. -/
def padded (block : List UInt8) : List UInt8 :=
  block ++ List.replicate (blockBytes - block.length) 0

/-- BLAKE2b of an input; a key is the first block of the input. -/
def digest (outlen keylen : Nat) (input : List UInt8) : List UInt8 :=
  let h := (List.range (leading blockBytes input)).foldl
    (fun h i => compressAt h (blockBytes * (i + 1)) false (block blockBytes input i))
    (initialChain outlen keylen)
  (storeWords (compressAt h input.length true
    (padded (BlockStream.final blockBytes input)))).take outlen

/-! ## The chaining value and the counter -/

/-- Absorbing a block in front of the last one. -/
def absorb (core : Vector UInt64 8 × Nat) (block : List UInt8) : Vector UInt64 8 × Nat :=
  (compressAt core.1 (core.2 + blockBytes) false block, core.2 + blockBytes)

theorem foldl_absorb (input : List UInt8) (h : Vector UInt64 8) (n : Nat) :
    ((List.range n).map (block blockBytes input)).foldl absorb (h, 0) =
      ((List.range n).foldl
        (fun h i => compressAt h (blockBytes * (i + 1)) false (block blockBytes input i)) h,
        blockBytes * n) := by
  induction n with
  | zero => rfl
  | succ n ih =>
      rw [List.range_succ, List.map_append, List.foldl_append, ih, List.foldl_append]
      rfl

/-- What a stream has absorbed and what it holds back. -/
def received (outlen keylen : Nat) (input : List UInt8) :
    (Vector UInt64 8 × Nat) × List UInt8 :=
  drain blockBytes absorb (initialChain outlen keylen, 0) input

theorem received_append (outlen keylen : Nat) (earlier later : List UInt8) :
    received outlen keylen (earlier ++ later) =
      drain blockBytes absorb (received outlen keylen earlier).1
        ((received outlen keylen earlier).2 ++ later) :=
  drain_append (by decide) _ earlier later

theorem length_received_le (outlen keylen : Nat) (input : List UInt8) :
    (received outlen keylen input).2.length ≤ blockBytes :=
  length_drain_le (by decide) _ input

theorem digest_eq (outlen keylen : Nat) (input : List UInt8) :
    digest outlen keylen input =
      (storeWords (compressAt (received outlen keylen input).1.1
        ((received outlen keylen input).1.2 + (received outlen keylen input).2.length) true
        (padded (received outlen keylen input).2))).take outlen := by
  have total : blockBytes * leading blockBytes input +
      (BlockStream.final blockBytes input).length = input.length := by
    have most : leading blockBytes input * blockBytes ≤ input.length - 1 :=
      Nat.div_mul_le_self (input.length - 1) blockBytes
    rw [BlockStream.final, List.length_drop]
    rw [Nat.mul_comm] at most
    omega
  rw [received, drain_eq (by decide), foldl_absorb, digest, total]

/-- Two words count modulo `2 ^ 128`. -/
theorem incrementCounter_eq {S : State} {count : Nat} (low : S.t0 = UInt64.ofNat count)
    (high : S.t1 = UInt64.ofNat (count / 2 ^ 64)) {inc : Nat} (small : inc < 2 ^ 64) :
    incrementCounter S (UInt64.ofNat inc) =
      { S with t0 := UInt64.ofNat (count + inc), t1 := UInt64.ofNat ((count + inc) / 2 ^ 64) } := by
  have sum : S.t0 + UInt64.ofNat inc = UInt64.ofNat (count + inc) := by
    rw [low, UInt64.ofNat_add]
  have carry : (UInt64.ofNat (count / 2 ^ 64) +
      if UInt64.ofNat (count + inc) < UInt64.ofNat inc then 1 else 0) =
        UInt64.ofNat ((count + inc) / 2 ^ 64) := by
    have wraps : UInt64.ofNat (count + inc) < UInt64.ofNat inc ↔ (count + inc) % 2 ^ 64 < inc := by
      rw [UInt64.lt_iff_toNat_lt, UInt64.toNat_ofNat', UInt64.toNat_ofNat', Nat.mod_eq_of_lt small]
    by_cases wrapped : (count + inc) % 2 ^ 64 < inc
    · have next : (count + inc) / 2 ^ 64 = count / 2 ^ 64 + 1 := by omega
      rw [if_pos (wraps.mpr wrapped), next, UInt64.ofNat_add]
      rfl
    · have same : (count + inc) / 2 ^ 64 = count / 2 ^ 64 := by omega
      rw [if_neg (mt wraps.mp wrapped), same, UInt64.add_zero]
  rw [incrementCounter, sum, high, carry]

/-! ## One call -/

/-- A live state: chaining value and counter, and the bytes it holds back. -/
structure Holds (S : State) (core : Vector UInt64 8 × Nat) (pending : List UInt8) : Prop where
  h : S.h = core.1
  t0 : S.t0 = UInt64.ofNat core.2
  t1 : S.t1 = UInt64.ofNat (core.2 / 2 ^ 64)
  f0 : S.f0 = 0
  f1 : S.f1 = 0
  lastNode : S.lastNode = 0
  width : S.buf.length = blockBytes
  buflen : S.buflen = pending.length
  buf : S.buf.take S.buflen = pending

theorem compress_eq {S : State} {core : Vector UInt64 8 × Nat} {pending : List UInt8}
    (holds : Holds S core pending) (block : List UInt8) :
    compress (incrementCounter S (UInt64.ofNat blockBytes)) block =
      { S with
        h := (absorb core block).1
        t0 := UInt64.ofNat (absorb core block).2
        t1 := UInt64.ofNat ((absorb core block).2 / 2 ^ 64) } := by
  rw [incrementCounter_eq holds.t0 holds.t1 (by decide), compress, absorb, compressAt, holds.h,
    holds.f0, holds.f1]
  rfl

theorem updateBlocks_eq {S : State} {core : Vector UInt64 8 × Nat} (holds : Holds S core [])
    (pin : List UInt8) :
    (updateBlocks S pin).2 = (drain blockBytes absorb core pin).2 ∧
      Holds (updateBlocks S pin).1 (drain blockBytes absorb core pin).1 [] ∧
      (updateBlocks S pin).1.outlen = S.outlen := by
  induction core, pin using drain.induct blockBytes absorb generalizing S with
  | case1 core pin more ih =>
      rw [updateBlocks, if_pos more.2, drain_of_lt more.1 more.2, compress_eq holds]
      exact ih ⟨rfl, rfl, rfl, holds.f0, holds.f1, holds.lastNode, holds.width, holds.buflen,
        holds.buf⟩
  | case2 core pin enough =>
      have few : pin.length ≤ blockBytes := Nat.not_lt.mp fun many => enough ⟨by decide, many⟩
      rw [updateBlocks, if_neg (Nat.not_lt.mpr few), drain_of_le few]
      exact ⟨rfl, holds, rfl⟩

theorem memcpyAt_eq {buf : List UInt8} {offset : Nat} {pending : List UInt8}
    (front : buf.take offset = pending) (src : List UInt8) :
    memcpyAt buf offset src = pending ++ src ++ buf.drop (offset + src.length) := by
  rw [memcpyAt, front]

theorem Holds.push {S : State} {core : Vector UInt64 8 × Nat} {pending : List UInt8}
    (holds : Holds S core pending) {src : List UInt8}
    (fits : pending.length + src.length ≤ blockBytes) :
    Holds { S with buf := memcpyAt S.buf S.buflen src, buflen := S.buflen + src.length } core
      (pending ++ src) where
  h := holds.h
  t0 := holds.t0
  t1 := holds.t1
  f0 := holds.f0
  f1 := holds.f1
  lastNode := holds.lastNode
  width := by
    have old := holds.width
    rw [memcpyAt_eq holds.buf, List.length_append, List.length_append, List.length_drop, old,
      holds.buflen]
    omega
  buflen := by rw [List.length_append, holds.buflen]
  buf := by
    rw [memcpyAt_eq holds.buf, holds.buflen, ← List.length_append, List.take_left]

theorem Holds.fill {S : State} {core : Vector UInt64 8 × Nat} {pending : List UInt8}
    (holds : Holds S core pending) {input : List UInt8}
    (overflow : S.buflen + input.length > blockBytes) (few : pending.length ≤ blockBytes) :
    memcpyAt S.buf S.buflen (input.take (blockBytes - S.buflen)) =
      (pending ++ input).take blockBytes := by
  have width : (input.take (blockBytes - S.buflen)).length = blockBytes - S.buflen := by
    rw [List.length_take]
    omega
  have whole : S.buf.drop (S.buflen + (blockBytes - S.buflen)) = [] :=
    List.drop_eq_nil_of_le (by rw [holds.width, holds.buflen]; omega)
  rw [memcpyAt_eq holds.buf, width, whole, List.append_nil, List.take_append,
    List.take_of_length_le few, holds.buflen]

/-- `blake2b_update` drains what is held back together with the new input. -/
theorem Holds.update {S : State} {core : Vector UInt64 8 × Nat} {pending : List UInt8}
    (holds : Holds S core pending) (few : pending.length ≤ blockBytes) {input : List UInt8}
    (nonempty : input ≠ []) :
    ∃ S', update S input = some S' ∧ S'.outlen = S.outlen ∧
      Holds S' (drain blockBytes absorb core (pending ++ input)).1
        (drain blockBytes absorb core (pending ++ input)).2 := by
  have present : input.length ≠ 0 := mt List.length_eq_zero_iff.mp nonempty
  have live : ¬ S.f0 ≠ 0 := not_not.mpr holds.f0
  have length := holds.buflen
  rw [Blake2b.update, if_neg present, if_neg live]
  by_cases overflow : S.buflen + input.length > blockBytes
  · have many : blockBytes < (pending ++ input).length := by
      rw [List.length_append]
      omega
    have behind : (pending ++ input).drop blockBytes = input.drop (blockBytes - S.buflen) := by
      rw [List.drop_append, List.drop_eq_nil_of_le few, List.nil_append, length]
    let filled : State := { S with buf := (pending ++ input).take blockBytes }
    have width : filled.buf.length = blockBytes := List.length_take_of_le many.le
    have held : Holds filled core (filled.buf.take filled.buflen) :=
      ⟨holds.h, holds.t0, holds.t1, holds.f0, holds.f1, holds.lastNode, width, by
        rw [List.length_take, width]
        exact (Nat.min_eq_left (length ▸ few)).symm, rfl⟩
    simp only [if_pos overflow, holds.fill overflow few]
    rw [drain_of_lt (by decide) many, behind, show
      { S with buf := (pending ++ input).take blockBytes } = filled from rfl, compress_eq held]
    have fresh : Holds { filled with
        h := (absorb core filled.buf).1
        t0 := UInt64.ofNat (absorb core filled.buf).2
        t1 := UInt64.ofNat ((absorb core filled.buf).2 / 2 ^ 64)
        buflen := 0 } (absorb core filled.buf) [] :=
      ⟨rfl, rfl, rfl, holds.f0, holds.f1, holds.lastNode, held.width, rfl, rfl⟩
    obtain ⟨rest, drained, outlen⟩ := updateBlocks_eq fresh (input.drop (blockBytes - S.buflen))
    refine ⟨_, rfl, outlen, ?_⟩
    rw [← rest]
    have short : (drain blockBytes absorb (absorb core filled.buf)
        (input.drop (blockBytes - S.buflen))).2.length ≤ blockBytes :=
      length_drain_le (by decide) _ _
    rw [← rest] at short
    simpa only [List.nil_append] using drained.push (by simpa using short)
  · have fits : (pending ++ input).length ≤ blockBytes := by
      rw [List.length_append]
      omega
    simp only [if_neg overflow]
    rw [drain_of_le fits]
    refine ⟨_, rfl, rfl, holds.push ?_⟩
    rwa [List.length_append] at fits

/-- `blake2b_final` closes the stream. -/
theorem Holds.final {S : State} {core : Vector UInt64 8 × Nat} {pending : List UInt8}
    (holds : Holds S core pending) (few : pending.length ≤ blockBytes) {outlen : Nat}
    (room : S.outlen ≤ outlen) :
    ∃ S', final S outlen = some
        ((storeWords (compressAt core.1 (core.2 + pending.length) true
          (padded pending))).take S.outlen, S') ∧
      S'.f0 ≠ 0 ∧ S'.outlen = S.outlen := by
  have live : ¬ S.f0 ≠ 0 := not_not.mpr holds.f0
  have small : S.buflen < 2 ^ 64 := by
    have := holds.buflen
    simp only [blockBytes] at few
    omega
  have closed : setLastblock (incrementCounter S (UInt64.ofNat S.buflen)) =
      { S with
        t0 := UInt64.ofNat (core.2 + pending.length)
        t1 := UInt64.ofNat ((core.2 + pending.length) / 2 ^ 64)
        f0 := -1 } := by
    rw [incrementCounter_eq holds.t0 holds.t1 small, setLastblock,
      if_neg (not_not.mpr holds.lastNode), holds.buflen]
  have block : memcpyAt S.buf S.buflen (List.replicate (blockBytes - S.buflen) 0) =
      padded pending := by
    have whole : S.buf.drop (S.buflen + (blockBytes - S.buflen)) = [] :=
      List.drop_eq_nil_of_le (by rw [holds.width, holds.buflen]; omega)
    rw [memcpyAt_eq holds.buf, List.length_replicate, whole, List.append_nil, padded,
      holds.buflen]
  rw [Blake2b.final, if_neg (Nat.not_lt.mpr room), if_neg live, closed]
  simp only [block, compress, holds.h, holds.f1]
  exact ⟨_, rfl, (by decide : (-1 : UInt64) ≠ 0), rfl⟩

/-! ## The first chaining value -/

theorem xor_low_eq {low high width : Nat} (small : low < 2 ^ width) :
    2 ^ width * high ^^^ low = 2 ^ width * high + low := by
  have above : (2 ^ width * high ^^^ low) / 2 ^ width = high := by
    rw [Nat.xor_div_two_pow, Nat.mul_div_cancel_left _ (Nat.two_pow_pos width),
      Nat.div_eq_of_lt small, Nat.xor_zero]
  have below : (2 ^ width * high ^^^ low) % 2 ^ width = low := by
    rw [Nat.xor_mod_two_pow, Nat.mul_mod_right, Nat.mod_eq_of_lt small, Nat.zero_xor]
  have split := Nat.div_add_mod (2 ^ width * high ^^^ low) (2 ^ width)
  rwa [above, below, eq_comm] at split

/-- The parameter block of sequential BLAKE2 is zero behind its first word. -/
theorem sequential_bytes (outlen keylen : Nat) :
    (sequential outlen keylen).bytes =
      [UInt8.ofNat outlen, UInt8.ofNat keylen, 1, 1] ++ List.replicate 60 0 := by
  have four : store32 0 = List.replicate 4 0 := by decide
  have eight : store64 0 = List.replicate 8 0 := by decide
  simp only [Param.bytes, sequential, four, eight, List.append_assoc]
  rfl

theorem load64_parameters {outlen keylen : Nat} (short : outlen ≤ outBytes)
    (fits : keylen ≤ keyBytes) :
    load64 (sequential outlen keylen).bytes =
      (0x01010000 : UInt64) ^^^ (UInt64.ofNat keylen <<< 8) ^^^ UInt64.ofNat outlen := by
  have front : (sequential outlen keylen).bytes.take 8 =
      [UInt8.ofNat outlen, UInt8.ofNat keylen, 1, 1] ++ List.replicate 4 0 := by
    rw [sequential_bytes]
    rfl
  simp only [outBytes, keyBytes] at short fits
  have digestByte : outlen % 256 = outlen := by omega
  have keyByte : keylen % 256 = keylen := by omega
  have loaded : LittleEndian.decode
      ([UInt8.ofNat outlen, UInt8.ofNat keylen, 1, 1] ++ List.replicate 4 0) =
        2 ^ 16 * 257 + (2 ^ 8 * keylen + outlen) := by
    simp only [List.cons_append, List.nil_append, LittleEndian.decode, LittleEndian.decode_replicate,
      UInt8.toNat_ofNat', digestByte, keyByte]
    simp
    omega
  have middle : 2 ^ 16 * 257 ^^^ 2 ^ 8 * keylen = 2 ^ 8 * (2 ^ 8 * 257 + keylen) := by
    rw [xor_low_eq (by omega)]
    omega
  apply UInt64.toNat_inj.mp
  simp only [load64, front, loaded, UInt64.toNat_xor, UInt64.toNat_shiftLeft, UInt64.toNat_ofNat']
  have shifted : (keylen % 2 ^ 64) <<< (UInt64.toNat 8 % 64) % 2 ^ 64 = 2 ^ 8 * keylen := by
    rw [show UInt64.toNat 8 % 64 = 8 from rfl, Nat.shiftLeft_eq]
    omega
  rw [shifted, show UInt64.toNat 0x01010000 = 2 ^ 16 * 257 from rfl, middle,
    Nat.mod_eq_of_lt (show outlen < 2 ^ 64 by omega), xor_low_eq (by omega)]
  omega

theorem load64_parameters_behind (outlen keylen : Nat) {i : Nat} (behind : 0 < i) :
    load64 ((sequential outlen keylen).bytes.drop (8 * i)) = 0 := by
  obtain ⟨rest, split⟩ : ∃ rest, 8 * i = 4 + rest := ⟨8 * i - 4, by omega⟩
  have zeros : (sequential outlen keylen).bytes.drop (8 * i) = List.replicate (60 - rest) 0 := by
    rw [sequential_bytes, split, ← List.drop_drop]
    exact List.drop_replicate ..
  rw [load64, zeros, List.take_replicate, LittleEndian.decode_replicate]
  rfl

theorem initParam_h {outlen keylen : Nat} (short : outlen ≤ outBytes)
    (fits : keylen ≤ keyBytes) :
    (initParam (sequential outlen keylen)).h = initialChain outlen keylen := by
  apply Vector.ext
  intro i bound
  rw [initialChain, Vector.getElem_set]
  by_cases first : 0 = i
  · subst first
    rw [if_pos rfl, ← load64_parameters short fits]
    simp [initParam]
    rfl
  · rw [if_neg first]
    simp [initParam, load64_parameters_behind outlen keylen (Nat.pos_of_ne_zero (Ne.symm first))]

/-! ## A live state -/

/-- A state that was opened for a digest and has received an input since. -/
structure Live (S : State) (outlen keylen : Nat) (input : List UInt8) : Prop where
  holds : Holds S (received outlen keylen input).1 (received outlen keylen input).2
  outlen : S.outlen = outlen

theorem live_initParam {outlen keylen : Nat} (short : outlen ≤ outBytes)
    (fits : keylen ≤ keyBytes) :
    Live (initParam (sequential outlen keylen)) outlen keylen [] := by
  have fresh : received outlen keylen [] = ((initialChain outlen keylen, 0), []) :=
    drain_of_le (Nat.zero_le _) _
  refine ⟨?_, ?_⟩
  · rw [fresh]
    refine ⟨initParam_h short fits, rfl, ?_, rfl, rfl, rfl, rfl, rfl, rfl⟩
    change 0 = UInt64.ofNat (0 / 2 ^ 64)
    decide
  · have small : outlen % 256 = outlen :=
      Nat.mod_eq_of_lt (by simp only [outBytes] at short; omega)
    change (UInt8.ofNat outlen).toNat = outlen
    rw [UInt8.toNat_ofNat', small]

/-- `blake2b_init` opens a state for every digest of 1 to 64 bytes. -/
theorem init_live {outlen : Nat} (positive : 0 < outlen) (short : outlen ≤ outBytes) :
    ∃ S, init outlen = some S ∧ Live S outlen 0 [] := by
  have admitted : ¬ (outlen = 0 ∨ outlen > outBytes) := by omega
  exact ⟨_, if_neg admitted, live_initParam short (Nat.zero_le _)⟩

theorem Live.update {S : State} {outlen keylen : Nat} {earlier : List UInt8}
    (live : Live S outlen keylen earlier) (input : List UInt8) :
    ∃ S', update S input = some S' ∧ Live S' outlen keylen (earlier ++ input) := by
  cases input with
  | nil => exact ⟨S, rfl, by rwa [List.append_nil]⟩
  | cons byte rest =>
      obtain ⟨S', updated, kept, next⟩ := live.holds.update
        (length_received_le outlen keylen earlier) (List.cons_ne_nil byte rest)
      rw [← received_append] at next
      exact ⟨S', updated, next, kept.trans live.outlen⟩

theorem Live.final {S : State} {outlen keylen : Nat} {input : List UInt8}
    (live : Live S outlen keylen input) {room : Nat} (enough : outlen ≤ room) :
    ∃ S', final S room = some (digest outlen keylen input, S') ∧ S'.f0 ≠ 0 := by
  obtain ⟨S', closed, spent, -⟩ := live.holds.final (length_received_le outlen keylen input)
    (live.outlen ▸ enough)
  rw [live.outlen, ← digest_eq] at closed
  exact ⟨S', closed, spent⟩

/-- `blake2b_init_key` puts the padded key in front of the input. -/
theorem initKey_live {outlen : Nat} (positive : 0 < outlen) (short : outlen ≤ outBytes)
    {key : List UInt8} (present : 0 < key.length) (fits : key.length ≤ keyBytes) :
    ∃ S, initKey outlen key = some S ∧ Live S outlen key.length (padded key) := by
  have admitted : ¬ (outlen = 0 ∨ outlen > outBytes) := by omega
  have keyed : ¬ (key.length = 0 ∨ key.length > keyBytes) := by omega
  obtain ⟨S, updated, live⟩ := (live_initParam short fits).update (padded key)
  refine ⟨S, ?_, live⟩
  rw [initKey, if_neg admitted, if_neg keyed]
  exact congrArg (fun S => some (Option.getD S _)) updated

/-- `blake2b` in one call. -/
theorem blake2b_eq {outlen : Nat} (positive : 0 < outlen) (short : outlen ≤ outBytes)
    (input : List UInt8) : blake2b outlen input [] = some (digest outlen 0 input) := by
  obtain ⟨S, opened, fresh⟩ := init_live positive short
  obtain ⟨S', updated, live⟩ := fresh.update input
  obtain ⟨S'', closed, -⟩ := live.final (Nat.le_refl outlen)
  have admitted : ¬ (outlen = 0 ∨ outlen > outBytes) := by omega
  rw [blake2b, if_neg admitted]
  simp [opened, updated, closed, keyBytes]

/-! ## A stream of its own -/

/-- A call of the streaming interface on a state. -/
inductive Call where
  | update (input : List UInt8)
  | final (outlen : Nat)

/-- What a call answers: the bytes it writes, or `none` for the code -1. -/
def State.step (S : State) : Call → Option (List UInt8) × State
  | .update input =>
      match Blake2b.update S input with
      | some S' => (some [], S')
      | none => (none, S)
  | .final outlen =>
      match Blake2b.final S outlen with
      | some (out, S') => (some out, S')
      | none => (none, S)

/-- The state after `blake2b_init`, whether it succeeds or not. -/
def State.opened (outlen : Nat) : State := (init outlen).getD invalidated

/-- A stream without blocks: what it received, until it is closed. -/
structure Stream where
  outlen : Nat
  input : Option (List UInt8)

/-- A stream collects its input and hashes it all at once. -/
def Stream.step (stream : Stream) : Call → Option (List UInt8) × Stream
  | .update [] => (some [], stream)
  | .update input =>
      match stream.input with
      | some earlier => (some [], { stream with input := some (earlier ++ input) })
      | none => (none, stream)
  | .final outlen =>
      match stream.input with
      | some input =>
          if outlen < stream.outlen then (none, stream)
          else (some (digest stream.outlen 0 input), { stream with input := none })
      | none => (none, stream)

theorem Stream.step_final_of_lt {outlen room : Nat} (short : room < outlen)
    (input : List UInt8) :
    Stream.step ⟨outlen, some input⟩ (.final room) = (none, ⟨outlen, some input⟩) :=
  if_pos short

theorem Stream.step_final_of_le {outlen room : Nat} (enough : outlen ≤ room)
    (input : List UInt8) :
    Stream.step ⟨outlen, some input⟩ (.final room) =
      (some (digest outlen 0 input), ⟨outlen, none⟩) :=
  if_neg (Nat.not_lt.mpr enough)

/-- A stream opened for a digest of 1 to 64 bytes is live. -/
def Stream.opened (outlen : Nat) : Stream where
  outlen := outlen
  input := if outlen = 0 ∨ outlen > outBytes then none else some []

/-- A state that stands for a stream. -/
def Stands (S : State) (stream : Stream) : Prop :=
  match stream.input with
  | some input => Live S stream.outlen 0 input
  | none => S.f0 ≠ 0

theorem stands_opened (outlen : Nat) : Stands (State.opened outlen) (Stream.opened outlen) := by
  unfold Stands Stream.opened State.opened init
  by_cases refused : outlen = 0 ∨ outlen > outBytes
  · simp only [if_pos refused]
    decide
  · have short : outlen ≤ outBytes := Nat.not_lt.mp fun long => refused (.inr long)
    simp only [if_neg refused, Option.getD_some]
    exact live_initParam short (Nat.zero_le _)

theorem Stands.step {S : State} {stream : Stream} (stands : Stands S stream) (call : Call) :
    (stream.step call).1 = (S.step call).1 ∧ Stands (S.step call).2 (stream.step call).2 := by
  obtain ⟨outlen, input⟩ := stream
  cases call with
  | update chunk =>
      cases chunk with
      | nil => exact ⟨rfl, stands⟩
      | cons byte rest =>
          cases input with
          | none =>
              have spent : S.f0 ≠ 0 := stands
              have refused : update S (byte :: rest) = none := by
                rw [update, if_neg (by simp), if_pos spent]
              rw [State.step, refused]
              exact ⟨rfl, stands⟩
          | some earlier =>
              have live : Live S outlen 0 earlier := stands
              obtain ⟨S', updated, next⟩ := live.update (byte :: rest)
              rw [State.step, updated]
              exact ⟨rfl, next⟩
  | final room =>
      cases input with
      | none =>
          have spent : S.f0 ≠ 0 := stands
          have refused : final S room = none := by
            rw [final, if_pos spent, ite_self]
          rw [State.step, refused]
          exact ⟨rfl, stands⟩
      | some earlier =>
          have live : Live S outlen 0 earlier := stands
          by_cases short : room < outlen
          · have refused : final S room = none := by
              rw [final, if_pos (live.outlen ▸ short)]
            rw [State.step, refused, Stream.step_final_of_lt short]
            exact ⟨rfl, live⟩
          · have enough : outlen ≤ room := Nat.not_lt.mp short
            obtain ⟨S', closed, spent⟩ := live.final enough
            rw [State.step, closed, Stream.step_final_of_le enough]
            exact ⟨rfl, spent⟩

/--
Whatever is called on a state, in any order and with inputs cut up in any way,
is answered as if the inputs had been collected and hashed at once.
-/
theorem stream_refines (outlen : Nat) {past : List (Call × Option (List UInt8))} {S : State}
    (history : History State.step (fun _ => True) (State.opened outlen) past S) :
    ∃ stream, History Stream.step (fun _ => True) (Stream.opened outlen) past stream :=
  (history.simulated (stands_opened outlen) fun _ _ call stands => stands.step call).imp
    fun _ answered => answered.1

/-- A buffer that is too small for the digest leaves the stream open. -/
theorem small_buffer_stream :
    ∃ stream, History Stream.step (fun _ => True) (Stream.opened 32)
      [(.update [1], some []), (.final 16, none), (.update [2, 3], some [])] stream := by
  let opened := State.opened 32
  let updated := (opened.step (.update [1])).2
  have first : History State.step (fun _ => True) opened [(.update [1], some [])] updated :=
    History.opened.called rfl trivial
  have second : History State.step (fun _ => True) opened
      [(.update [1], some []), (.final 16, none)] updated := first.called rfl trivial
  have third : History State.step (fun _ => True) opened
      [(.update [1], some []), (.final 16, none), (.update [2, 3], some [])]
      (updated.step (.update [2, 3])).2 := second.called rfl trivial
  exact stream_refines 32 third

end UltraLocked.CArgon2.Blake2b
