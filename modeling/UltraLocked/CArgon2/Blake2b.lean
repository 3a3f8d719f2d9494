import UltraLocked.Library.BlockStream
import UltraLocked.Library.LittleEndian

/-!
# BLAKE2b

`blake2/blake2b.c` and the loads and stores of `blake2/blake2-impl.h`. A
function that returns a code returns an option: `none` is the code -1, which
every function but `blake2b_init` returns with its state untouched.
-/

namespace UltraLocked.CArgon2.Blake2b

open Library

def blockBytes : Nat := 128
def outBytes : Nat := 64
def keyBytes : Nat := 64

def load64 (src : List UInt8) : UInt64 := UInt64.ofNat (LittleEndian.decode (src.take 8))

def store32 (w : UInt32) : List UInt8 := LittleEndian.encode 4 w.toNat

def store64 (w : UInt64) : List UInt8 := LittleEndian.encode 8 w.toNat

def rotr64 (w : UInt64) (c : UInt64) : UInt64 := (w >>> c) ||| (w <<< (64 - c))

def iv : Vector UInt64 8 := #v[
  0x6a09e667f3bcc908, 0xbb67ae8584caa73b, 0x3c6ef372fe94f82b, 0xa54ff53a5f1d36f1,
  0x510e527fade682d1, 0x9b05688c2b3e6c1f, 0x1f83d9abfb41bd6b, 0x5be0cd19137e2179]

def sigma : Vector (Vector (Fin 16) 16) 12 := #v[
  #v[0, 1, 2, 3, 4, 5, 6, 7, 8, 9, 10, 11, 12, 13, 14, 15],
  #v[14, 10, 4, 8, 9, 15, 13, 6, 1, 12, 0, 2, 11, 7, 5, 3],
  #v[11, 8, 12, 0, 5, 2, 15, 13, 10, 14, 3, 6, 7, 1, 9, 4],
  #v[7, 9, 3, 1, 13, 12, 11, 14, 2, 6, 5, 10, 4, 0, 15, 8],
  #v[9, 0, 5, 7, 2, 4, 10, 15, 14, 1, 11, 12, 6, 8, 3, 13],
  #v[2, 12, 6, 10, 0, 11, 8, 3, 4, 13, 7, 5, 15, 14, 1, 9],
  #v[12, 5, 1, 15, 14, 13, 4, 10, 0, 7, 6, 3, 9, 2, 8, 11],
  #v[13, 11, 7, 14, 12, 1, 3, 9, 5, 0, 15, 4, 8, 6, 2, 10],
  #v[6, 15, 14, 9, 11, 3, 0, 8, 12, 2, 13, 7, 1, 4, 10, 5],
  #v[10, 2, 8, 4, 7, 6, 1, 5, 15, 11, 9, 14, 3, 12, 13, 0],
  #v[0, 1, 2, 3, 4, 5, 6, 7, 8, 9, 10, 11, 12, 13, 14, 15],
  #v[14, 10, 4, 8, 9, 15, 13, 6, 1, 12, 0, 2, 11, 7, 5, 3]]

structure Param where
  digestLength : UInt8
  keyLength : UInt8
  fanout : UInt8
  depth : UInt8
  leafLength : UInt32
  nodeOffset : UInt64
  nodeDepth : UInt8
  innerLength : UInt8
  reserved : List UInt8
  salt : List UInt8
  personal : List UInt8

/-- The packed structure in memory. -/
def Param.bytes (param : Param) : List UInt8 :=
  [param.digestLength, param.keyLength, param.fanout, param.depth] ++
    store32 param.leafLength ++ store64 param.nodeOffset ++
    [param.nodeDepth, param.innerLength] ++ param.reserved ++ param.salt ++ param.personal

/-- `blake2b_state`; the buffer holds `buflen` pending bytes and old ones behind them. -/
structure State where
  h : Vector UInt64 8
  t0 : UInt64
  t1 : UInt64
  f0 : UInt64
  f1 : UInt64
  buf : List UInt8
  buflen : Nat
  outlen : Nat
  lastNode : UInt8
  deriving DecidableEq, Repr

/-- A state of zero bytes. -/
def State.zero : State where
  h := Vector.replicate 8 0
  t0 := 0
  t1 := 0
  f0 := 0
  f1 := 0
  buf := List.replicate blockBytes 0
  buflen := 0
  outlen := 0
  lastNode := 0

/-- `blake2b_set_lastblock`, with `blake2b_set_lastnode`. -/
def setLastblock (S : State) : State :=
  let S := if S.lastNode ≠ 0 then { S with f1 := -1 } else S
  { S with f0 := -1 }

def incrementCounter (S : State) (inc : UInt64) : State :=
  let t0 := S.t0 + inc
  { S with t0 := t0, t1 := S.t1 + if t0 < inc then 1 else 0 }

/-- `blake2b_invalidate_state` -/
def invalidated : State := setLastblock State.zero

/-- `blake2b_init_param`, with `blake2b_init0`. -/
def initParam (param : Param) : State :=
  { State.zero with
    h := Vector.ofFn fun i : Fin 8 => iv[i] ^^^ load64 (param.bytes.drop (8 * i.val))
    outlen := param.digestLength.toNat }

/-- The parameter block of sequential BLAKE2. -/
def sequential (outlen keylen : Nat) : Param where
  digestLength := UInt8.ofNat outlen
  keyLength := UInt8.ofNat keylen
  fanout := 1
  depth := 1
  leafLength := 0
  nodeOffset := 0
  nodeDepth := 0
  innerLength := 0
  reserved := List.replicate 14 0
  salt := List.replicate 16 0
  personal := List.replicate 16 0

def init (outlen : Nat) : Option State :=
  if outlen = 0 ∨ outlen > outBytes then none else some (initParam (sequential outlen 0))

/-- The macro `G` of `blake2b_compress`. -/
def mix (m : Vector UInt64 16) (r : Fin 12) (i : Fin 8) (a b c d : Fin 16)
    (v : Vector UInt64 16) : Vector UInt64 16 :=
  let x := m[sigma[r][2 * i.val]]
  let y := m[sigma[r][2 * i.val + 1]]
  let va := v[a] + v[b] + x
  let vd := rotr64 (v[d] ^^^ va) 32
  let vc := v[c] + vd
  let vb := rotr64 (v[b] ^^^ vc) 24
  let va := va + vb + y
  let vd := rotr64 (vd ^^^ va) 16
  let vc := vc + vd
  let vb := rotr64 (vb ^^^ vc) 63
  (((v.set a va).set b vb).set c vc).set d vd

/-- The macro `ROUND` of `blake2b_compress`. -/
def round (m : Vector UInt64 16) (v : Vector UInt64 16) (r : Fin 12) : Vector UInt64 16 :=
  let v := mix m r 0 0 4 8 12 v
  let v := mix m r 1 1 5 9 13 v
  let v := mix m r 2 2 6 10 14 v
  let v := mix m r 3 3 7 11 15 v
  let v := mix m r 4 0 5 10 15 v
  let v := mix m r 5 1 6 11 12 v
  let v := mix m r 6 2 7 8 13 v
  mix m r 7 3 4 9 14 v

/-- The chaining value that `blake2b_compress` computes. -/
def compressed (h : Vector UInt64 8) (t0 t1 f0 f1 : UInt64) (block : List UInt8) :
    Vector UInt64 8 :=
  let m : Vector UInt64 16 := Vector.ofFn fun i : Fin 16 => load64 (block.drop (8 * i.val))
  let v : Vector UInt64 16 := #v[
    h[0], h[1], h[2], h[3], h[4], h[5], h[6], h[7],
    iv[0], iv[1], iv[2], iv[3], iv[4] ^^^ t0, iv[5] ^^^ t1, iv[6] ^^^ f0, iv[7] ^^^ f1]
  let v := (List.finRange 12).foldl (round m) v
  Vector.ofFn fun i : Fin 8 => h[i] ^^^ v[i.val] ^^^ v[i.val + 8]

def compress (S : State) (block : List UInt8) : State :=
  { S with h := compressed S.h S.t0 S.t1 S.f0 S.f1 block }

/-- The loop of `blake2b_update` over the blocks that need no copy. -/
def updateBlocks (S : State) (pin : List UInt8) : State × List UInt8 :=
  if blockBytes < pin.length then
    updateBlocks (compress (incrementCounter S (UInt64.ofNat blockBytes)) (pin.take blockBytes))
      (pin.drop blockBytes)
  else (S, pin)
termination_by pin.length
decreasing_by
  rw [List.length_drop]
  simp only [blockBytes] at *
  omega

/-- `memcpy(&buf[offset], src, length of src)` -/
def memcpyAt (buf : List UInt8) (offset : Nat) (src : List UInt8) : List UInt8 :=
  buf.take offset ++ src ++ buf.drop (offset + src.length)

/-- `blake2b_update`: the input has as many bytes as the call says. -/
def update (S : State) (input : List UInt8) : Option State :=
  if input.length = 0 then some S
  else if S.f0 ≠ 0 then none
  else
    let (S, pin) :=
      if S.buflen + input.length > blockBytes then
        let fill := blockBytes - S.buflen
        let S := { S with buf := memcpyAt S.buf S.buflen (input.take fill) }
        let S := compress (incrementCounter S (UInt64.ofNat blockBytes)) S.buf
        updateBlocks { S with buflen := 0 } (input.drop fill)
      else (S, input)
    some { S with
      buf := memcpyAt S.buf S.buflen pin
      buflen := S.buflen + pin.length }

/-- The eight words as bytes. -/
def storeWords (h : Vector UInt64 8) : List UInt8 := h.toList.flatMap store64

/-- `blake2b_final`: the bytes it writes and the wiped state. -/
def final (S : State) (outlen : Nat) : Option (List UInt8 × State) :=
  if outlen < S.outlen then none
  else if S.f0 ≠ 0 then none
  else
    let S := setLastblock (incrementCounter S (UInt64.ofNat S.buflen))
    let padding := List.replicate (blockBytes - S.buflen) 0
    let S := { S with buf := memcpyAt S.buf S.buflen padding }
    let S := compress S S.buf
    let buffer := storeWords S.h
    some (buffer.take S.outlen,
      { S with buf := List.replicate blockBytes 0, h := Vector.replicate 8 0 })

def initKey (outlen : Nat) (key : List UInt8) : Option State :=
  if outlen = 0 ∨ outlen > outBytes then none
  else if key.length = 0 ∨ key.length > keyBytes then none
  else
    let S := initParam (sequential outlen key.length)
    some ((update S (key ++ List.replicate (blockBytes - key.length) 0)).getD S)

def blake2b (outlen : Nat) (input key : List UInt8) : Option (List UInt8) := do
  if outlen = 0 ∨ outlen > outBytes then none
  if key.length > keyBytes then none
  let S ← if key.length > 0 then initKey outlen key else init outlen
  let S ← update S input
  let (out, _) ← final S outlen
  pure out

end UltraLocked.CArgon2.Blake2b
