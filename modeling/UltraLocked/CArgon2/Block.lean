import UltraLocked.CArgon2.Blake2b

/-!
# Memory blocks

The block functions of `core.c`, the permutation of
`blake2/blamka-round-ref.h`, and `fill_block` of `ref.c`.
-/

namespace UltraLocked.CArgon2

open Library Blake2b

abbrev Block : Type := Vector UInt64 128

/-- A block of zero bytes. -/
def zeroBlock : Block := Vector.replicate 128 0

def xorBlock (dst src : Block) : Block := Vector.zipWith (· ^^^ ·) dst src

def loadBlock (input : List UInt8) : Block :=
  Vector.ofFn fun i : Fin 128 => load64 (input.drop (8 * i.val))

def storeBlock (src : Block) : List UInt8 := src.toList.flatMap store64

def fBlaMka (x y : UInt64) : UInt64 :=
  let m : UInt64 := 0xFFFFFFFF
  let xy := (x &&& m) * (y &&& m)
  x + y + 2 * xy

/-- The macro `G` of the block permutation. -/
def blaMka (a b c d : Fin 128) (v : Block) : Block :=
  let va := fBlaMka v[a] v[b]
  let vd := rotr64 (v[d] ^^^ va) 32
  let vc := fBlaMka v[c] vd
  let vb := rotr64 (v[b] ^^^ vc) 24
  let va := fBlaMka va vb
  let vd := rotr64 (vd ^^^ va) 16
  let vc := fBlaMka vc vd
  let vb := rotr64 (vb ^^^ vc) 63
  (((v.set a va).set b vb).set c vc).set d vd

/-- `BLAKE2_ROUND_NOMSG` on sixteen words of a block. -/
def blake2RoundNomsg (w : Vector (Fin 128) 16) (v : Block) : Block :=
  let v := blaMka w[0] w[4] w[8] w[12] v
  let v := blaMka w[1] w[5] w[9] w[13] v
  let v := blaMka w[2] w[6] w[10] w[14] v
  let v := blaMka w[3] w[7] w[11] w[15] v
  let v := blaMka w[0] w[5] w[10] w[15] v
  let v := blaMka w[1] w[6] w[11] w[12] v
  let v := blaMka w[2] w[7] w[8] w[13] v
  blaMka w[3] w[4] w[9] w[14] v

/-- The words `16 * i` to `16 * i + 15`. -/
def columnWords (i : Fin 8) : Vector (Fin 128) 16 :=
  Vector.ofFn fun j : Fin 16 => ⟨16 * i.val + j.val, by omega⟩

/-- The words `2 * i`, `2 * i + 1`, `2 * i + 16`, `2 * i + 17` up to `2 * i + 113`. -/
def rowWords (i : Fin 8) : Vector (Fin 128) 16 :=
  Vector.ofFn fun j : Fin 16 => ⟨2 * i.val + 16 * (j.val / 2) + j.val % 2, by omega⟩

/-- `fill_block`: the block that is constructed, from the one it replaces too where asked. -/
def fillBlock (prevBlock refBlock nextBlock : Block) (withXor : Bool) : Block :=
  let blockR := xorBlock refBlock prevBlock
  let blockTmp := if withXor then xorBlock blockR nextBlock else blockR
  let blockR := (List.finRange 8).foldl (fun v i => blake2RoundNomsg (columnWords i) v) blockR
  let blockR := (List.finRange 8).foldl (fun v i => blake2RoundNomsg (rowWords i) v) blockR
  xorBlock blockTmp blockR

/-- A block that is overwritten does not count. -/
theorem fillBlock_overwrites (prevBlock refBlock nextBlock nextBlock' : Block) :
    fillBlock prevBlock refBlock nextBlock false = fillBlock prevBlock refBlock nextBlock' false :=
  rfl

end UltraLocked.CArgon2
