import UltraLocked.CArgon2.Blake2bStream
import UltraLocked.CArgon2.Core

/-!
# The first hash

`initial_hash` of `core.c`. All inputs of a hash go into one byte string,
numbers in four bytes and buffers behind their lengths, so that inputs that
differ anywhere are told apart before anything is hashed.
-/

namespace UltraLocked.CArgon2

open Library Blake2b

def prehashDigestLength : Nat := 64

def flagClearPassword : UInt32 := (1 : UInt32) <<< 0
def flagClearSecret : UInt32 := (1 : UInt32) <<< 1

/-- An update whose code is ignored. -/
def feed (S : State) (input : List UInt8) : State := (update S input).getD S

/-- The length of a buffer, then its bytes unless it is `NULL`. -/
def feedBuffer (S : State) (buffer : Pointer) (length : UInt32) : State :=
  let S := feed S (store32 length)
  match buffer with
  | some bytes => feed S (bytes.take length.toNat)
  | none => S

/-- `secure_wipe_memory` of the bytes of a buffer. -/
def wiped (buffer : Pointer) (length : UInt32) : Pointer :=
  buffer.map fun bytes => List.replicate length.toNat 0 ++ bytes.drop length.toNat

/-- The password is wiped once it is hashed, where the flags ask for it. -/
def clearPassword (context : Context) : Context :=
  if context.pwd.isSome ∧ context.flags &&& flagClearPassword ≠ 0 then
    { context with pwd := wiped context.pwd context.pwdlen, pwdlen := 0 }
  else context

/-- The same for the secret. -/
def clearSecret (context : Context) : Context :=
  if context.secret.isSome ∧ context.flags &&& flagClearSecret ≠ 0 then
    { context with secret := wiped context.secret context.secretlen, secretlen := 0 }
  else context

/-- `initial_hash`: the digest, and the context it leaves. -/
def initialHash (context : Context) (type : UInt32) : List UInt8 × Context :=
  let S := (init prehashDigestLength).getD invalidated
  let S := feed S (store32 context.lanes)
  let S := feed S (store32 context.outlen)
  let S := feed S (store32 context.mCost)
  let S := feed S (store32 context.tCost)
  let S := feed S (store32 context.version)
  let S := feed S (store32 type)
  let S := feedBuffer S context.pwd context.pwdlen
  let context := clearPassword context
  let S := feedBuffer S context.salt context.saltlen
  let S := feedBuffer S context.secret context.secretlen
  let context := clearSecret context
  let S := feedBuffer S context.ad context.adlen
  (((Blake2b.final S prehashDigestLength).map Prod.fst).getD [], context)

section Clearing

variable (context : Context)

@[simp] theorem clearPassword_salt : (clearPassword context).salt = context.salt := by
  rw [clearPassword]; split <;> rfl

@[simp] theorem clearPassword_saltlen : (clearPassword context).saltlen = context.saltlen := by
  rw [clearPassword]; split <;> rfl

@[simp] theorem clearPassword_secret : (clearPassword context).secret = context.secret := by
  rw [clearPassword]; split <;> rfl

@[simp] theorem clearPassword_secretlen :
    (clearPassword context).secretlen = context.secretlen := by
  rw [clearPassword]; split <;> rfl

@[simp] theorem clearPassword_ad : (clearPassword context).ad = context.ad := by
  rw [clearPassword]; split <;> rfl

@[simp] theorem clearPassword_adlen : (clearPassword context).adlen = context.adlen := by
  rw [clearPassword]; split <;> rfl

@[simp] theorem clearSecret_ad : (clearSecret context).ad = context.ad := by
  rw [clearSecret]; split <;> rfl

@[simp] theorem clearSecret_adlen : (clearSecret context).adlen = context.adlen := by
  rw [clearSecret]; split <;> rfl

end Clearing

/-! ## What is hashed -/

/-- The bytes of a buffer that a hash reads. -/
def contents (buffer : Pointer) (length : UInt32) : List UInt8 :=
  (buffer.getD []).take length.toNat

/-- A buffer in the hashed string. -/
def prefixed (buffer : Pointer) (length : UInt32) : List UInt8 :=
  store32 length ++ contents buffer length

/-- The string that `initial_hash` hashes. -/
def preimage (context : Context) (type : UInt32) : List UInt8 :=
  store32 context.lanes ++ (store32 context.outlen ++ (store32 context.mCost ++
    (store32 context.tCost ++ (store32 context.version ++ (store32 type ++
      (prefixed context.pwd context.pwdlen ++ (prefixed context.salt context.saltlen ++
        (prefixed context.secret context.secretlen ++
          prefixed context.ad context.adlen))))))))

/-- A live state takes every update. -/
theorem feed_live {S : State} {outlen keylen : Nat} {earlier : List UInt8}
    (live : Live S outlen keylen earlier) (input : List UInt8) :
    Live (feed S input) outlen keylen (earlier ++ input) := by
  obtain ⟨S', updated, next⟩ := live.update input
  rwa [feed, updated]

theorem feedBuffer_live {S : State} {outlen keylen : Nat} {earlier : List UInt8}
    (live : Live S outlen keylen earlier) (buffer : Pointer) (length : UInt32) :
    Live (feedBuffer S buffer length) outlen keylen (earlier ++ prefixed buffer length) := by
  have measured := feed_live live (store32 length)
  cases buffer with
  | none =>
      rw [prefixed, contents, Option.getD_none, List.take_nil, List.append_nil]
      exact measured
  | some bytes =>
      have filled := feed_live measured (bytes.take length.toNat)
      rwa [List.append_assoc] at filled

/-- The digest is that of one string, wherever the flags wipe an input in between. -/
theorem initialHash_eq (context : Context) (type : UInt32) :
    (initialHash context type).1 = digest prehashDigestLength 0 (preimage context type) := by
  obtain ⟨S, opened, fresh⟩ := init_live (show 0 < prehashDigestLength by decide) (Nat.le_refl _)
  have lanes := feed_live fresh (store32 context.lanes)
  have outlen := feed_live lanes (store32 context.outlen)
  have mCost := feed_live outlen (store32 context.mCost)
  have tCost := feed_live mCost (store32 context.tCost)
  have version := feed_live tCost (store32 context.version)
  have typed := feed_live version (store32 type)
  have pwd := feedBuffer_live typed context.pwd context.pwdlen
  have salt := feedBuffer_live pwd context.salt context.saltlen
  have secret := feedBuffer_live salt context.secret context.secretlen
  have ad := feedBuffer_live secret context.ad context.adlen
  obtain ⟨S', closed, -⟩ := ad.final (Nat.le_refl _)
  simp only [List.nil_append, List.append_assoc] at closed
  simp only [initialHash, opened, Option.getD_some, clearPassword_salt, clearPassword_saltlen,
    clearPassword_secret, clearPassword_secretlen, clearPassword_ad, clearPassword_adlen,
    clearSecret_ad, clearSecret_adlen, closed, Option.map_some]
  rfl

/-! ## The string determines the inputs -/

/-- Every buffer is at least as long as its length says; `NULL` goes with length 0. -/
structure Backed (context : Context) : Prop where
  pwd : context.pwdlen.toNat ≤ (context.pwd.getD []).length
  salt : context.saltlen.toNat ≤ (context.salt.getD []).length
  secret : context.secretlen.toNat ≤ (context.secret.getD []).length
  ad : context.adlen.toNat ≤ (context.ad.getD []).length

/-- Two hashes of the same inputs; memory, threads, flags and callbacks are not among them. -/
structure SameInputs (left right : Context) (type type' : UInt32) : Prop where
  lanes : left.lanes = right.lanes
  outlen : left.outlen = right.outlen
  mCost : left.mCost = right.mCost
  tCost : left.tCost = right.tCost
  version : left.version = right.version
  type : type = type'
  pwd : contents left.pwd left.pwdlen = contents right.pwd right.pwdlen
  salt : contents left.salt left.saltlen = contents right.salt right.saltlen
  secret : contents left.secret left.secretlen = contents right.secret right.secretlen
  ad : contents left.ad left.adlen = contents right.ad right.adlen

theorem store32_injective {v w : UInt32} (same : store32 v = store32 w) : v = w :=
  UInt32.toNat_inj.mp (LittleEndian.encode_injective v.toNat_lt w.toNat_lt same)

theorem length_store32 (w : UInt32) : (store32 w).length = 4 := LittleEndian.length_encode 4 _

/-- A number in front of a string is read off it. -/
theorem store32_append_inj {v w : UInt32} {rest rest' : List UInt8} :
    store32 v ++ rest = store32 w ++ rest' ↔ v = w ∧ rest = rest' := by
  constructor
  · intro same
    obtain ⟨heads, tails⟩ := List.append_inj same
      ((length_store32 v).trans (length_store32 w).symm)
    exact ⟨store32_injective heads, tails⟩
  · rintro ⟨rfl, rfl⟩
    rfl

theorem length_contents {buffer : Pointer} {length : UInt32}
    (backed : length.toNat ≤ (buffer.getD []).length) :
    (contents buffer length).length = length.toNat := List.length_take_of_le backed

/-- So is a buffer behind its length. -/
theorem prefixed_append_inj {buffer buffer' : Pointer} {length length' : UInt32}
    (backed : length.toNat ≤ (buffer.getD []).length)
    (backed' : length'.toNat ≤ (buffer'.getD []).length) (rest rest' : List UInt8) :
    prefixed buffer length ++ rest = prefixed buffer' length' ++ rest' ↔
      contents buffer length = contents buffer' length' ∧ rest = rest' := by
  rw [prefixed, prefixed, List.append_assoc, List.append_assoc, store32_append_inj]
  constructor
  · rintro ⟨rfl, same⟩
    exact List.append_inj same ((length_contents backed).trans (length_contents backed').symm)
  · rintro ⟨bytes, rfl⟩
    have counted := congrArg List.length bytes
    rw [length_contents backed, length_contents backed'] at counted
    exact ⟨UInt32.toNat_inj.mp counted, by rw [bytes]⟩

/--
The first hash is the 64-byte digest of one string, and two strings are equal
only for hashes of the same inputs: no password runs over into the salt, and
no cost is taken for another.
-/
theorem initialHash_separates {left right : Context} (backed : Backed left)
    (backed' : Backed right) (type type' : UInt32) :
    (initialHash left type).1 = digest prehashDigestLength 0 (preimage left type) ∧
      (preimage left type = preimage right type' ↔ SameInputs left right type type') := by
  refine ⟨initialHash_eq left type, ?_⟩
  have last : prefixed left.ad left.adlen = prefixed right.ad right.adlen ↔
      contents left.ad left.adlen = contents right.ad right.adlen := by
    simpa only [List.append_nil, and_true] using
      prefixed_append_inj backed.ad backed'.ad [] []
  simp only [preimage, store32_append_inj, prefixed_append_inj backed.pwd backed'.pwd,
    prefixed_append_inj backed.salt backed'.salt,
    prefixed_append_inj backed.secret backed'.secret, last]
  constructor
  · rintro ⟨lanes, outlen, mCost, tCost, version, typed, pwd, salt, secret, ad⟩
    exact ⟨lanes, outlen, mCost, tCost, version, typed, pwd, salt, secret, ad⟩
  · rintro ⟨lanes, outlen, mCost, tCost, version, typed, pwd, salt, secret, ad⟩
    exact ⟨lanes, outlen, mCost, tCost, version, typed, pwd, salt, secret, ad⟩

/-- A context with a password and a salt, and one lane of 8 blocks. -/
def plainContext (pwd salt : List UInt8) : Context where
  out := some []
  outlen := 32
  pwd := some pwd
  pwdlen := UInt32.ofNat pwd.length
  salt := some salt
  saltlen := UInt32.ofNat salt.length
  secret := none
  secretlen := 0
  ad := none
  adlen := 0
  tCost := 1
  mCost := 8
  lanes := 1
  threads := 1
  version := 0x13
  allocateCbk := none
  freeCbk := none
  flags := 0

/-- A byte moved from the password to the salt is another input. -/
theorem moved_byte_separates :
    preimage (plainContext [1, 2] [3]) 2 ≠ preimage (plainContext [1] [2, 3]) 2 := by
  intro same
  have long : Backed (plainContext [1, 2] [3]) := ⟨by decide, by decide, by decide, by decide⟩
  have short : Backed (plainContext [1] [2, 3]) := ⟨by decide, by decide, by decide, by decide⟩
  have inputs := (initialHash_separates long short 2 2).2.mp same
  exact absurd inputs.pwd (by decide)

end UltraLocked.CArgon2
