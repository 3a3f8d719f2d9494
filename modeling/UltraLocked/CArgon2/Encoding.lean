import UltraLocked.CArgon2.Decimal
import UltraLocked.CArgon2.FillSegment
import UltraLocked.CArgon2.Hash
import UltraLocked.CArgon2.InitialHash

/-!
# The encoded form

The second section of `encoding.c`. A string is a list of bytes that is read as
if a terminator were behind the last one. A macro that writes or reads a part of
the form is a function of what is left of the buffer or of the string.
-/

namespace UltraLocked.CArgon2

open Library Base64

/-- The codes that the encoded form adds to those of raw hashing. -/
inductive FormCode where
  | refused (code : ErrorCode)
  | encodingFail
  | decodingFail
  | verifyMismatch
  deriving DecidableEq, Repr

def ascii (text : String) : List UInt8 := text.toList.map fun c => c.val.toUInt8

/-- `argon2_type2string`; `none` is `NULL`. -/
def argon2Type2String (type : UInt32) (uppercase : Bool) : Option (List UInt8) :=
  if type = argon2d then some (if uppercase then ascii "Argon2d" else ascii "argon2d")
  else if type = argon2i then some (if uppercase then ascii "Argon2i" else ascii "argon2i")
  else if type = argon2id then some (if uppercase then ascii "Argon2id" else ascii "argon2id")
  else none

/-- `validate_inputs` inside of the encoded form -/
def validated (context : Context) : Except FormCode Unit :=
  (validateInputs (some context)).mapError .refused

/-! ## `encode_string` -/

/-- The text before `dst`, and `dst_len`. -/
structure Output where
  text : List UInt8
  room : Nat

namespace Output

/-- `SS` -/
def put (dst : Output) (str : List UInt8) : Except FormCode Output :=
  if str.length ≥ dst.room then .error .encodingFail
  else .ok ⟨dst.text ++ str, dst.room - str.length⟩

/-- `SX` -/
def putNumber (dst : Output) (x : UInt32) : Except FormCode Output := dst.put (decimal x.toNat)

/-- `SB` -/
def putBinary (dst : Output) (buf : List UInt8) : Except FormCode Output :=
  match toBase64 dst.room buf with
  | none => .error .encodingFail
  | some text => .ok ⟨dst.text ++ text, dst.room - text.length⟩

end Output

/-- `encode_string`: the text without its terminator. -/
def encodeString (dstLen : Nat) (context : Context) (type : UInt32) :
    Except FormCode (List UInt8) :=
  match argon2Type2String type false with
  | none => .error .encodingFail
  | some typeString => do
      validated context
      let dst : Output := ⟨[], dstLen⟩
      let dst ← dst.put (ascii "$")
      let dst ← dst.put typeString
      let dst ← dst.put (ascii "$v=")
      let dst ← dst.putNumber context.version
      let dst ← dst.put (ascii "$m=")
      let dst ← dst.putNumber context.mCost
      let dst ← dst.put (ascii ",t=")
      let dst ← dst.putNumber context.tCost
      let dst ← dst.put (ascii ",p=")
      let dst ← dst.putNumber context.lanes
      let dst ← dst.put (ascii "$")
      let dst ← dst.putBinary (contents context.salt context.saltlen)
      let dst ← dst.put (ascii "$")
      let dst ← dst.putBinary (contents context.out context.outlen)
      pure dst.text

/-! ## `decode_string` -/

/-- `CC` -/
def skip (text str : List UInt8) : Except FormCode (List UInt8) :=
  if text.isPrefixOf str then .ok (str.drop text.length) else .error .decodingFail

/-- `DECIMAL_U32` -/
def readU32 (str : List UInt8) : Except FormCode (UInt32 × List UInt8) :=
  match decodeDecimal str with
  | none => .error .decodingFail
  | some (x, str) =>
      if x.toNat > 0xFFFFFFFF then .error .decodingFail else .ok (x.toUInt32, str)

/-- `CC_opt` of the version, with its default -/
def readVersion (str : List UInt8) : Except FormCode (UInt32 × List UInt8) :=
  if (ascii "$v=").isPrefixOf str then readU32 (str.drop (ascii "$v=").length)
  else .ok (version10, str)

/-- `BIN` -/
def readBinary (maxLen : UInt32) (str : List UInt8) :
    Except FormCode (List UInt8 × List UInt8) :=
  match fromBase64 maxLen.toNat str with
  | none => .error .decodingFail
  | some (bytes, str) =>
      if bytes.length > 0xFFFFFFFF then .error .decodingFail else .ok (bytes, str)

/-- A buffer after its first bytes were written. -/
def overwritten (buffer : Pointer) (bytes : List UInt8) : Pointer :=
  buffer.map fun old => bytes ++ old.drop bytes.length

/-- `decode_string`: the context that it leaves when it succeeds. -/
def decodeString (context : Context) (str : List UInt8) (type : UInt32) :
    Except FormCode Context :=
  match argon2Type2String type false with
  | none => .error (.refused .incorrectType)
  | some typeString => do
      let str ← skip (ascii "$") str
      let str ← skip typeString str
      let (version, str) ← readVersion str
      let str ← skip (ascii "$m=") str
      let (mCost, str) ← readU32 str
      let str ← skip (ascii ",t=") str
      let (tCost, str) ← readU32 str
      let str ← skip (ascii ",p=") str
      let (lanes, str) ← readU32 str
      let str ← skip (ascii "$") str
      let (salt, str) ← readBinary context.saltlen str
      let str ← skip (ascii "$") str
      let (out, str) ← readBinary context.outlen str
      let context := { context with
        version := version, mCost := mCost, tCost := tCost, lanes := lanes, threads := lanes
        salt := overwritten context.salt salt, saltlen := UInt32.ofNat salt.length
        out := overwritten context.out out, outlen := UInt32.ofNat out.length
        secret := none, secretlen := 0, ad := none, adlen := 0
        allocateCbk := none, freeCbk := none, flags := 0 }
      validated context
      if str.headD 0 = 0 then pure context else .error .decodingFail

/-- `argon2_encodedlen`; for no type there is no length of a name. -/
def argon2Encodedlen (tCost mCost parallelism saltlen hashlen type : UInt32) : Option Nat :=
  (argon2Type2String type false).map fun typeString =>
    (ascii "$$v=$m=,t=,p=$$").length + typeString.length + numlen tCost + numlen mCost +
      numlen parallelism + b64len saltlen.toNat + b64len hashlen.toNat + numlen versionNumber + 1

end UltraLocked.CArgon2
