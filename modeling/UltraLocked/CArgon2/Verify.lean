import Mathlib.Data.List.TakeWhile
import UltraLocked.CArgon2.EncodedRoundTrip
import UltraLocked.CArgon2.HashRuns

/-!
# Verification of a password

`argon2.c` with the encoded form. A text that was written for one password is
accepted for another one exactly when both have the same tag, wherever and in
whatever order of threads the two tags are computed.
-/

namespace UltraLocked.CArgon2

open Library Blake2b

/-- What `argon2_hash` writes: the tag, and the encoded form where it is asked for. -/
structure Hashed where
  hash : List UInt8
  encoded : Option (List UInt8)

/-- `argon2_hash`; a length of 0 stands also for an encoded form at `NULL`. -/
def argon2HashForm (machine : Machine) (arguments : HashArguments) (encodedlen : Nat) :
    Except FormCode Hashed := do
  let out ← (argon2Hash machine arguments).mapError .refused
  if encodedlen = 0 then pure ⟨out, none⟩
  else match encodeString encodedlen (contextOf (some out) arguments) arguments.type with
    | .error _ => .error .encodingFail
    | .ok text => pure ⟨out, some text⟩

def argon2Compare (b1 b2 : List UInt8) (len : Nat) : Int32 :=
  let d := (List.range len).foldl (fun d i => d ||| (b1.getD i 0 ^^^ b2.getD i 0)) (0 : UInt8)
  ((1 : Int32) &&& ((d.toUInt32.toInt32 - 1) >>> (8 : Int32))) - 1

def argon2VerifyCtx (machine : Machine) (context : Context) (hash : List UInt8)
    (type : UInt32) : Except FormCode Unit := do
  let out ← (argon2Ctx machine context type).mapError .refused
  refuseIf (argon2Compare hash out context.outlen.toNat ≠ 0) .verifyMismatch

/-- The context that `argon2_verify` decodes into; what it leaves unset is decoded. -/
def verifyContext (salt out pwd : Pointer) (maxFieldLen pwdlen : UInt32) : Context where
  out := out
  outlen := maxFieldLen
  pwd := pwd
  pwdlen := pwdlen
  salt := salt
  saltlen := maxFieldLen
  secret := none
  secretlen := 0
  ad := none
  adlen := 0
  tCost := 0
  mCost := 0
  lanes := 0
  threads := 0
  version := 0
  allocateCbk := none
  freeCbk := none
  flags := 0

def strlen (str : List UInt8) : Nat := (str.takeWhile (· ≠ 0)).length

def argon2Verify (machine : Machine) (encoded pwd : Pointer) (pwdlen : UInt64) (type : UInt32) :
    Except FormCode Unit := do
  refuseIf (pwdlen > maxPwdLength.toUInt64) (.refused .pwdTooLong)
  match encoded with
  | none => .error .decodingFail
  | some encoded => do
      refuseIf (strlen encoded > 0xFFFFFFFF) .decodingFail
      let maxFieldLen := UInt32.ofNat (strlen encoded)
      let salt := machine.malloc maxFieldLen.toUInt64
      let out := machine.malloc maxFieldLen.toUInt64
      refuseIf (salt = none ∨ out = none) (.refused .memoryAllocationError)
      let context ← decodeString (verifyContext salt out pwd maxFieldLen pwdlen.toUInt32)
        encoded type
      let desired := context.out.getD []
      let out := machine.malloc context.outlen.toUInt64
      refuseIf (out = none) (.refused .memoryAllocationError)
      argon2VerifyCtx machine { context with out := out } desired type

/-! ## `argon2_compare` -/

/-- The return value is zero when no difference was collected. -/
theorem difference_eq_zero_iff (d : UInt8) :
    ((1 : Int32) &&& ((d.toUInt32.toInt32 - 1) >>> (8 : Int32))) - 1 = 0 ↔ d = 0 :=
  Base64.forall_bytes (P := fun d =>
    ((1 : Int32) &&& ((d.toUInt32.toInt32 - 1) >>> (8 : Int32))) - 1 = 0 ↔ d = 0)
    (by decide +kernel) d

theorem or_eq_zero_iff (a b : UInt8) : a ||| b = 0 ↔ a = 0 ∧ b = 0 := by
  simp only [← UInt8.toNat_inj, UInt8.toNat_or, UInt8.toNat_zero, Nat.or_eq_zero_iff]

/-- No difference is collected exactly where there is none; induction on the length. -/
theorem argon2Compare_eq_zero_iff (b1 b2 : List UInt8) (len : Nat) :
    argon2Compare b1 b2 len = 0 ↔ ∀ i < len, b1.getD i 0 = b2.getD i 0 := by
  rw [argon2Compare, difference_eq_zero_iff]
  induction len with
  | zero => exact iff_of_true rfl fun _ never => absurd never (Nat.not_lt_zero _)
  | succ len ih =>
      rw [List.range_succ, List.foldl_append, List.foldl_cons, List.foldl_nil, or_eq_zero_iff, ih,
        UInt8.xor_eq_zero_iff]
      exact Nat.forall_lt_succ_right.symm

/-- Byte strings of the compared length are compared, whatever is behind the first. -/
theorem argon2Compare_of_length {b1 b2 : List UInt8} {len : Nat} (length : b1.length = len)
    (length' : b2.length = len) (behind : List UInt8) :
    argon2Compare (b1 ++ behind) b2 len = 0 ↔ b1 = b2 := by
  rw [argon2Compare_eq_zero_iff]
  constructor
  · intro same
    apply List.ext_getElem (length.trans length'.symm)
    intro i inside inside'
    have byte := same i (length ▸ inside)
    rwa [List.getD_eq_getElem?_getD, List.getD_eq_getElem?_getD,
      List.getElem?_append_left inside, List.getElem?_eq_getElem inside,
      List.getElem?_eq_getElem inside'] at byte
  · rintro rfl i inside
    rw [List.getD_eq_getElem?_getD, List.getD_eq_getElem?_getD,
      List.getElem?_append_left (length ▸ inside)]

/-! ## Tags of contexts -/

/-- A tag depends on the hashed inputs and on the costs. -/
theorem CostsValid.tag_congr {left right : Context} (valid : CostsValid left)
    (valid' : CostsValid right) (type : UInt32) (inputs : preimage left type = preimage right type)
    (outlen : left.outlen = right.outlen) (mCost : left.mCost = right.mCost)
    (tCost : left.tCost = right.tCost) (lanes : left.lanes = right.lanes)
    (threads : left.threads = right.threads) (version : left.version = right.version) :
    valid.tag type = valid'.tag type := by
  have instances : instanceOf left type = instanceOf right type := by
    simp only [instanceOf, mCost, tCost, lanes, threads, version]
  have geometries : valid.geometry = valid'.geometry := by
    simp only [CostsValid.geometry, lanes, mCost]
  have fillings : valid.filling type = valid'.filling type := by
    rw [CostsValid.filling, CostsValid.filling, instances, geometries, inputs]
  rw [CostsValid.tag, CostsValid.tag, fillings, geometries, outlen, tCost]

theorem CostsValid.length_tag {context : Context} (valid : CostsValid context) (type : UInt32) :
    (valid.tag type).length = context.outlen.toNat := length_longDigest _ _

/-- A machine that provides memory and threads returns the tag of every valid context. -/
theorem argon2Ctx_tag {machine : Machine} (provides : machine.Provides) (runs : machine.Runs)
    {context : Context} {type : UInt32} (own : context.allocateCbk = none)
    (valid : validateInputs (some context) = .ok ())
    (known : ¬ (argon2d ≠ type ∧ argon2i ≠ type ∧ argon2id ≠ type)) :
    ∃ costs : CostsValid context, argon2Ctx machine context type = .ok (costs.tag type) := by
  obtain ⟨buffers, costs⟩ := validateInputs_eq_ok_iff.mp valid
  have outlen := buffers.outlen
  obtain ⟨memory, allocated⟩ :=
    allocateMemory_returns provides own (instanceOf context type).memoryBlocks
  have filled : fillMemoryBlocks machine { instanceOf context type with memory := memory } =
      .ok () := fillMemoryBlocks_returns provides costs.lanes_ne_zero
  refine ⟨costs, argon2Ctx_eq_ok_iff.mpr ⟨valid, known, memory, allocated, filled, ?_⟩⟩
  exact Computes.tag_eq costs type memory (by omega) (runs context type memory valid filled)

/-- The tag is compared with what was set aside. -/
theorem argon2VerifyCtx_eq {machine : Machine} (provides : machine.Provides)
    (runs : machine.Runs) {context : Context} {type : UInt32} (own : context.allocateCbk = none)
    (valid : validateInputs (some context) = .ok ())
    (known : ¬ (argon2d ≠ type ∧ argon2i ≠ type ∧ argon2id ≠ type)) {hash : List UInt8}
    (length : hash.length = context.outlen.toNat) (behind : List UInt8) :
    ∃ costs : CostsValid context, argon2VerifyCtx machine context (hash ++ behind) type =
      if hash = costs.tag type then .ok () else .error .verifyMismatch := by
  obtain ⟨costs, computed⟩ := argon2Ctx_tag provides runs own valid known
  have compared := argon2Compare_of_length length (costs.length_tag type) behind
  refine ⟨costs, ?_⟩
  rw [argon2VerifyCtx, computed]
  change refuseIf (argon2Compare (hash ++ behind) (costs.tag type) context.outlen.toNat ≠ 0) _ = _
  by_cases same : hash = costs.tag type
  · rw [if_pos same, refuseIf_neg (not_not.mpr (compared.mpr same))]
  · rw [if_neg same, refuseIf_pos (mt compared.mp same)]

/-! ## Texts without terminators inside -/

/-- A string that ends where it seems to end. -/
def Plain (str : List UInt8) : Prop := ∀ c ∈ str, c ≠ 0

instance (str : List UInt8) : Decidable (Plain str) :=
  inferInstanceAs (Decidable (∀ c ∈ str, c ≠ 0))

theorem Plain.append {front behind : List UInt8} (first : Plain front) (second : Plain behind) :
    Plain (front ++ behind) :=
  fun c member => (List.mem_append.mp member).elim (first c) (second c)

theorem plain_decimal (number : Nat) : Plain (decimal number) := by
  rintro c member rfl
  exact absurd (isDigit_of_mem_decimal 0 member) (by decide)

theorem plain_base64 (bytes : List UInt8) : Plain (Base64.base64 bytes) := by
  intro c member
  obtain ⟨digit, known, rfl⟩ := List.mem_map.mp member
  have each : ∀ digit < 64, Base64.symbol digit ≠ 0 := by decide +kernel
  exact each digit (Base64.sextets_lt bytes digit known)

theorem plain_name {type : UInt32} {typeString : List UInt8}
    (named : argon2Type2String type false = some typeString) : Plain typeString := by
  rcases argon2Type2String_cases named with ⟨-, rfl⟩ | ⟨-, rfl⟩ | ⟨-, rfl⟩ <;>
    decide +kernel

theorem Form.plain_text {type : UInt32} {typeString : List UInt8}
    (named : argon2Type2String type false = some typeString) (form : Form) :
    Plain (form.text typeString) := by
  have dollar : Plain (ascii "$") := by decide +kernel
  have version : Plain (ascii "$v=") := by decide +kernel
  have mCost : Plain (ascii "$m=") := by decide +kernel
  have tCost : Plain (ascii ",t=") := by decide +kernel
  have lanes : Plain (ascii ",p=") := by decide +kernel
  have costs : Plain form.costsText :=
    mCost.append ((plain_decimal _).append (tCost.append ((plain_decimal _).append
      (lanes.append (plain_decimal _)))))
  exact dollar.append ((plain_name named).append ((version.append (plain_decimal _)).append
    (costs.append (dollar.append ((plain_base64 _).append
      (dollar.append (plain_base64 _)))))))

theorem Plain.strlen_eq {str : List UInt8} (plain : Plain str) : strlen str = str.length := by
  rw [strlen]
  congr 1
  exact List.takeWhile_eq_self_iff.mpr fun c member => decide_eq_true (plain c member)

/-- No field is longer than the text. -/
theorem Form.fields_le_text (form : Form) (typeString : List UInt8) :
    form.salt.length ≤ (form.text typeString).length ∧
      form.out.length ≤ (form.text typeString).length := by
  have wide (bytes : List UInt8) : bytes.length ≤ (Base64.base64 bytes).length := by
    obtain ⟨free, few, regrouped⟩ := Base64.sextets_regrouped bytes
    have bits := regrouped.bits_eq
    rw [List.length_map] at bits
    rw [Base64.base64, List.length_map]
    omega
  have salt := wide form.salt
  have out := wide form.out
  simp only [Form.text, assembled, List.length_append]
  omega

/-! ## Hashing and verifying -/

/-- What was hashed and encoded. -/
theorem argon2HashForm_eq_ok_iff {machine : Machine} {arguments : HashArguments}
    {encodedlen : Nat} {out text : List UInt8} :
    argon2HashForm machine arguments encodedlen = .ok ⟨out, some text⟩ ↔
      argon2Hash machine arguments = .ok out ∧ encodedlen ≠ 0 ∧
        encodeString encodedlen (contextOf (some out) arguments) arguments.type = .ok text := by
  rw [argon2HashForm]
  cases hashed : argon2Hash machine arguments with
  | error code =>
      exact iff_of_false (fun never => nomatch never) fun ⟨never, _⟩ => nomatch never
  | ok tag =>
      change (if encodedlen = 0 then _ else _) = _ ↔ _
      split
      · next none =>
          exact iff_of_false (fun never => nomatch never) fun ⟨_, some_, _⟩ => some_ none
      · next some_ =>
          cases written : encodeString encodedlen (contextOf (some tag) arguments)
              arguments.type with
          | error code =>
              refine iff_of_false (fun never => nomatch never) ?_
              rintro ⟨same, -, never⟩
              cases same
              rw [written] at never
              cases never
          | ok text' =>
              constructor
              · intro same
                cases same
                exact ⟨rfl, some_, written⟩
              · rintro ⟨same, -, written'⟩
                cases same
                rw [written] at written'
                cases written'
                rfl

/-- The same hash of another password. -/
def HashArguments.withPassword (arguments : HashArguments) (pwd : Pointer) (pwdlen : UInt64) :
    HashArguments :=
  { arguments with pwd := pwd, pwdlen := pwdlen }

/-- A context with the costs of some arguments that hashes the same inputs. -/
structure Rebuilds (arguments : HashArguments) (out : List UInt8) (context : Context) : Prop where
  own : context.allocateCbk = none
  valid : validateInputs (some context) = .ok ()
  inputs : preimage context arguments.type =
    preimage (contextOf (some out) arguments) arguments.type
  outlen : context.outlen = arguments.hashlen.toUInt32
  mCost : context.mCost = arguments.mCost
  tCost : context.tCost = arguments.tCost
  lanes : context.lanes = arguments.parallelism
  threads : context.threads = arguments.parallelism
  version : context.version = arguments.version

/-- The same arguments have the same tag. -/
theorem Rebuilds.tag_eq {arguments : HashArguments} {out : List UInt8} {context : Context}
    (rebuilds : Rebuilds arguments out context) (costs : CostsValid context)
    (costs' : CostsValid (contextOf (some out) arguments)) :
    costs.tag arguments.type = costs'.tag arguments.type :=
  costs.tag_congr costs' arguments.type rebuilds.inputs rebuilds.outlen rebuilds.mCost
    rebuilds.tCost rebuilds.lanes rebuilds.threads rebuilds.version

section Hashed

variable {arguments : HashArguments} {out : List UInt8}
  (valid : validateInputs (some (contextOf (some out) arguments)) = .ok ())
  (filled : Filled (contextOf (some out) arguments)) {pwd : Pointer} {pwdlen : UInt64}
  (present : pwd = none → pwdlen.toUInt32 = 0)

include valid filled present

/-- What is decoded, with a new output, rebuilds the arguments with the given password. -/
theorem fill_rebuilds (most : UInt32) {salt buffer output : Pointer} (saltThere : salt ≠ none)
    (bufferThere : buffer ≠ none) (outputThere : output ≠ none) :
    Rebuilds (arguments.withPassword pwd pwdlen) out
      { (formOf (contextOf (some out) arguments)).fill
          (verifyContext salt buffer pwd most pwdlen.toUInt32) with out := output } := by
  let context := contextOf (some out) arguments
  let reading := verifyContext salt buffer pwd most pwdlen.toUInt32
  have receives : Receives reading := ⟨present, saltThere, bufferThere⟩
  have saltlen : (formOf context).salt.length = context.saltlen.toNat := length_contents filled.salt
  have outlen : (formOf context).out.length = context.outlen.toNat := length_contents filled.out
  have shortSalt : (formOf context).salt.length < 2 ^ 32 := saltlen ▸ context.saltlen.toNat_lt
  have shortOut : (formOf context).out.length < 2 ^ 32 := outlen ▸ context.outlen.toNat_lt
  have saltlens : ((formOf context).fill reading).saltlen = context.saltlen := by
    change UInt32.ofNat (formOf context).salt.length = _
    rw [saltlen, UInt32.ofNat_toNat]
  have outlens : ((formOf context).fill reading).outlen = context.outlen := by
    change UInt32.ofNat (formOf context).out.length = _
    rw [outlen, UInt32.ofNat_toNat]
  have salts : prefixed ((formOf context).fill reading).salt
      ((formOf context).fill reading).saltlen = prefixed context.salt context.saltlen := by
    have same := congrArg Form.salt (formOf_fill receives.salt receives.out shortSalt shortOut)
    change contents _ _ = contents context.salt context.saltlen at same
    rw [prefixed, prefixed, same, saltlens]
  have checked := (fill_valid_iff receives shortSalt shortOut).mpr (formOf_valid filled valid)
  obtain ⟨buffers, costs⟩ := validateInputs_eq_ok_iff.mp checked
  refine ⟨rfl, validateInputs_eq_ok_iff.mpr ⟨⟨outputThere, buffers.outlen, buffers.pwd,
    buffers.salt, buffers.saltlen, buffers.secret, buffers.ad⟩, ⟨costs.memory,
    costs.memoryLanes, costs.time, costs.lanes, costs.threads, costs.callbacks⟩⟩, ?_, outlens,
    rfl, rfl, rfl, rfl, rfl⟩
  rw [preimage, preimage]
  change store32 _ ++ (store32 ((formOf context).fill reading).outlen ++ (_ ++ (_ ++ (_ ++ (_ ++
    (_ ++ (prefixed ((formOf context).fill reading).salt
      ((formOf context).fill reading).saltlen ++ _))))))) = _
  rw [salts, outlens]
  rfl

/-- A text that can be measured is decoded and compared with the tag of the given password. -/
theorem argon2Verify_text {machine : Machine} (provides : machine.Provides)
    (pwdFits : ¬ pwdlen > maxPwdLength.toUInt64) {typeString : List UInt8}
    (named : argon2Type2String arguments.type false = some typeString)
    (length : out.length = arguments.hashlen.toUInt32.toNat)
    (short : ((formOf (contextOf (some out) arguments)).text typeString).length ≤ 0xFFFFFFFF) :
    ∃ context behind, Rebuilds (arguments.withPassword pwd pwdlen) out context ∧
      argon2Verify machine (some ((formOf (contextOf (some out) arguments)).text typeString)) pwd
        pwdlen arguments.type =
          argon2VerifyCtx machine context (out ++ behind) arguments.type := by
  let form := formOf (contextOf (some out) arguments)
  change (form.text typeString).length ≤ _ at short
  have plain : strlen (form.text typeString) = (form.text typeString).length :=
    (Form.plain_text named form).strlen_eq
  let most := UInt32.ofNat (strlen (form.text typeString))
  have most_toNat : most.toNat = (form.text typeString).length := by
    rw [UInt32.toNat_ofNat', plain, Nat.mod_eq_of_lt (by omega)]
  obtain ⟨saltFits, outFits⟩ := form.fields_le_text typeString
  rw [← most_toNat] at saltFits outFits
  let buffer := machine.malloc most.toUInt64
  let reading := verifyContext buffer buffer pwd most pwdlen.toUInt32
  have receives : Receives reading := ⟨present, provides.malloc _, provides.malloc _⟩
  have decoded : decodeString reading (form.text typeString) arguments.type =
      .ok (form.fill reading) :=
    (decodeString_iff receives).mpr ⟨typeString, form, named, form.spelledBy_text typeString,
      saltFits, outFits, rfl, formOf_valid filled valid⟩
  obtain ⟨old, allocated⟩ := Option.ne_none_iff_exists'.mp (provides.malloc most.toUInt64)
  have desired : (form.fill reading).out.getD [] = out ++ old.drop out.length := by
    have whole : form.out = out := List.take_of_length_le length.le
    change (overwritten buffer form.out).getD [] = _
    rw [show buffer = some old from allocated, whole]
    rfl
  have there : buffer ≠ none := provides.malloc _
  refine ⟨_, old.drop out.length, fill_rebuilds valid filled present most there there
    (provides.malloc (form.fill reading).outlen.toUInt64), ?_⟩
  rw [← desired, argon2Verify, checks_of_ok (refuseIf_neg pwdFits)]
  refine (checks_of_ok (refuseIf_neg (by rw [plain]; omega)) _).trans ?_
  refine (checks_of_ok (refuseIf_neg (not_or.mpr ⟨provides.malloc _, provides.malloc _⟩)) _).trans ?_
  change (decodeString reading _ _ >>= _) = _
  rw [decoded]
  exact checks_of_ok (refuseIf_neg (provides.malloc _)) _

end Hashed

section Results

variable {machine machine' : Machine} (runs : machine.Runs) (runs' : machine'.Runs)
  (provides' : machine'.Provides) {arguments : HashArguments}
  (salt : arguments.saltlen.toNat ≤ (arguments.salt.getD []).length) {encodedlen : Nat}
  {out text : List UInt8}
  (hashed : argon2HashForm machine arguments encodedlen = .ok ⟨out, some text⟩)

include runs salt hashed

/-- What is written is the text of the arguments and their tag. -/
theorem written_of_hashed :
    ∃ typeString, argon2Type2String arguments.type false = some typeString ∧
      validateInputs (some (contextOf (some out) arguments)) = .ok () ∧
      Filled (contextOf (some out) arguments) ∧
      out.length = arguments.hashlen.toUInt32.toNat ∧
      text = (formOf (contextOf (some out) arguments)).text typeString := by
  obtain ⟨computed, -, written⟩ := argon2HashForm_eq_ok_iff.mp hashed
  obtain ⟨typeString, named, valid, rfl, -⟩ := encodeString_eq_ok_iff.mp written
  obtain ⟨costs, tagged⟩ := argon2Hash_tag runs computed (some out)
  have length : out.length = arguments.hashlen.toUInt32.toNat := by
    rw [tagged]
    exact costs.length_tag arguments.type
  have backed : arguments.saltlen.toUInt32.toNat ≤ (arguments.salt.getD []).length := by
    rw [UInt64.toNat_toUInt32]
    exact (Nat.mod_le _ _).trans salt
  exact ⟨typeString, named, valid, ⟨backed, length.symm.le⟩, length, rfl⟩

include runs' provides'

/--
A text that was written with one password is accepted with another exactly where
the two have the same tag. It is not read when it is longer than 32 bits count.
-/
theorem verify_hashed {pwd : Pointer} {pwdlen : UInt64} {tag : List UInt8}
    (rehashed : argon2Hash machine' (arguments.withPassword pwd pwdlen) = .ok tag) :
    argon2Verify machine' (some text) pwd pwdlen arguments.type =
      if 0xFFFFFFFF < text.length then .error .decodingFail
      else if out = tag then .ok () else .error .verifyMismatch := by
  obtain ⟨typeString, named, valid, filled, length, rfl⟩ := written_of_hashed runs salt hashed
  obtain ⟨lengths, -, computed⟩ := argon2Hash_eq_ok_iff.mp rehashed
  obtain ⟨inputs, known, -⟩ := argon2Ctx_eq_ok_iff.mp computed
  have present : pwd = none → pwdlen.toUInt32 = 0 := (validateInputs_eq_ok_iff.mp inputs).1.pwd
  have pwdFits : ¬ pwdlen > maxPwdLength.toUInt64 := by
    rw [checkLengths, checks_eq_ok_iff] at lengths
    exact refuseIf_eq_ok_iff.mp lengths.1
  split
  · next long =>
      have plain := (Form.plain_text named (formOf (contextOf (some out) arguments))).strlen_eq
      rw [argon2Verify, checks_of_ok (refuseIf_neg pwdFits)]
      exact checks_of_error (refuseIf_pos (plain.symm ▸ long)) _
  · next short =>
      obtain ⟨context, behind, rebuilds, verified⟩ := argon2Verify_text valid filled present
        provides' pwdFits named length (Nat.le_of_not_lt short)
      obtain ⟨costs, compared⟩ := argon2VerifyCtx_eq provides' runs' rebuilds.own rebuilds.valid
        known (length.trans (congrArg UInt32.toNat rebuilds.outlen).symm) behind
      obtain ⟨costs', rfl⟩ := argon2Hash_tag runs' rehashed (some out)
      rw [← rebuilds.tag_eq costs costs']
      exact verified.trans compared

end Results

/-- The inputs stay valid where a tag is written to the output. -/
theorem validateInputs_written {arguments : HashArguments} {out : Pointer}
    (inputs : validateInputs (some (contextOf out arguments)) = .ok ()) (tag : List UInt8) :
    validateInputs (some (contextOf (some tag) arguments)) = .ok () := by
  obtain ⟨buffers, costs⟩ := validateInputs_eq_ok_iff.mp inputs
  exact validateInputs_eq_ok_iff.mpr ⟨⟨Option.some_ne_none _, buffers.outlen, buffers.pwd,
    buffers.salt, buffers.saltlen, buffers.secret, buffers.ad⟩, ⟨costs.memory,
    costs.memoryLanes, costs.time, costs.lanes, costs.threads, costs.callbacks⟩⟩

/-- One byte of password, for a tag of 32 bytes. -/
def plainArguments : HashArguments where
  tCost := 1
  mCost := 8
  parallelism := 1
  pwd := some [112]
  pwdlen := 1
  salt := some (List.replicate 8 1)
  saltlen := 8
  hashlen := 32
  type := argon2id
  version := versionNumber

theorem plainArguments_inRange : InRange plainArguments where
  pwd := Option.some_ne_none _
  pwdlen := by decide
  salt := Option.some_ne_none _
  saltlen := by decide
  hashlen := by decide
  time := by decide
  memory := by decide
  lanes := by decide

/-- A machine on which the memory was in use before. -/
def usedMachine : Machine :=
  { steadyMachine with malloc := fun size => some (List.replicate size.toNat 1) }

theorem usedMachine_provides : usedMachine.reference.Provides :=
  Machine.reference_provides ⟨fun _ => Option.some_ne_none _, fun _ _ => Option.some_ne_none _,
    fun _ _ _ => rfl, fun _ _ _ => rfl⟩

/-- The password that was hashed is accepted on another machine. -/
theorem plainArguments_verified :
    ∃ encodedlen out text,
      argon2HashForm steadyMachine.reference plainArguments encodedlen = .ok ⟨out, some text⟩ ∧
        argon2Verify usedMachine.reference (some text) (some [112]) 1 argon2id = .ok () := by
  have provides : steadyMachine.reference.Provides := Machine.reference_provides
    ⟨fun _ => Option.some_ne_none _, fun _ _ => Option.some_ne_none _, fun _ _ _ => rfl,
      fun _ _ _ => rfl⟩
  have provides' := usedMachine_provides
  obtain ⟨out, hashed⟩ := plainArguments_inRange.argon2Hash_returns provides rfl (by decide)
  obtain ⟨tag, rehashed⟩ := plainArguments_inRange.argon2Hash_returns provides' rfl (by decide)
  have inputs := (argon2Ctx_eq_ok_iff.mp (argon2Hash_eq_ok_iff.mp hashed).2.2).1
  have valid := validateInputs_written inputs out
  have written := encodeString_eq_ok_iff.mpr ⟨ascii "argon2id", argon2id_named, valid, rfl,
    Nat.lt_succ_self _⟩
  have formed := argon2HashForm_eq_ok_iff.mpr ⟨hashed, Nat.succ_ne_zero _, written⟩
  have short : ((formOf (contextOf (some out) plainArguments)).text (ascii "argon2id")).length <
      2 ^ 32 := by
    obtain ⟨tagged, same⟩ := argon2Hash_tag steadyMachine.reference_runs hashed none
    have length : out.length = 32 := by
      rw [same]
      exact tagged.length_tag argon2id
    have tag : (formOf (contextOf (some out) plainArguments)).out.length = 32 := by
      change (out.take 32).length = 32
      rw [List.length_take, length, Nat.min_self]
    simp only [Form.text, assembled, Form.versionText, Form.costsText, List.length_append,
      Base64.length_base64, tag]
    simp [formOf, contextOf, plainArguments, contents, versionNumber, length_decimal, ascii,
      Base64.b64len]
  have tags : out = tag := by
    obtain ⟨costs, rfl⟩ := argon2Hash_tag steadyMachine.reference_runs hashed none
    obtain ⟨costs', rfl⟩ := argon2Hash_tag usedMachine.reference_runs rehashed none
    rfl
  have verified := verify_hashed steadyMachine.reference_runs usedMachine.reference_runs provides'
    (by decide) formed rehashed
  rw [if_neg (by omega), if_pos tags] at verified
  exact ⟨_, out, _, formed, verified⟩

end UltraLocked.CArgon2
