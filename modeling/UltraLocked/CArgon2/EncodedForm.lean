import UltraLocked.CArgon2.Encoding

/-!
# Texts of the encoded form

`encode_string` writes one text for a context. `decode_string` reads that text
back; besides it, it reads the same text without the oldest version, with bytes
above ASCII in the place of slashes, and nothing else.
-/

namespace UltraLocked.CArgon2

open Library Base64

/-- What the encoded form tells of a hash. -/
structure Form where
  version : UInt32
  mCost : UInt32
  tCost : UInt32
  lanes : UInt32
  salt : List UInt8
  out : List UInt8

/-- The parts of the form around the version, the costs, the salt and the tag. -/
def assembled (typeString version costs salt out : List UInt8) : List UInt8 :=
  ascii "$" ++ (typeString ++ (version ++ (costs ++
    (ascii "$" ++ (salt ++ (ascii "$" ++ out))))))

namespace Form

variable (form : Form)

def versionText : List UInt8 := ascii "$v=" ++ decimal form.version.toNat

def costsText : List UInt8 :=
  ascii "$m=" ++ (decimal form.mCost.toNat ++ (ascii ",t=" ++ (decimal form.tCost.toNat ++
    (ascii ",p=" ++ decimal form.lanes.toNat))))

/-- The text of the form. -/
def text (typeString : List UInt8) : List UInt8 :=
  assembled typeString form.versionText form.costsText (base64 form.salt) (base64 form.out)

/-- The strings that are read as the form, up to some rest. -/
def SpelledBefore (rest typeString str : List UInt8) : Prop :=
  ∃ version salt out,
    str = assembled typeString version form.costsText salt out ++ rest ∧
      (version = form.versionText ∨ version = [] ∧ form.version = version10) ∧
      salt.map asciiOf = base64 form.salt ∧ out.map asciiOf = base64 form.out

/-- The strings that are read as the form and end there. -/
def SpelledBy (typeString str : List UInt8) : Prop :=
  ∃ rest, form.SpelledBefore rest typeString str ∧ rest.headD 0 = 0

/-- A context with the form in it, and what the form leaves at its default. -/
def fill (context : Context) : Context :=
  { context with
    version := form.version, mCost := form.mCost, tCost := form.tCost
    lanes := form.lanes, threads := form.lanes
    salt := overwritten context.salt form.salt, saltlen := UInt32.ofNat form.salt.length
    out := overwritten context.out form.out, outlen := UInt32.ofNat form.out.length
    secret := none, secretlen := 0, ad := none, adlen := 0
    allocateCbk := none, freeCbk := none, flags := 0 }

end Form

/-- What a context says that the form tells. -/
def formOf (context : Context) : Form where
  version := context.version
  mCost := context.mCost
  tCost := context.tCost
  lanes := context.lanes
  salt := contents context.salt context.saltlen
  out := contents context.out context.outlen

/-! ## `encode_string` -/

namespace Output

theorem put_eq_ok_iff {dst dst' : Output} {str : List UInt8} :
    dst.put str = .ok dst' ↔
      str.length < dst.room ∧ dst' = ⟨dst.text ++ str, dst.room - str.length⟩ := by
  rw [put]
  split
  · next full => exact iff_of_false (fun never => nomatch never) fun fits => by omega
  · next room =>
      rw [Except.ok.injEq]
      constructor
      · rintro rfl
        exact ⟨Nat.lt_of_not_le room, rfl⟩
      · exact fun ⟨_, same⟩ => same.symm

/-- Two texts are written like one. -/
theorem put_put (dst : Output) (first second : List UInt8) :
    (dst.put first >>= fun dst => dst.put second) = dst.put (first ++ second) := by
  rw [put, put, List.length_append]
  split
  · next full => rw [if_pos (by omega)]; rfl
  · next room =>
      change Output.put _ second = _
      rw [put]
      change (if second.length ≥ dst.room - first.length then _ else _) = _
      split
      · next full => rw [if_pos (by omega)]
      · next room' =>
          rw [if_neg (by omega), List.append_assoc]
          change Except.ok (Output.mk _ (dst.room - first.length - second.length)) = _
          rw [Nat.sub_sub]

/-- Base64 is written like any text. -/
theorem putBinary_eq (dst : Output) (buf : List UInt8) :
    dst.putBinary buf = dst.put (base64 buf) := by
  rw [putBinary, put, toBase64_eq, length_base64]
  by_cases full : dst.room ≤ b64len buf.length
  · rw [if_pos full, if_pos full]
  · rw [if_neg full, if_neg full]
    change Except.ok (Output.mk _ (dst.room - (base64 buf).length)) = _
    rw [length_base64]

end Output

/-- All that is written is written like one text. -/
theorem encodeString_eq {dstLen : Nat} {context : Context} {type : UInt32}
    {typeString : List UInt8} (named : argon2Type2String type false = some typeString) :
    encodeString dstLen context type = (do
      validated context
      let dst ← (Output.mk [] dstLen).put ((formOf context).text typeString)
      pure dst.text) := by
  have puts (dst : Output) (first second : List UInt8) {β : Type}
      (f : Output → Except FormCode β) :
      (dst.put first >>= fun dst => dst.put second >>= f) = (dst.put (first ++ second) >>= f) := by
    rw [← Output.put_put, bind_assoc]
  rw [encodeString, named]
  simp only [Output.putNumber, Output.putBinary_eq, puts]
  simp only [Form.text, assembled, Form.versionText, Form.costsText, formOf, List.append_assoc]

theorem validated_eq_ok_iff {context : Context} :
    validated context = .ok () ↔ validateInputs (some context) = .ok () := by
  rw [validated]
  cases validateInputs (some context) with
  | error code => exact iff_of_false (fun never => nomatch never) (fun never => nomatch never)
  | ok => exact iff_of_true rfl rfl

theorem encodeString_eq_ok_iff {dstLen : Nat} {context : Context} {type : UInt32}
    {text : List UInt8} :
    encodeString dstLen context type = .ok text ↔
      ∃ typeString, argon2Type2String type false = some typeString ∧
        validateInputs (some context) = .ok () ∧ text = (formOf context).text typeString ∧
        text.length < dstLen := by
  cases named : argon2Type2String type false with
  | none =>
      rw [encodeString, named]
      exact iff_of_false (fun never => nomatch never) fun ⟨_, never, _⟩ => nomatch never
  | some typeString =>
      rw [encodeString_eq named, checks_eq_ok_iff, validated_eq_ok_iff, bind_eq_ok_iff]
      constructor
      · rintro ⟨valid, dst, put, written⟩
        obtain ⟨fits, rfl⟩ := Output.put_eq_ok_iff.mp put
        cases written
        exact ⟨typeString, rfl, valid, rfl, fits⟩
      · rintro ⟨typeString', same, valid, rfl, fits⟩
        cases same
        exact ⟨valid, _, Output.put_eq_ok_iff.mpr ⟨fits, rfl⟩, rfl⟩

/-- A text that does not fit is not written in part. -/
theorem encodeString_of_short {dstLen : Nat} {context : Context} {type : UInt32}
    {typeString : List UInt8} (named : argon2Type2String type false = some typeString)
    (valid : validateInputs (some context) = .ok ())
    (short : dstLen ≤ ((formOf context).text typeString).length) :
    encodeString dstLen context type = .error .encodingFail := by
  rw [encodeString_eq named, checks_of_ok (validated_eq_ok_iff.mpr valid), Output.put,
    if_pos short]
  rfl

/-- `argon2_encodedlen` counts the text and its terminator, for the current version. -/
theorem argon2Encodedlen_eq {context : Context} {type : UInt32} {typeString : List UInt8}
    (named : argon2Type2String type false = some typeString)
    (current : context.version = versionNumber)
    (salt : context.saltlen.toNat ≤ (context.salt.getD []).length)
    (out : context.outlen.toNat ≤ (context.out.getD []).length) :
    argon2Encodedlen context.tCost context.mCost context.lanes context.saltlen context.outlen
      type = some (((formOf context).text typeString).length + 1) := by
  have prefixes : (ascii "$$v=$m=,t=,p=$$").length = (ascii "$").length +
      (ascii "$v=").length + (ascii "$m=").length + (ascii ",t=").length +
        (ascii ",p=").length + (ascii "$").length + (ascii "$").length := rfl
  rw [argon2Encodedlen, named, Option.map_some, Option.some.injEq]
  simp only [Form.text, assembled, Form.versionText, Form.costsText, formOf, List.length_append,
    length_base64, length_contents salt, length_contents out, numlen_eq, prefixes, current]
  omega

/-! ## `decode_string` -/

theorem skip_eq_ok_iff {text str rest : List UInt8} :
    skip text str = .ok rest ↔ str = text ++ rest := by
  rw [skip]
  split
  · next begins =>
      obtain ⟨tail, rfl⟩ := List.isPrefixOf_iff_prefix.mp begins
      rw [List.drop_left, Except.ok.injEq, List.append_cancel_left_eq]
  · next other =>
      refine iff_of_false (fun never => nomatch never) ?_
      rintro rfl
      exact other (List.isPrefixOf_iff_prefix.mpr ⟨rest, rfl⟩)

theorem readU32_eq_ok_iff {str rest : List UInt8} {x : UInt32} :
    readU32 str = .ok (x, rest) ↔ str = decimal x.toNat ++ rest ∧ PastDigits rest := by
  have wide : x.toUInt64.toNat = x.toNat := UInt32.toNat_toUInt64 x
  constructor
  · intro read
    rw [readU32] at read
    split at read
    · cases read
    · next v str' decoded =>
        split at read
        · cases read
        · next small =>
            cases read
            rw [UInt64.toNat_toUInt32, Nat.mod_eq_of_lt (by omega)]
            exact decodeDecimal_iff.mp decoded
  · intro spelled
    rw [← wide] at spelled
    have small : ¬ x.toUInt64.toNat > 0xFFFFFFFF := by
      have bound := x.toNat_lt
      omega
    have narrow : x.toUInt64.toUInt32 = x := by simp
    rw [readU32, decodeDecimal_iff.mpr spelled]
    change (if x.toUInt64.toNat > 0xFFFFFFFF then _ else _) = _
    rw [if_neg small, narrow]

theorem readU32_refuses (str : List UInt8) : RefusesWith .decodingFail (readU32 str) := by
  intro e refused
  rw [readU32] at refused
  split at refused
  · cases refused
    rfl
  · split at refused <;> cases refused
    rfl

theorem readBinary_eq_ok_iff {maxLen : UInt32} {str bytes rest : List UInt8} :
    readBinary maxLen str = .ok (bytes, rest) ↔
      bytes.length ≤ maxLen.toNat ∧ ∃ chars, str = chars ++ rest ∧
        chars.map asciiOf = base64 bytes ∧ ∀ c, rest.head? = some c → Foreign c := by
  rw [← fromBase64_iff, readBinary]
  constructor
  · intro read
    split at read
    · cases read
    · next decoded =>
        split at read
        · cases read
        · cases read
          exact decoded
  · intro decoded
    have bound := (fromBase64_iff.mp decoded).1
    have most := maxLen.toNat_lt
    rw [decoded]
    exact if_neg (by omega)

theorem readVersion_eq_ok_iff {str rest : List UInt8} {version : UInt32} :
    readVersion str = .ok (version, rest) ↔
      (str = ascii "$v=" ++ (decimal version.toNat ++ rest) ∧ PastDigits rest) ∨
      (¬ (ascii "$v=").isPrefixOf str ∧ version = version10 ∧ str = rest) := by
  rw [readVersion]
  by_cases begins : (ascii "$v=").isPrefixOf str
  · obtain ⟨tail, rfl⟩ := List.isPrefixOf_iff_prefix.mp begins
    rw [if_pos begins, List.drop_left, readU32_eq_ok_iff, List.append_cancel_left_eq]
    exact (or_iff_left fun ⟨other, _⟩ => other begins).symm
  · rw [if_neg begins, Except.ok.injEq, Prod.mk.injEq]
    constructor
    · rintro ⟨rfl, rfl⟩
      exact .inr ⟨begins, rfl, rfl⟩
    · rintro (⟨rfl, -⟩ | ⟨-, rfl, rfl⟩)
      · exact absurd (List.isPrefixOf_iff_prefix.mpr ⟨_, rfl⟩) begins
      · exact ⟨rfl, rfl⟩

section Reading

variable {α : Type} {str : List UInt8} {result : Except FormCode α}
  (other : result ≠ .error .decodingFail)

include other

/-! A part that is not read makes the string unreadable. -/

theorem skip_bind (text : List UInt8) {f : List UInt8 → Except FormCode α} :
    (skip text str >>= f) = result ↔ ∃ rest, str = text ++ rest ∧ f rest = result := by
  have refuses : RefusesWith .decodingFail (skip text str) := by
    intro e refused
    rw [skip] at refused
    split at refused <;> cases refused
    rfl
  simp only [refuses.bind_eq_iff other, skip_eq_ok_iff]

theorem readU32_bind {f : UInt32 × List UInt8 → Except FormCode α} :
    (readU32 str >>= f) = result ↔
      ∃ x rest, (str = decimal x.toNat ++ rest ∧ PastDigits rest) ∧ f (x, rest) = result := by
  simp only [(readU32_refuses str).bind_eq_iff other, Prod.exists, readU32_eq_ok_iff]

theorem readVersion_bind {f : UInt32 × List UInt8 → Except FormCode α} :
    (readVersion str >>= f) = result ↔
      ∃ x rest, readVersion str = .ok (x, rest) ∧ f (x, rest) = result := by
  have refuses : RefusesWith .decodingFail (readVersion str) := by
    intro e refused
    rw [readVersion] at refused
    split at refused
    · exact readU32_refuses _ e refused
    · cases refused
  simp only [refuses.bind_eq_iff other, Prod.exists]

theorem readBinary_bind {maxLen : UInt32} {f : List UInt8 × List UInt8 → Except FormCode α} :
    (readBinary maxLen str >>= f) = result ↔
      ∃ bytes rest, (bytes.length ≤ maxLen.toNat ∧ ∃ chars, str = chars ++ rest ∧
        chars.map asciiOf = base64 bytes ∧ ∀ c, rest.head? = some c → Foreign c) ∧
          f (bytes, rest) = result := by
  have refuses : RefusesWith .decodingFail (readBinary maxLen str) := by
    intro e refused
    rw [readBinary] at refused
    split at refused
    · cases refused
      rfl
    · split at refused <;> cases refused
      rfl
  simp only [refuses.bind_eq_iff other, Prod.exists, readBinary_eq_ok_iff]

end Reading

theorem foreign_dollar : Foreign '$'.val.toUInt8 := by
  change ∀ digit < 64, _
  decide +kernel

theorem foreign_zero : Foreign 0 := by
  change ∀ digit < 64, _
  decide +kernel

/-- No version is read where the costs come next. -/
theorem not_versioned (form : Form) (str : List UInt8) :
    ¬ (ascii "$v=").isPrefixOf (form.costsText ++ str) := by
  intro begins
  cases begins

theorem readVersion_costs {form : Form} {str : List UInt8} {version : List UInt8}
    (spelled : version = form.versionText ∨ version = [] ∧ form.version = version10) :
    readVersion (version ++ (form.costsText ++ str)) =
      .ok (form.version, form.costsText ++ str) := by
  rw [readVersion_eq_ok_iff]
  rcases spelled with rfl | ⟨rfl, oldest⟩
  · refine .inl ⟨by rw [Form.versionText, List.append_assoc], ?_⟩
    exact pastDigits_cons (c := '$'.val.toUInt8) (by decide) _
  · exact .inr ⟨not_versioned form str, oldest, rfl⟩

/-- What is returned for a context once all parts are read. -/
def accepted (filled : Context) (rest : List UInt8) : Except FormCode Context := do
  validated filled
  if rest.headD 0 = 0 then pure filled else .error .decodingFail

/-- Every result but an unreadable string comes from a form that was read. -/
theorem decodeString_eq_iff {context : Context} {str : List UInt8} {type : UInt32}
    {typeString : List UInt8} (named : argon2Type2String type false = some typeString)
    {result : Except FormCode Context} (other : result ≠ .error .decodingFail) :
    decodeString context str type = result ↔
      ∃ form : Form, ∃ rest, form.SpelledBefore rest typeString str ∧
        form.salt.length ≤ context.saltlen.toNat ∧ form.out.length ≤ context.outlen.toNat ∧
        (∀ c, rest.head? = some c → Foreign c) ∧ accepted (form.fill context) rest = result := by
  simp only [decodeString, named, skip_bind other, readVersion_bind other, readU32_bind other,
    readBinary_bind other]
  constructor
  · rintro ⟨_, rfl, _, rfl, version, _, versioned, _, rfl, mCost, _, ⟨rfl, -⟩, _, rfl, tCost,
      _, ⟨rfl, -⟩, _, rfl, lanes, _, ⟨rfl, -⟩, _, rfl, salt, _, ⟨saltFits, saltText, rfl,
      saltSpelled, -⟩, _, rfl, out, rest, ⟨outFits, outText, rfl, outSpelled, ends⟩, returned⟩
    let form : Form := ⟨version, mCost, tCost, lanes, salt, out⟩
    refine ⟨form, rest, ?_, saltFits, outFits, ends, returned⟩
    rcases readVersion_eq_ok_iff.mp versioned with ⟨spelled, -⟩ | ⟨-, oldest, spelled⟩
    · refine ⟨form.versionText, saltText, outText, ?_, .inl rfl, saltSpelled, outSpelled⟩
      rw [spelled]
      simp only [assembled, Form.versionText, Form.costsText, List.append_assoc]
      rfl
    · refine ⟨[], saltText, outText, ?_, .inr ⟨rfl, oldest⟩, saltSpelled, outSpelled⟩
      rw [spelled]
      simp only [assembled, Form.costsText, List.append_assoc, List.nil_append]
      rfl
  · rintro ⟨form, rest, ⟨version, salt, out, rfl, versioned, saltSpelled, outSpelled⟩, saltFits,
      outFits, ends, returned⟩
    have costs (behind : List UInt8) : form.costsText ++ behind =
        ascii "$m=" ++ (decimal form.mCost.toNat ++ (ascii ",t=" ++
          (decimal form.tCost.toNat ++ (ascii ",p=" ++
            (decimal form.lanes.toNat ++ behind))))) := by
      simp only [Form.costsText, List.append_assoc]
    have parts : assembled typeString version form.costsText salt out ++ rest =
        ascii "$" ++ (typeString ++ (version ++ (form.costsText ++
          (ascii "$" ++ (salt ++ (ascii "$" ++ (out ++ rest))))))) := by
      simp only [assembled, List.append_assoc]
    refine ⟨_, parts, _, rfl, form.version, _, readVersion_costs versioned, _, costs _,
      form.mCost, _, ⟨rfl, ?_⟩, _, rfl, form.tCost, _, ⟨rfl, ?_⟩, _, rfl, form.lanes, _,
      ⟨rfl, ?_⟩, _, rfl, form.salt, _, ⟨saltFits, salt, rfl, saltSpelled, ?_⟩, _, rfl,
      form.out, rest, ⟨outFits, out, rfl, outSpelled, ends⟩, returned⟩
    · exact pastDigits_cons (c := ','.val.toUInt8) (by decide) _
    · exact pastDigits_cons (c := ','.val.toUInt8) (by decide) _
    · exact pastDigits_cons (c := '$'.val.toUInt8) (by decide) _
    · intro c first
      cases first
      exact foreign_dollar

theorem foreign_of_terminated {rest : List UInt8} (terminated : rest.headD 0 = 0) :
    ∀ c, rest.head? = some c → Foreign c := by
  intro c first
  rw [List.headD_eq_head?_getD, first] at terminated
  obtain rfl : c = 0 := terminated
  exact foreign_zero

theorem accepted_eq_ok_iff {filled filled' : Context} {rest : List UInt8} :
    accepted filled rest = .ok filled' ↔
      validateInputs (some filled) = .ok () ∧ rest.headD 0 = 0 ∧ filled' = filled := by
  rw [accepted, checks_eq_ok_iff, validated_eq_ok_iff]
  refine and_congr_right fun _ => ?_
  split
  · next terminated =>
      constructor
      · intro same
        cases same
        exact ⟨terminated, rfl⟩
      · rintro ⟨-, rfl⟩
        rfl
  · next more => exact iff_of_false (fun never => nomatch never) fun ⟨ends, _⟩ => more ends

theorem accepted_eq_refused_iff {filled : Context} {rest : List UInt8} {code : ErrorCode} :
    accepted filled rest = .error (.refused code) ↔
      validateInputs (some filled) = .error code := by
  rw [accepted, validated]
  cases validateInputs (some filled) with
  | error code' =>
      constructor
      · intro same
        cases same
        rfl
      · intro same
        cases same
        rfl
  | ok =>
      refine iff_of_false ?_ fun never => nomatch never
      change (if rest.headD 0 = 0 then _ else _) ≠ _
      split <;> exact fun never => nomatch never

/-- What is accepted: the strings that spell a form that fits and passes the checks. -/
theorem decodeString_eq_ok_iff {context filled : Context} {str : List UInt8} {type : UInt32} :
    decodeString context str type = .ok filled ↔
      ∃ typeString, ∃ form : Form, argon2Type2String type false = some typeString ∧
        form.SpelledBy typeString str ∧ form.salt.length ≤ context.saltlen.toNat ∧
        form.out.length ≤ context.outlen.toNat ∧ filled = form.fill context ∧
        validateInputs (some filled) = .ok () := by
  cases named : argon2Type2String type false with
  | none =>
      rw [decodeString, named]
      exact iff_of_false (fun never => nomatch never) fun ⟨_, _, never, _⟩ => nomatch never
  | some typeString =>
      have other : Except.ok filled ≠ .error FormCode.decodingFail := fun never => nomatch never
      simp only [decodeString_eq_iff named other, accepted_eq_ok_iff]
      constructor
      · rintro ⟨form, rest, spelled, saltFits, outFits, -, valid, terminated, rfl⟩
        exact ⟨typeString, form, rfl, ⟨rest, spelled, terminated⟩, saltFits, outFits, rfl, valid⟩
      · rintro ⟨typeString', form, same, ⟨rest, spelled, terminated⟩, saltFits, outFits, rfl,
          valid⟩
        cases same
        exact ⟨form, rest, spelled, saltFits, outFits, foreign_of_terminated terminated, valid,
          terminated, rfl⟩

/-! ## The verdict on a string -/

/-- A form that is read from a string for a type, with a rest behind it. -/
structure Read (context : Context) (type : UInt32) (str : List UInt8) (form : Form)
    (rest : List UInt8) : Prop where
  spelled : ∃ typeString, argon2Type2String type false = some typeString ∧
    form.SpelledBefore rest typeString str
  salt : form.salt.length ≤ context.saltlen.toNat
  out : form.out.length ≤ context.outlen.toNat
  ends : ∀ c, rest.head? = some c → Foreign c

/-- A known type has one name. -/
theorem read_iff {context : Context} {type : UInt32} {str typeString : List UInt8}
    (named : argon2Type2String type false = some typeString) {form : Form} {rest : List UInt8} :
    Read context type str form rest ↔
      form.SpelledBefore rest typeString str ∧ form.salt.length ≤ context.saltlen.toNat ∧
        form.out.length ≤ context.outlen.toNat ∧ ∀ c, rest.head? = some c → Foreign c := by
  constructor
  · rintro ⟨⟨typeString', same, spelled⟩, salt, out, ends⟩
    cases named.symm.trans same
    exact ⟨spelled, salt, out, ends⟩
  · rintro ⟨spelled, salt, out, ends⟩
    exact ⟨⟨typeString, named, spelled⟩, salt, out, ends⟩

theorem not_read {context : Context} {type : UInt32} {str : List UInt8}
    (unknown : argon2Type2String type false = none) {form : Form} {rest : List UInt8} :
    ¬ Read context type str form rest := by
  rintro ⟨⟨typeString, never, -⟩, -⟩
  rw [unknown] at never
  cases never

/-- Every result but an unreadable string, for a known type. -/
theorem decodeString_eq_iff_read {context : Context} {str : List UInt8} {type : UInt32}
    {typeString : List UInt8} (named : argon2Type2String type false = some typeString)
    {result : Except FormCode Context} (other : result ≠ .error .decodingFail) :
    decodeString context str type = result ↔
      ∃ form rest, Read context type str form rest ∧
        accepted (form.fill context) rest = result := by
  simp only [decodeString_eq_iff named other, read_iff named, and_assoc]

/--
What `decode_string` returns for any string. It returns a context where the
string is read up to its end as a form that passes the checks; the code of the
checks where a form is read that fails them, whatever is behind it; that of an
unknown type; and else that of a string that cannot be decoded.
-/
theorem decodeString_verdict (context : Context) (str : List UInt8) (type : UInt32) :
    (∀ filled, decodeString context str type = .ok filled ↔
      ∃ form rest, Read context type str form rest ∧ filled = form.fill context ∧
        validateInputs (some filled) = .ok () ∧ rest.headD 0 = 0) ∧
    (∀ code, decodeString context str type = .error (.refused code) ↔
      (argon2Type2String type false = none ∧ code = .incorrectType) ∨
      ∃ form rest, Read context type str form rest ∧
        validateInputs (some (form.fill context)) = .error code) ∧
    (decodeString context str type = .error .decodingFail ↔
      argon2Type2String type false ≠ none ∧ ∀ form rest, Read context type str form rest →
        validateInputs (some (form.fill context)) = .ok () ∧ rest.headD 0 ≠ 0) := by
  cases named : argon2Type2String type false with
  | none =>
      have unknown : decodeString context str type = .error (.refused .incorrectType) := by
        rw [decodeString, named]
      rw [unknown]
      refine ⟨fun filled => ?_, fun code => ?_, ?_⟩
      · exact iff_of_false (fun never => nomatch never) fun ⟨_, _, read, _⟩ => not_read named read
      · constructor
        · intro same
          cases same
          exact .inl ⟨rfl, rfl⟩
        · rintro (⟨-, rfl⟩ | ⟨_, _, read, _⟩)
          · rfl
          · exact absurd read (not_read named)
      · exact iff_of_false (fun never => nomatch never) fun ⟨never, _⟩ => never rfl
  | some typeString =>
      have returns (filled : Context) : decodeString context str type = .ok filled ↔
          ∃ form rest, Read context type str form rest ∧ filled = form.fill context ∧
            validateInputs (some filled) = .ok () ∧ rest.headD 0 = 0 := by
        have other : Except.ok filled ≠ .error FormCode.decodingFail := fun never => nomatch never
        simp only [decodeString_eq_iff_read named other, accepted_eq_ok_iff]
        constructor
        · rintro ⟨form, rest, read, valid, terminated, rfl⟩
          exact ⟨form, rest, read, rfl, valid, terminated⟩
        · rintro ⟨form, rest, read, rfl, valid, terminated⟩
          exact ⟨form, rest, read, valid, terminated, rfl⟩
      have refuses (code : ErrorCode) :
          decodeString context str type = .error (.refused code) ↔
            ∃ form rest, Read context type str form rest ∧
              validateInputs (some (form.fill context)) = .error code := by
        have other : (Except.error (.refused code) : Except FormCode Context) ≠
            .error .decodingFail := fun never => nomatch never
        simp only [decodeString_eq_iff_read named other, accepted_eq_refused_iff]
      refine ⟨returns, fun code => ?_, ?_⟩
      · rw [refuses code]
        exact (or_iff_right fun ⟨never, _⟩ => nomatch never).symm
      · constructor
        · intro unreadable
          refine ⟨fun never => (nomatch never), fun form rest read => ?_⟩
          cases checked : validateInputs (some (form.fill context)) with
          | error code =>
              have refused := (refuses code).mpr ⟨form, rest, read, checked⟩
              rw [unreadable] at refused
              cases refused
          | ok =>
              refine ⟨rfl, fun terminated => ?_⟩
              have returned := (returns _).mpr ⟨form, rest, read, rfl, checked, terminated⟩
              rw [unreadable] at returned
              cases returned
        · rintro ⟨-, fails⟩
          by_contra readable
          obtain ⟨form, rest, read, accepts⟩ := (decodeString_eq_iff_read named readable).mp rfl
          obtain ⟨checked, more⟩ := fails form rest read
          rw [accepted, checks_of_ok (validated_eq_ok_iff.mpr checked), if_neg more] at accepts
          exact readable accepts.symm

end UltraLocked.CArgon2
