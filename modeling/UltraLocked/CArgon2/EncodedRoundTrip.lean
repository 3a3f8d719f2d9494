import UltraLocked.CArgon2.EncodedForm

/-!
# The encoded form there and back

A string is accepted for at most one type and says the same in every context.
The text of a context fits in the length that `argon2_encodedlen` returns and no
less, and is read back as what the context says.
-/

namespace UltraLocked.CArgon2

open Library Base64

/-! ## Decoded contexts -/

theorem formOf_fill {form : Form} {context : Context} (salt : context.salt ≠ none)
    (out : context.out ≠ none) (short : form.salt.length < 2 ^ 32)
    (short' : form.out.length < 2 ^ 32) : formOf (form.fill context) = form := by
  have read {buffer : Pointer} {bytes : List UInt8} (present : buffer ≠ none)
      (few : bytes.length < 2 ^ 32) :
      contents (overwritten buffer bytes) (UInt32.ofNat bytes.length) = bytes := by
    obtain ⟨old, rfl⟩ := Option.ne_none_iff_exists'.mp present
    rw [contents, overwritten, Option.map_some, Option.getD_some, UInt32.toNat_ofNat',
      Nat.mod_eq_of_lt few, List.take_left]
  change Form.mk form.version form.mCost form.tCost form.lanes
    (contents (overwritten context.salt form.salt) (UInt32.ofNat form.salt.length))
    (contents (overwritten context.out form.out) (UInt32.ofNat form.out.length)) = form
  rw [read salt short, read out short']

/-- A context whose form passes the checks: what it must be given besides the string. -/
structure Receives (context : Context) : Prop where
  pwd : context.pwd = none → context.pwdlen = 0
  salt : context.salt ≠ none
  out : context.out ≠ none

/-- What the checks ask of a form. -/
structure Form.Valid (form : Form) : Prop where
  memory : 8 ≤ form.mCost.toNat
  memoryLanes : 8 * form.lanes.toNat ≤ form.mCost.toNat
  time : 1 ≤ form.tCost.toNat
  lanes : 1 ≤ form.lanes.toNat ∧ form.lanes.toNat ≤ 0xFFFFFF
  salt : 8 ≤ form.salt.length ∧ form.salt.length < 2 ^ 32
  out : 4 ≤ form.out.length ∧ form.out.length < 2 ^ 32

theorem overwritten_ne_none {buffer : Pointer} {bytes : List UInt8} :
    overwritten buffer bytes ≠ none ↔ buffer ≠ none := by
  rw [overwritten, Ne, Option.map_eq_none_iff]

theorem fill_valid_iff {form : Form} {context : Context} (receives : Receives context)
    (short : form.salt.length < 2 ^ 32) (short' : form.out.length < 2 ^ 32) :
    validateInputs (some (form.fill context)) = .ok () ↔ form.Valid := by
  have salt : (UInt32.ofNat form.salt.length).toNat = form.salt.length := by
    rw [UInt32.toNat_ofNat', Nat.mod_eq_of_lt short]
  have out : (UInt32.ofNat form.out.length).toNat = form.out.length := by
    rw [UInt32.toNat_ofNat', Nat.mod_eq_of_lt short']
  rw [validateInputs_eq_ok_iff]
  constructor
  · rintro ⟨buffers, costs⟩
    exact ⟨costs.memory, costs.memoryLanes, costs.time, costs.lanes,
      ⟨salt ▸ buffers.saltlen, short⟩, ⟨out ▸ buffers.outlen, short'⟩⟩
  · intro valid
    refine ⟨⟨overwritten_ne_none.mpr receives.out, out.symm ▸ valid.out.1, receives.pwd, ?_,
      salt.symm ▸ valid.salt.1, fun _ => rfl, fun _ => rfl⟩, ?_⟩
    · exact fun missing => absurd missing (overwritten_ne_none.mpr receives.salt)
    · exact ⟨valid.memory, valid.memoryLanes, valid.time, valid.lanes, valid.lanes, rfl⟩

/-- A context into which a string was decoded could receive it. -/
theorem receives_of_decoded {context filled : Context} {str : List UInt8} {type : UInt32}
    (decoded : decodeString context str type = .ok filled) : Receives context := by
  obtain ⟨-, form, -, -, -, -, rfl, valid⟩ := decodeString_eq_ok_iff.mp decoded
  have buffers := (validateInputs_eq_ok_iff.mp valid).1
  refine ⟨buffers.pwd, fun missing => ?_, overwritten_ne_none.mp buffers.out⟩
  have salt : (form.fill context).salt = none := congrArg (overwritten · form.salt) missing
  have least := buffers.saltlen
  rw [buffers.salt salt] at least
  exact absurd least (by decide)

/-- What is accepted, for a context that could receive it. -/
theorem decodeString_iff {context filled : Context} (receives : Receives context)
    {str : List UInt8} {type : UInt32} :
    decodeString context str type = .ok filled ↔
      ∃ typeString, ∃ form : Form, argon2Type2String type false = some typeString ∧
        form.SpelledBy typeString str ∧ form.salt.length ≤ context.saltlen.toNat ∧
        form.out.length ≤ context.outlen.toNat ∧ filled = form.fill context ∧ form.Valid := by
  have shorter {n : Nat} {length : UInt32} (fits : n ≤ length.toNat) : n < 2 ^ 32 :=
    Nat.lt_of_le_of_lt fits length.toNat_lt
  rw [decodeString_eq_ok_iff]
  constructor
  · rintro ⟨typeString, form, named, spelled, salt, out, rfl, valid⟩
    exact ⟨typeString, form, named, spelled, salt, out, rfl,
      (fill_valid_iff receives (shorter salt) (shorter out)).mp valid⟩
  · rintro ⟨typeString, form, named, spelled, salt, out, rfl, valid⟩
    exact ⟨typeString, form, named, spelled, salt, out, rfl,
      (fill_valid_iff receives valid.salt.2 valid.out.2).mpr valid⟩

/-! ## One string, one form -/

/-- A context without a password that could receive any form. -/
def emptyContext : Context where
  out := some []
  outlen := 0xFFFFFFFF
  pwd := none
  pwdlen := 0
  salt := some []
  saltlen := 0xFFFFFFFF
  secret := none
  secretlen := 0
  ad := none
  adlen := 0
  tCost := 0
  mCost := 0
  lanes := 0
  threads := 0
  version := 0
  allocateCbk := none
  freeCbk := none
  flags := 0

theorem emptyContext_receives : Receives emptyContext :=
  ⟨fun _ => rfl, Option.some_ne_none [], Option.some_ne_none []⟩

/-- A string that spells two forms is read as one of them, so they are the same. -/
theorem Form.SpelledBy.unique {type : UInt32} {typeString str : List UInt8}
    (named : argon2Type2String type false = some typeString) {form form' : Form}
    (spelled : form.SpelledBy typeString str) (spelled' : form'.SpelledBy typeString str)
    (valid : form.Valid) (valid' : form'.Valid) : form = form' := by
  have most : (0xFFFFFFFF : UInt32).toNat + 1 = 2 ^ 32 := rfl
  have decodes {form : Form} (spelled : form.SpelledBy typeString str) (valid : form.Valid) :
      decodeString emptyContext str type = .ok (form.fill emptyContext) := by
    have salt := valid.salt.2
    have out := valid.out.2
    refine (decodeString_iff emptyContext_receives).mpr
      ⟨typeString, form, named, spelled, ?_, ?_, rfl, valid⟩
    · change _ ≤ (0xFFFFFFFF : UInt32).toNat
      omega
    · change _ ≤ (0xFFFFFFFF : UInt32).toNat
      omega
  have same := (decodes spelled valid).symm.trans (decodes spelled' valid')
  have filled : form.fill emptyContext = form'.fill emptyContext := Except.ok.inj same
  have forms := congrArg formOf filled
  have empty := emptyContext_receives
  rwa [formOf_fill empty.salt empty.out valid.salt.2 valid.out.2,
    formOf_fill empty.salt empty.out valid'.salt.2 valid'.out.2] at forms

/-- A name is between the first two dollars of a string. -/
theorem Form.SpelledBy.named {form : Form} {typeString str : List UInt8}
    (spelled : form.SpelledBy typeString str) :
    ∃ tail, str = ascii "$" ++ (typeString ++ '$'.val.toUInt8 :: tail) := by
  obtain ⟨rest, ⟨version, salt, out, rfl, versioned, -⟩, -⟩ := spelled
  simp only [assembled, List.append_assoc]
  rcases versioned with rfl | ⟨rfl, -⟩
  · exact ⟨_, rfl⟩
  · exact ⟨_, rfl⟩

/-- The names of the types are different and have no dollar in them. -/
theorem argon2Type2String_cases {type : UInt32} {typeString : List UInt8}
    (named : argon2Type2String type false = some typeString) :
    (type = argon2d ∧ typeString = ascii "argon2d") ∨
      (type = argon2i ∧ typeString = ascii "argon2i") ∨
      (type = argon2id ∧ typeString = ascii "argon2id") := by
  rw [argon2Type2String] at named
  split at named
  · next d => cases named; exact .inl ⟨d, rfl⟩
  · split at named
    · next i => cases named; exact .inr (.inl ⟨i, rfl⟩)
    · split at named
      · next id => cases named; exact .inr (.inr ⟨id, rfl⟩)
      · cases named

theorem name_eq {type : UInt32} {typeString : List UInt8}
    (named : argon2Type2String type false = some typeString) (tail : List UInt8) :
    (typeString ++ '$'.val.toUInt8 :: tail).takeWhile (· ≠ '$'.val.toUInt8) = typeString := by
  have free : ∀ c ∈ typeString, (decide (c ≠ '$'.val.toUInt8)) = true := by
    rcases argon2Type2String_cases named with ⟨-, rfl⟩ | ⟨-, rfl⟩ | ⟨-, rfl⟩ <;>
      decide +kernel
  rw [List.takeWhile_append_of_pos free, List.takeWhile_cons_of_neg (by decide), List.append_nil]

/--
A string that is accepted twice is accepted for one type and tells the same
version, costs, salt and tag, whatever the contexts had in them before.
-/
theorem decodeString_unambiguous {context context' filled filled' : Context} {str : List UInt8}
    {type type' : UInt32} (first : decodeString context str type = .ok filled)
    (second : decodeString context' str type' = .ok filled') :
    type = type' ∧ formOf filled = formOf filled' := by
  have receives := receives_of_decoded first
  have receives' := receives_of_decoded second
  obtain ⟨typeString, form, named, spelled, -, -, rfl, valid⟩ :=
    (decodeString_iff receives).mp first
  obtain ⟨typeString', form', named', spelled', -, -, rfl, valid'⟩ :=
    (decodeString_iff receives').mp second
  obtain ⟨tail, split⟩ := spelled.named
  obtain ⟨tail', split'⟩ := spelled'.named
  have names : typeString = typeString' := by
    have behind := List.append_cancel_left (split.symm.trans split')
    rw [← name_eq named tail, behind, name_eq named']
  subst names
  have types : type = type' := by
    rcases argon2Type2String_cases named with ⟨rfl, rfl⟩ | ⟨rfl, rfl⟩ | ⟨rfl, rfl⟩ <;>
      rcases argon2Type2String_cases named' with ⟨rfl, same⟩ | ⟨rfl, same⟩ | ⟨rfl, same⟩ <;>
        first | rfl | exact absurd same (by decide)
  subst types
  refine ⟨rfl, ?_⟩
  rw [formOf_fill receives.salt receives.out valid.salt.2 valid.out.2,
    formOf_fill receives'.salt receives'.out valid'.salt.2 valid'.out.2]
  exact spelled.unique named spelled' valid valid'

/-! ## The text of a context -/

theorem base64_ascii (bytes : List UInt8) : (base64 bytes).map asciiOf = base64 bytes := by
  rw [base64, List.map_map]
  exact List.map_congr_left fun digit member => asciiOf_symbol digit (sextets_lt bytes digit member)

/-- The text of a form spells it. -/
theorem Form.spelledBy_text (form : Form) (typeString : List UInt8) :
    form.SpelledBy typeString (form.text typeString) :=
  ⟨[], ⟨form.versionText, base64 form.salt, base64 form.out, (List.append_nil _).symm, .inl rfl,
    base64_ascii form.salt, base64_ascii form.out⟩, rfl⟩

/-- Buffers that are as long as the context says. -/
structure Filled (context : Context) : Prop where
  salt : context.saltlen.toNat ≤ (context.salt.getD []).length
  out : context.outlen.toNat ≤ (context.out.getD []).length

theorem formOf_valid {context : Context} (filled : Filled context)
    (valid : validateInputs (some context) = .ok ()) : (formOf context).Valid := by
  have salt : (formOf context).salt.length = context.saltlen.toNat := length_contents filled.salt
  have out : (formOf context).out.length = context.outlen.toNat := length_contents filled.out
  obtain ⟨buffers, costs⟩ := validateInputs_eq_ok_iff.mp valid
  exact ⟨costs.memory, costs.memoryLanes, costs.time, costs.lanes,
    salt.symm ▸ ⟨buffers.saltlen, context.saltlen.toNat_lt⟩,
    out.symm ▸ ⟨buffers.outlen, context.outlen.toNat_lt⟩⟩

/-- The text of a context is read back. -/
theorem decodeString_text {context other : Context} {type : UInt32} {typeString : List UInt8}
    (named : argon2Type2String type false = some typeString) (filled : Filled context)
    (valid : validateInputs (some context) = .ok ()) (receives : Receives other)
    (salt : context.saltlen ≤ other.saltlen) (out : context.outlen ≤ other.outlen) :
    decodeString other ((formOf context).text typeString) type =
      .ok ((formOf context).fill other) := by
  refine (decodeString_iff receives).mpr ⟨typeString, formOf context, named,
    (formOf context).spelledBy_text typeString, ?_, ?_, rfl, formOf_valid filled valid⟩
  · exact (length_contents filled.salt).trans_le (UInt32.le_iff_toNat_le.mp salt)
  · exact (length_contents filled.out).trans_le (UInt32.le_iff_toNat_le.mp out)

/--
Into the length that `argon2_encodedlen` returns, and into no shorter one,
`encode_string` writes a valid context, and `decode_string` reads its version,
costs, salt and tag back into every context with room for them.
-/
theorem encoded_round_trip {context : Context} {type : UInt32} {typeString : List UInt8}
    (named : argon2Type2String type false = some typeString)
    (valid : validateInputs (some context) = .ok ()) (filled : Filled context)
    (current : context.version = versionNumber) :
    ∃ size, argon2Encodedlen context.tCost context.mCost context.lanes context.saltlen
        context.outlen type = some size ∧
      ∀ dstLen, (dstLen < size → encodeString dstLen context type = .error .encodingFail) ∧
        (size ≤ dstLen → ∃ text, encodeString dstLen context type = .ok text ∧
          ∀ other, Receives other → context.saltlen ≤ other.saltlen →
            context.outlen ≤ other.outlen →
              decodeString other text type = .ok ((formOf context).fill other)) := by
  refine ⟨_, argon2Encodedlen_eq named current filled.salt filled.out, fun dstLen => ⟨?_, ?_⟩⟩
  · exact fun short => encodeString_of_short named valid (Nat.le_of_lt_succ short)
  · intro room
    refine ⟨_, encodeString_eq_ok_iff.mpr ⟨typeString, named, valid, rfl, room⟩, ?_⟩
    exact fun other receives salt out => decodeString_text named filled valid receives salt out

/-! ## A text -/

/-- A context with a tag in its output. -/
def taggedContext : Context :=
  { plainContext [112] (List.replicate 8 1) with out := some (List.replicate 32 7) }

theorem taggedContext_valid : validateInputs (some taggedContext) = .ok () := rfl

theorem taggedContext_filled : Filled taggedContext := ⟨by decide, by decide⟩

theorem argon2id_named : argon2Type2String argon2id false = some (ascii "argon2id") := rfl

theorem taggedContext_round_trip :
    ∃ size, argon2Encodedlen taggedContext.tCost taggedContext.mCost taggedContext.lanes
        taggedContext.saltlen taggedContext.outlen argon2id = some size ∧
      ∀ dstLen, (dstLen < size →
          encodeString dstLen taggedContext argon2id = .error .encodingFail) ∧
        (size ≤ dstLen → ∃ text, encodeString dstLen taggedContext argon2id = .ok text ∧
          ∀ other, Receives other → taggedContext.saltlen ≤ other.saltlen →
            taggedContext.outlen ≤ other.outlen →
              decodeString other text argon2id = .ok ((formOf taggedContext).fill other)) :=
  encoded_round_trip argon2id_named taggedContext_valid taggedContext_filled rfl

theorem taggedContext_unambiguous :
    argon2id = argon2id ∧ formOf ((formOf taggedContext).fill emptyContext) =
      formOf ((formOf taggedContext).fill taggedContext) := by
  have receives : Receives taggedContext :=
    ⟨fun never => (nomatch never), Option.some_ne_none _, Option.some_ne_none _⟩
  exact decodeString_unambiguous
    (decodeString_text argon2id_named taggedContext_filled taggedContext_valid
      emptyContext_receives (by decide) (by decide))
    (decodeString_text argon2id_named taggedContext_filled taggedContext_valid receives
      (by decide) (by decide))

end UltraLocked.CArgon2
