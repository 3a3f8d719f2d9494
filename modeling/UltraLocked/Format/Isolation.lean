import UltraLocked.Format.BuildSuccess
import UltraLocked.Library.TwoRuns
import UltraLocked.Library.Windows

/-!
# Plaintext contents stay inside their own records

Two builds over items that agree on everything but the contents of their
plaintexts run in step: they make the same checks on the same sizes. When they
return, the bundles differ only inside the records of items that differ.
-/

namespace UltraLocked.Format.BundleBuilder

open Library

/-! ## The two runs in step -/

/-- What two runs in step rely on outside the package. -/
structure StepLaws (kit : CryptoKit) : Prop where
  uniform : kit.SealUniformLaw
  length : kit.SealLengthLaw

section Steps

variable {kit : CryptoKit} (laws : StepLaws kit) {masterKey : SymmetricKey}
  {headerBytes : Bytes}

include laws in
/-- Equally long plaintexts are sealed into equally long boxes, or refused alike. -/
theorem sealGCM_agree (key : SymmetricKey) (nonce aad : Bytes) {left right : Bytes}
    (length : left.length = right.length) :
    Traced.Agree (fun first second => (joined first).length = (joined second).length)
      (Crypto.sealGCM kit key nonce left aad) (Crypto.sealGCM kit key nonce right aad) := by
  rw [Crypto.sealGCM, Crypto.sealGCM]
  cases kit.nonceError nonce with
  | some error => exact .inl ⟨_, rfl, rfl⟩
  | none =>
      cases boxed : kit.sealBox key nonce left aad with
      | error error =>
          rw [laws.uniform _ _ _ _ _ _ length boxed]
          exact .inl ⟨_, rfl, rfl⟩
      | ok first =>
          cases boxed' : kit.sealBox key nonce right aad with
          | error error =>
              rw [laws.uniform _ _ _ _ _ _ length.symm boxed'] at boxed
              cases boxed
          | ok second =>
              obtain ⟨ciphertext, tag⟩ := laws.length _ _ _ _ _ _ boxed
              obtain ⟨ciphertext', tag'⟩ := laws.length _ _ _ _ _ _ boxed'
              refine .inr ⟨first, second, rfl, rfl, ?_⟩
              change (first.1 ++ first.2).length = (second.1 ++ second.2).length
              rw [List.length_append, List.length_append, ciphertext, tag, ciphertext', tag',
                length]

include laws in
/-- Records of equally long plaintexts are equally long. -/
theorem encrypt_agree {left right : ItemContent} (shape : SameShape left right)
    (nonce : Bytes) :
    Traced.Agree (fun first second : Bytes => first.length = second.length)
      (ItemRecord.encrypt kit left.plaintext.bytes masterKey left.id nonce headerBytes)
      (ItemRecord.encrypt kit right.plaintext.bytes masterKey right.id nonce headerBytes) := by
  rw [ItemRecord.encrypt, ItemRecord.encrypt, shape.id]
  refine .bind (.same _) ?_
  rintro itemKey _ rfl
  exact .bind (sealGCM_agree laws _ _ _ shape.length) fun _ _ length =>
    .inr ⟨_, _, rfl, rfl, length⟩

/-- Equal totals, and records of equal lengths. -/
def SameSizes (first second : List Bytes × UInt64) : Prop :=
  first.1.map List.length = second.1.map List.length ∧ first.2 = second.2

include laws in
/-- The encryption loop makes the same checks on both sides. -/
theorem encryptItems_agree {descriptors : List ItemDescriptor} {itemNonces : List Bytes}
    {left right : List ItemContent} (shapes : List.Forall₂ SameShape left right)
    {first second : List Bytes} (sizes : first.map List.length = second.map List.length)
    (i : Nat) (total : UInt64) :
    Traced.Agree SameSizes
      (encryptItems kit masterKey headerBytes descriptors itemNonces i left first total)
      (encryptItems kit masterKey headerBytes descriptors itemNonces i right second
        total) := by
  induction shapes generalizing first second i total with
  | nil => exact .of_values ⟨sizes, rfl⟩ [] []
  | @cons item other rest others shape _ ih =>
      rw [encryptItems, encryptItems]
      refine .bind (.same _) ?_
      rintro nonce _ rfl
      refine .bind (encrypt_agree laws shape nonce) fun record record' length => ?_
      have counts : byteCount record = byteCount record' := congrArg Int.ofNat length
      rw [counts, shape.id]
      refine .bind (.same _) ?_
      rintro size _ rfl
      refine .bind (.same _) ?_
      rintro described _ rfl
      refine .bind (.same _) fun _ _ _ => .bind (.same _) ?_
      rintro sum _ rfl
      exact ih (by rw [List.map_append, List.map_append, sizes, List.map_singleton,
        List.map_singleton, length]) (i + 1) sum

/-- The final checks see the sizes alone. -/
theorem concatenate_agree {ciphertext tag : Bytes} {first second : List Bytes}
    (sizes : first.map List.length = second.map List.length)
    (manifestSize total : UInt64) :
    Traced.Agree (fun _ _ => True)
      (⟨concatenate headerBytes ciphertext tag first manifestSize total, []⟩ : Calling Data)
      ⟨concatenate headerBytes ciphertext tag second manifestSize total, []⟩ := by
  have length : (headerBytes ++ ciphertext ++ tag ++ first.flatten).length =
      (headerBytes ++ ciphertext ++ tag ++ second.flatten).length := by
    simp only [List.length_append, List.length_flatten, sizes]
  have counts : byteCount (headerBytes ++ ciphertext ++ tag ++ first.flatten) =
      byteCount (headerBytes ++ ciphertext ++ tag ++ second.flatten) :=
    congrArg Int.ofNat length
  rw [concatenate, concatenate, foldl_append, foldl_append]
  simp only [Traced.lift_bind, counts]
  refine .bind (.same _) ?_
  rintro start _ rfl
  refine .bind (.same _) ?_
  rintro before _ rfl
  refine .bind (.same _) ?_
  rintro whole _ rfl
  refine .bind (.same _) fun _ _ _ => .bind (.same _) ?_
  rintro size _ rfl
  refine .bind (.same _) fun _ _ _ => ?_
  by_cases fits : (headerBytes ++ ciphertext ++ tag ++ first.flatten).length < 2 ^ 63
  · rw [dif_pos fits, dif_pos (length ▸ fits)]
    exact .of_values trivial [] []
  · rw [dif_neg fits, dif_neg (length ▸ fits)]
    exact .inl ⟨_, rfl, rfl⟩

end Steps

section Builds

variable {platform : Platform} (laws : StepLaws platform.kit) {left right : BundleBuilder}

/-- Builders that agree on everything but the contents of the plaintexts. -/
structure SameShapes (left right : BundleBuilder) : Prop where
  items : List.Forall₂ SameShape left.items right.items
  parameters : left.parameters = right.parameters
  exportLabel : left.exportLabel = right.exportLabel
  exportedAt : left.exportedAt = right.exportedAt

theorem planHeader_congr (shapes : SameShapes left right) (json : JSONCoding Manifest)
    (salt manifestNonce : Bytes) (manifest : Manifest) :
    planHeader json left salt manifestNonce manifest =
      planHeader json right salt manifestNonce manifest := by
  rw [planHeader, planHeader, shapes.parameters]

include laws in
/-- Two builds of one shape end in the same error, or both return. -/
theorem buildBundle_agree (shapes : SameShapes left right) (masterKey : SymmetricKey)
    (salt manifestNonce : Bytes) (draw : Nat) :
    Traced.Agree (fun _ _ => True)
      (buildBundle platform left masterKey salt manifestNonce draw).1
      (buildBundle platform right masterKey salt manifestNonce draw).1 := by
  rw [buildBundle_run, buildBundle_run, ← stageAll_congr shapes.items]
  cases found : stageAll platform.random draw left.items with
  | error stop => exact .inl ⟨stop, rfl, rfl⟩
  | ok descriptors =>
      rw [Traced.bind_silent, Traced.bind_silent, sealStaged, sealStaged, shapes.exportedAt,
        shapes.exportLabel, planHeader_congr shapes]
      refine .bind (.same _) ?_
      rintro ⟨size, header⟩ _ rfl
      refine .bind (.same _) ?_
      rintro headerBytes _ rfl
      refine .bind (.same _) ?_
      rintro ⟨ciphertext, tag⟩ _ rfl
      refine .bind (.same _) ?_
      rintro sum _ rfl
      refine .bind (.same _) ?_
      rintro sealedSize _ rfl
      refine .bind (.same _) fun _ _ _ =>
        .bind (encryptItems_agree laws shapes.items rfl 0 0) ?_
      rintro ⟨first, total⟩ ⟨second, total'⟩ ⟨sizes, same⟩
      cases same
      exact concatenate_agree sizes size total

end Builds

/-! ## Where the bundles differ -/

theorem staged_congr {left right : List ItemContent}
    (shapes : List.Forall₂ SameShape left right) (random : SystemRandom) (draw : Nat) :
    staged random draw left = staged random draw right := by
  induction shapes generalizing draw with
  | nil => rfl
  | cons shape _ ih =>
      rw [staged, staged, ih, descriptor, descriptor, shape.id, shape.name, shape.mimeType,
        shape.length, shape.createdAt, shape.modifiedAt, shape.ttlSeconds,
        shape.ttlOriginEpoch]

/-- Equal plaintexts are sealed into equal boxes. -/
theorem Encrypted.box_eq {kit : CryptoKit} {masterKey : SymmetricKey} {headerBytes : Bytes}
    {left right : List ItemContent} {descriptors : List ItemDescriptor}
    {boxes others : List (Bytes × Bytes)} {events calls : List ForeignCall}
    (first : Encrypted kit masterKey headerBytes left descriptors boxes events)
    (second : Encrypted kit masterKey headerBytes right descriptors others calls)
    (shapes : List.Forall₂ SameShape left right) (i : Nat)
    (same : left[i]?.map (fun item => item.plaintext.bytes) =
      right[i]?.map (fun item => item.plaintext.bytes)) : boxes[i]? = others[i]? := by
  induction first generalizing right others calls i with
  | nil => cases second; rfl
  | cons accepted boxed _ _ ih =>
      cases second with
      | cons accepted' boxed' _ rest =>
          cases shapes with
          | cons shape shapes =>
              cases i with
              | zero =>
                  simp only [List.getElem?_cons_zero, Option.map_some,
                    Option.some.injEq] at same ⊢
                  rw [shape.id, same, boxed'] at boxed
                  exact (Except.ok.inj boxed).symm
              | succ i => exact ih rest shapes i (by simpa using same)

/-- The header is determined by the builder and the size of the manifest section. -/
theorem Headed.unique {left right : BundleBuilder} {salt manifestNonce : Bytes} {size : Nat}
    {header other : BundleHeader} (first : Headed left salt manifestNonce size header)
    (second : Headed right salt manifestNonce size other)
    (parameters : left.parameters = right.parameters) : header = other := by
  refine BundleHeader.ext_fields ?_ ?_ ?_ ?_ ?_ ?_ ?_ ?_
  · rw [header.version_eq, other.version_eq]
  · rw [header.kdfID_eq, other.kdfID_eq]
  · rw [first.timeCost, second.timeCost, parameters]
  · rw [first.memoryKiB, second.memoryKiB, parameters]
  · rw [first.parallelism, second.parallelism, parameters]
  · rw [first.salt, second.salt]
  · rw [first.manifestNonce, second.manifestNonce]
  · exact UInt32.toNat_inj.mp (first.manifestSize.trans second.manifestSize.symm)

/-! ### The parts of the two bundles -/

section Twins

variable {kit : CryptoKit} {json : JSONCoding Manifest} {left right : BundleBuilder}
  {masterKey : SymmetricKey} {salt manifestNonce : Bytes} {random : SystemRandom} {draw : Nat}
  (shapes : SameShapes left right)
  (one : Parts kit json left masterKey salt manifestNonce (staged random draw left.items))
  (two : Parts kit json right masterKey salt manifestNonce (staged random draw left.items))

include shapes

theorem texts_eq : one.text = two.text := by
  have again := two.encoded
  rw [← shapes.exportedAt, ← shapes.exportLabel] at again
  exact Except.ok.inj (one.encoded.symm.trans again)

theorem headers_eq : one.header = two.header :=
  one.headed.unique (texts_eq shapes one two ▸ two.headed) shapes.parameters

theorem manifests_eq : one.box = two.box := by
  have again := two.boxed
  rw [← texts_eq shapes one two, ← headers_eq shapes one two] at again
  exact Except.ok.inj (one.boxed.symm.trans again)

theorem boxes_eq {i : Nat} (inside : i < left.items.length) (within : i < right.items.length)
    (same : left.items[i].plaintext.bytes = right.items[i].plaintext.bytes) :
    one.boxes[i]? = two.boxes[i]? := by
  have encrypted := two.encrypted
  rw [← headers_eq shapes one two] at encrypted
  refine one.encrypted.box_eq encrypted shapes.items i ?_
  rw [List.getElem?_eq_getElem inside, List.getElem?_eq_getElem within, Option.map_some,
    Option.map_some, same]

theorem bytes_eq : two.bytes =
    one.header.encoded ++ joined one.box ++ (two.boxes.map joined).flatten := by
  rw [Parts.bytes, headers_eq shapes one two, manifests_eq shapes one two]

/-- The record of an item with the same plaintext on both sides is the same. -/
theorem records_eq {i : Nat} (inside : i < left.items.length)
    (within : i < right.items.length)
    (same : left.items[i].plaintext.bytes = right.items[i].plaintext.bytes) :
    (one.bytes.drop (windowStart one.header left.items i)).take
        (left.items[i].plaintext.bytes.length + 16) =
      (two.bytes.drop (windowStart one.header left.items i)).take
        (left.items[i].plaintext.bytes.length + 16) := by
  obtain ⟨record, found, length⟩ := record_of_sizes one.recordSizes_eq inside
  have found' : (two.boxes.map joined)[i]? = some record := by
    rw [List.getElem?_map, ← boxes_eq shapes one two inside within same, ← List.getElem?_map,
      found]
  have here := Windows.take_drop_behind (one.header.encoded ++ joined one.box) found
  have there := Windows.take_drop_behind (one.header.encoded ++ joined one.box) found'
  rw [one.recordSizes_eq, one.length_front, length] at here
  rw [two.recordSizes_eq, one.length_front, length] at there
  rw [windowStart, bytes_eq shapes one two, there, Parts.bytes, here]

/-- The bundles differ only inside the record of an item whose plaintexts differ. -/
theorem differ_in_record {k : Nat} (differ : one.bytes[k]? ≠ two.bytes[k]?) :
    ∃ i, ∃ inside : i < left.items.length, ∃ within : i < right.items.length,
      left.items[i].plaintext.bytes ≠ right.items[i].plaintext.bytes ∧
      windowStart one.header left.items i ≤ k ∧
      k < windowStart one.header left.items i +
        (left.items[i].plaintext.bytes.length + 16) := by
  have sizes := one.recordSizes_eq
  have sizes' := two.recordSizes_eq
  rw [bytes_eq shapes one two, Parts.bytes] at differ
  obtain ⟨i, parts, above, below⟩ := Windows.differ_behind (sizes.trans sizes'.symm) differ
  rw [sizes, one.length_front] at above below
  have counted : one.boxes.length = left.items.length := by
    simpa [recordSizes] using congrArg List.length sizes
  have counted' : two.boxes.length = left.items.length := by
    simpa [recordSizes] using congrArg List.length sizes'
  have inside : i < left.items.length := by
    by_contra outside
    apply parts
    rw [List.getElem?_eq_none (by simpa [counted] using outside),
      List.getElem?_eq_none (by simpa [counted'] using outside)]
  have within : i < right.items.length := shapes.items.length_eq ▸ inside
  refine ⟨i, inside, within, ?_, above, ?_⟩
  · intro same
    apply parts
    rw [List.getElem?_map, List.getElem?_map, boxes_eq shapes one two inside within same]
  · have listed : i < (recordSizes left.items).length := by
      rw [length_recordSizes]
      exact inside
    rw [Windows.start_succ listed] at below
    simp only [recordSizes, List.getElem_map] at below
    simp only [windowStart, recordSizes]
    omega

end Twins

/--
Two builds that agree on everything but the contents of the plaintexts end in
the same error, or return bundles of equal length with equal header, equal
manifest section and equal records of equal plaintexts, which differ only
inside the records of items whose plaintexts differ.
-/
theorem plaintexts_stay_inside (platform : Platform) (laws : StepLaws platform.kit)
    (left right : BundleBuilder) (shapes : SameShapes left right)
    (masterKey : SymmetricKey) (salt manifestNonce : Bytes) (draw : Nat) :
    (∃ stop,
      (buildBundle platform left masterKey salt manifestNonce draw).1.outcome = .error stop ∧
      (buildBundle platform right masterKey salt manifestNonce draw).1.outcome =
        .error stop) ∨
    ∃ (first second : Data) (header : BundleHeader),
      (buildBundle platform left masterKey salt manifestNonce draw).1.outcome = .ok first ∧
      (buildBundle platform right masterKey salt manifestNonce draw).1.outcome =
        .ok second ∧
      first.bytes.length = second.bytes.length ∧
      first.bytes.take 96 = header.encoded ∧
      first.bytes.take (96 + header.manifestSize.toNat) =
        second.bytes.take (96 + header.manifestSize.toNat) ∧
      (∀ i, ∀ inside : i < left.items.length, ∀ within : i < right.items.length,
        left.items[i].plaintext.bytes = right.items[i].plaintext.bytes →
        (first.bytes.drop (windowStart header left.items i)).take
            (left.items[i].plaintext.bytes.length + 16) =
          (second.bytes.drop (windowStart header left.items i)).take
            (left.items[i].plaintext.bytes.length + 16)) ∧
      (∀ k : Nat, first.bytes[k]? ≠ second.bytes[k]? →
        ∃ i, ∃ inside : i < left.items.length, ∃ within : i < right.items.length,
          left.items[i].plaintext.bytes ≠ right.items[i].plaintext.bytes ∧
          windowStart header left.items i ≤ k ∧
          k < windowStart header left.items i +
            (left.items[i].plaintext.bytes.length + 16)) := by
  rcases buildBundle_agree laws shapes masterKey salt manifestNonce draw with
    failed | ⟨first, second, returnsFirst, returnsSecond, -⟩
  · exact .inl failed
  · refine .inr ?_
    obtain ⟨-, -, one, -, content, -⟩ :=
      buildBundle_returns_iff.mp (Traced.eq_of_outcome returnsFirst)
    have assembled := buildBundle_returns_iff.mp (Traced.eq_of_outcome returnsSecond)
    rw [← staged_congr shapes.items] at assembled
    obtain ⟨-, -, two, -, content', -⟩ := assembled
    have whole := bytes_eq shapes one.toParts two.toParts
    refine ⟨first, second, one.header, returnsFirst, returnsSecond, ?_, ?_, ?_, ?_, ?_⟩
    · rw [content, content', one.length_bytes, two.length_bytes,
        texts_eq shapes one.toParts two.toParts]
    · rw [content, Parts.bytes, List.append_assoc]
      exact List.take_left' one.header.length_encoded
    · rw [content, content', whole, List.take_left' one.length_front, Parts.bytes,
        List.take_left' one.length_front]
    · intro i inside within same
      rw [content, content']
      exact records_eq shapes one.toParts two.toParts inside within same
    · intro k differ
      rw [content, content'] at differ
      exact differ_in_record shapes one.toParts two.toParts differ

/-- Two notes with another text in the second one make a bundle of the same length. -/
theorem other_text_stays_inside :
    ∃ first second : Data,
      (buildBundle (Sample.platform 2) (Sample.builder 2) Sample.masterKey Sample.salt
        Sample.manifestNonce 2).1.outcome = .ok first ∧
      (buildBundle (Sample.platform 2)
        { Sample.builder 2 with items := [Sample.note 1 7 8, Sample.note 2 11 12] }
        Sample.masterKey Sample.salt Sample.manifestNonce 2).1.outcome = .ok second ∧
      first.bytes.length = second.bytes.length := by
  have same (last a b c d : UInt8) : SameShape (Sample.note last a b) (Sample.note last c d) :=
    ⟨rfl, rfl, rfl, rfl, rfl, rfl, rfl, rfl⟩
  have shapes : SameShapes (Sample.builder 2)
      { Sample.builder 2 with items := [Sample.note 1 7 8, Sample.note 2 11 12] } :=
    ⟨.cons (same 1 7 8 7 8) (.cons (same 2 9 10 11 12) .nil), rfl, rfl, rfl⟩
  rcases plaintexts_stay_inside (Sample.platform 2)
    ⟨Sample.sealUniformLaw, Sample.sealLengthLaw⟩ _ _ shapes Sample.masterKey Sample.salt
    Sample.manifestNonce 2 with ⟨stop, failed, -⟩ | ⟨first, second, -, one, two, length, -⟩
  · obtain ⟨bundle, returned⟩ := Sample.returns_of_isSome Sample.build_isSome
    rw [Sample.build, failed] at returned
    cases returned
  · exact ⟨first, second, one, two, length⟩

end UltraLocked.Format.BundleBuilder
