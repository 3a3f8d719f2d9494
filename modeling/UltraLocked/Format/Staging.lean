import UltraLocked.Format.BundleBuilder

/-!
# Staging

What the first step of a build amounts to: a draw for each item, and checks
that read every field of an item but only the length of its plaintext.
-/

namespace UltraLocked.Format.BundleBuilder

open Library

/-- The bytes of one draw. -/
def drawn (random : SystemRandom) (count draw : Nat) : Bytes :=
  (List.range count).map (random.byte draw)

/-- A draw is counted first; then it traps or returns its bytes. -/
theorem bytes_run (random : SystemRandom) (count draw : Nat) :
    Random.bytes random count draw =
      (⟨precondition (random.status draw = errSecSuccess)
          s!"SecRandomCopyBytes failed: status={random.status draw}" >>= fun _ =>
        .ok (drawn random count draw), []⟩, draw + 1) := by
  have checked (p : Throwing Unit) :
      (liftM p >>= fun _ => pure (drawn random count draw) : Method Nat Bytes) (draw + 1) =
        (⟨p >>= fun _ => .ok (drawn random count draw), []⟩, draw + 1) := by
    cases p <;> rfl
  have run : Random.bytes random count draw = (⟨_, [] ++ ([] ++ [])⟩, draw + 1) :=
    Proc.bind_run (Proc.read_run draw)
      (Proc.bind_run (Proc.write_run draw (draw + 1)) (checked _))
  exact run

/-! ## One item -/

/-- The items that the checks of the staging loop let through. -/
structure Stageable (item : ItemContent) : Prop where
  size : item.plaintext.bytes.length ≤ 262144000 - 16
  ttl : item.ttlSeconds.isSome = item.ttlOriginEpoch.isSome

/-- The descriptor of an item under a nonce. -/
def descriptor (item : ItemContent) (nonce : Bytes) : ItemDescriptor where
  id := item.id
  name := item.name
  mimeType := item.mimeType
  sizeBytes := UInt64.ofNat item.plaintext.bytes.length
  createdAt := item.createdAt
  modifiedAt := item.modifiedAt
  ttlSeconds := item.ttlSeconds
  ttlOriginEpoch := item.ttlOriginEpoch
  itemNonce := nonce
  itemSize := UInt64.ofNat (item.plaintext.bytes.length + 16)

theorem itemSize_descriptor (item : ItemContent) (nonce : Bytes) :
    (descriptor item nonce).itemSize.toNat = item.plaintext.bytes.length + 16 := by
  have bound := item.plaintext.length_lt
  rw [descriptor, UInt64.toNat_ofNat', Nat.mod_eq_of_lt (by omega)]

@[simp] theorem itemNonce_descriptor (item : ItemContent) (nonce : Bytes) :
    (descriptor item nonce).itemNonce = nonce := rfl

/-- The conversions and the addition of the staging loop never trap. -/
theorem describe_eq (item : ItemContent) (nonce : Bytes) :
    describe item nonce = (do
      BundleLimits.validateItemSize (UInt64.ofNat (item.plaintext.bytes.length + 16))
      ItemDescriptor.init item.id item.name item.mimeType
        (UInt64.ofNat item.plaintext.bytes.length) item.createdAt item.modifiedAt
        item.ttlSeconds item.ttlOriginEpoch nonce
        (UInt64.ofNat (item.plaintext.bytes.length + 16))) := by
  have bound := item.plaintext.length_lt
  obtain ⟨size, value⟩ := uint64OfInt_natCast
    (show item.plaintext.bytes.length < 2 ^ 64 by omega)
  change uint64OfInt item.plaintext.count = _ at size
  have tag : uint64OfInt ItemRecord.tagSize = .ok 16 := rfl
  have sum : addUInt64 (UInt64.ofNat item.plaintext.bytes.length) 16 =
      .ok (UInt64.ofNat (item.plaintext.bytes.length + 16)) := by
    rw [addUInt64_eq_ok_iff, value, UInt64.toNat_ofNat', Nat.mod_eq_of_lt (by omega)]
    rfl
  rw [describe, size, tag, throwing_bind_ok, throwing_bind_ok, sum, throwing_bind_ok,
    throwing_bind_ok]

/-- An item is described exactly when it is stageable. -/
theorem describe_eq_ok_iff {item : ItemContent} {nonce : Bytes}
    (nonceLength : nonce.length = 12) {described : ItemDescriptor} :
    describe item nonce = .ok described ↔
      Stageable item ∧ described = descriptor item nonce := by
  have size := itemSize_descriptor item nonce
  change (UInt64.ofNat (item.plaintext.bytes.length + 16)).toNat = _ at size
  rw [describe_eq, guards_eq_ok_iff, BundleLimits.validateItemSize_eq_ok_iff,
    ItemDescriptor.init_eq_ok_iff, size]
  constructor
  · rintro ⟨limits, rfl, valid⟩
    exact ⟨⟨by omega, valid.ttl⟩, rfl⟩
  · rintro ⟨stageable, rfl⟩
    have small := stageable.size
    refine ⟨by omega, rfl, nonceLength, ?_, stageable.ttl⟩
    rw [itemSize_descriptor]
    omega

theorem describe_clean (item : ItemContent) (nonce : Bytes) : Clean (describe item nonce) := by
  rw [describe_eq]
  exact .guards (BundleLimits.validateItemSize_clean _) ItemDescriptor.init_clean

theorem describe_nonce {item : ItemContent} {nonce : Bytes} {described : ItemDescriptor}
    (returned : describe item nonce = .ok described) : described.itemNonce = nonce := by
  rw [describe_eq, guards_eq_ok_iff, ItemDescriptor.init_eq_ok_iff] at returned
  rw [returned.2.1]

/-! ## All items -/

/-- The draws and checks of the staging loop, the draws counted from `draw` on. -/
def stageAll (random : SystemRandom) : Nat → List ItemContent → Throwing (List ItemDescriptor)
  | _, [] => .ok []
  | draw, item :: rest => do
      precondition (random.status draw = errSecSuccess)
        s!"SecRandomCopyBytes failed: status={random.status draw}"
      let described ← describe item (drawn random 12 draw)
      let others ← stageAll random (draw + 1) rest
      pure (described :: others)

/-- The descriptors of the items, the draws counted from `draw` on. -/
def staged (random : SystemRandom) : Nat → List ItemContent → List ItemDescriptor
  | _, [] => []
  | draw, item :: rest =>
      descriptor item (drawn random 12 draw) :: staged random (draw + 1) rest

theorem stageItem_run (random : SystemRandom) (item : ItemContent) (draw : Nat) :
    stageItem random item draw =
      (⟨precondition (random.status draw = errSecSuccess)
          s!"SecRandomCopyBytes failed: status={random.status draw}" >>= fun _ =>
        describe item (drawn random 12 draw) >>= fun described =>
        .ok (described, drawn random 12 draw), []⟩, draw + 1) := by
  have draws := bytes_run random 12 draw
  rw [stageItem]
  cases checked : precondition (random.status draw = errSecSuccess)
    s!"SecRandomCopyBytes failed: status={random.status draw}" with
  | error stop =>
      rw [checked] at draws
      exact Proc.bind_run_error draws
  | ok passed =>
      rw [checked] at draws
      rw [Proc.bind_run_ok draws]
      cases describe item (drawn random 12 draw) <;> rfl

/-- The staging loop appends the descriptors and their nonces. -/
theorem stageItems_run (random : SystemRandom) (items : List ItemContent)
    (descriptors : List ItemDescriptor) (itemNonces : List Bytes) (draw : Nat) :
    (stageItems random items descriptors itemNonces draw).1 =
      ⟨stageAll random draw items >>= fun others =>
        .ok (descriptors ++ others, itemNonces ++ others.map ItemDescriptor.itemNonce),
        []⟩ := by
  induction items generalizing descriptors itemNonces draw with
  | nil =>
      rw [stageItems, stageAll, throwing_bind_ok, List.map_nil, List.append_nil,
        List.append_nil]
      rfl
  | cons item rest ih =>
      have one := stageItem_run random item draw
      rw [stageItems, stageAll]
      cases checked : precondition (random.status draw = errSecSuccess)
        s!"SecRandomCopyBytes failed: status={random.status draw}" with
      | error stop =>
          rw [checked] at one
          rw [Proc.bind_run_error one]
          rfl
      | ok passed =>
          rw [checked, throwing_bind_ok] at one
          cases described : describe item (drawn random 12 draw) with
          | error stop =>
              rw [described] at one
              rw [Proc.bind_run_error one]
              rfl
          | ok first =>
              rw [described, throwing_bind_ok] at one
              have nonce := describe_nonce described
              rw [Proc.bind_run_ok one]
              change Traced.mk _ _ = _
              rw [ih]
              cases stageAll random (draw + 1) rest with
              | error stop => rfl
              | ok others => simp [nonce, pure, Except.pure]

theorem length_drawn (random : SystemRandom) (count draw : Nat) :
    (drawn random count draw).length = count := by
  simp [drawn]

/-- Staging succeeds exactly when the draws do and every item is stageable. -/
theorem stageAll_eq_ok_iff {random : SystemRandom} {draw : Nat} {items : List ItemContent}
    {descriptors : List ItemDescriptor} :
    stageAll random draw items = .ok descriptors ↔
      (∀ k < items.length, random.status (draw + k) = errSecSuccess) ∧
      (∀ item ∈ items, Stageable item) ∧ descriptors = staged random draw items := by
  induction items generalizing draw descriptors with
  | nil => simp [stageAll, staged, eq_comm]
  | cons item rest ih =>
      rw [stageAll, guards_eq_ok_iff, precondition_eq_ok_iff, throwing_bind_eq_ok_iff]
      simp only [throwing_bind_eq_ok_iff, describe_eq_ok_iff (length_drawn random 12 draw), ih,
        staged, List.forall_mem_cons, List.length_cons]
      constructor
      · rintro ⟨success, _, ⟨stageable, rfl⟩, _, ⟨others, stageables, rfl⟩, same⟩
        cases same
        refine ⟨?_, ⟨stageable, stageables⟩, rfl⟩
        rintro (_ | k) inside
        · exact success
        · rw [← Nat.add_assoc, Nat.add_right_comm]
          exact others k (by omega)
      · rintro ⟨success, ⟨stageable, stageables⟩, rfl⟩
        refine ⟨success 0 (by omega), _, ⟨stageable, rfl⟩, _, ⟨?_, stageables, rfl⟩, rfl⟩
        intro k inside
        rw [Nat.add_right_comm, Nat.add_assoc]
        exact success (k + 1) (by omega)

theorem stageAll_clean {random : SystemRandom} (success : random.SuccessLaw) (draw : Nat)
    (items : List ItemContent) : Clean (stageAll random draw items) := by
  induction items generalizing draw with
  | nil => exact .of_ok _
  | cons item rest ih =>
      rw [stageAll, precondition_pos (success draw), throwing_bind_ok]
      exact .bind (describe_clean _ _) fun _ _ => .bind (ih _) fun _ _ => .of_ok _

/-! ## Items of one shape -/

/-- Items that agree on everything but the contents of their plaintexts. -/
structure SameShape (left right : ItemContent) : Prop where
  id : left.id = right.id
  name : left.name = right.name
  mimeType : left.mimeType = right.mimeType
  length : left.plaintext.bytes.length = right.plaintext.bytes.length
  createdAt : left.createdAt = right.createdAt
  modifiedAt : left.modifiedAt = right.modifiedAt
  ttlSeconds : left.ttlSeconds = right.ttlSeconds
  ttlOriginEpoch : left.ttlOriginEpoch = right.ttlOriginEpoch

theorem describe_congr {left right : ItemContent} (same : SameShape left right)
    (nonce : Bytes) : describe left nonce = describe right nonce := by
  rw [describe_eq, describe_eq, same.id, same.name, same.mimeType, same.length,
    same.createdAt, same.modifiedAt, same.ttlSeconds, same.ttlOriginEpoch]

/-- Staging does not depend on the contents of the plaintexts. -/
theorem stageAll_congr {left right : List ItemContent}
    (same : List.Forall₂ SameShape left right) (random : SystemRandom) (draw : Nat) :
    stageAll random draw left = stageAll random draw right := by
  induction same generalizing draw with
  | nil => rfl
  | cons first _ ih => rw [stageAll, stageAll, describe_congr first, ih]

/-! ## The descriptors -/

@[simp] theorem length_staged (random : SystemRandom) (draw : Nat)
    (items : List ItemContent) : (staged random draw items).length = items.length := by
  induction items generalizing draw with
  | nil => rfl
  | cons item rest ih => rw [staged, List.length_cons, List.length_cons, ih]

/-- The descriptor of the item at a position. -/
theorem getElem_staged {random : SystemRandom} {draw : Nat} {items : List ItemContent}
    {i : Nat} (inside : i < items.length) (counted : i < (staged random draw items).length) :
    (staged random draw items)[i] = descriptor items[i] (drawn random 12 (draw + i)) := by
  induction items generalizing draw i with
  | nil => cases inside
  | cons item rest ih =>
      cases i with
      | zero => rfl
      | succ i =>
          simp only [staged, List.getElem_cons_succ]
          rw [ih (by simpa using inside), Nat.add_right_comm, Nat.add_assoc]

theorem map_id_staged (random : SystemRandom) (draw : Nat) (items : List ItemContent) :
    (staged random draw items).map ItemDescriptor.id = items.map ItemContent.id := by
  induction items generalizing draw with
  | nil => rfl
  | cons item rest ih => rw [staged, List.map_cons, List.map_cons, ih]; rfl

theorem valid_staged {random : SystemRandom} {draw : Nat} {items : List ItemContent}
    (stageables : ∀ item ∈ items, Stageable item) :
    ∀ described ∈ staged random draw items, described.Valid := by
  intro described member
  obtain ⟨i, inside, rfl⟩ := List.getElem_of_mem member
  have counted : i < items.length := by simpa using inside
  have stageable := stageables _ (List.getElem_mem counted)
  have small := stageable.size
  rw [getElem_staged counted]
  refine ⟨length_drawn _ _ _, ?_, stageable.ttl⟩
  rw [itemSize_descriptor]
  omega

/-- After staging a build makes no more draws. -/
theorem buildBundle_run (platform : Platform) (builder : BundleBuilder)
    (masterKey : SymmetricKey) (salt manifestNonce : Bytes) (draw : Nat) :
    (buildBundle platform builder masterKey salt manifestNonce draw).1 =
      (⟨stageAll platform.random draw builder.items, []⟩ >>= fun descriptors =>
        sealStaged platform.kit platform.json builder masterKey salt manifestNonce descriptors
          (descriptors.map ItemDescriptor.itemNonce)) := by
  have staging := stageItems_run platform.random builder.items [] [] draw
  rcases ran : stageItems platform.random builder.items [] [] draw with ⟨result, next⟩
  rw [ran] at staging
  cases staging
  rw [buildBundle]
  cases found : stageAll platform.random draw builder.items with
  | error stop =>
      rw [found] at ran
      rw [Proc.bind_run_error ran]
      rfl
  | ok descriptors =>
      rw [found] at ran
      rw [Proc.bind_run_ok ran]
      rfl

end UltraLocked.Format.BundleBuilder
