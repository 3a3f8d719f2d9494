import UltraLocked.CArgon2.FillRun
import UltraLocked.CArgon2.Threads

/-!
# What holds in every state of a threaded run

All threads are in one slice. Each holds blocks of the lanes as the
specification has them, so that what the others write in between does not
matter to it; and the main thread joins each thread once.
-/

namespace UltraLocked.CArgon2

open Library

/-! ## One thread -/

section Place

variable (inst : Instance) {geometry : Geometry} (first : Nat → Nat → Block)
  (place : Place geometry)

/-- A stage at a place, with the blocks that it holds. -/
def Stage.Sound : Stage → Prop
  | .head cursor => cursor.At inst place
  | .readRef cursor access =>
      place.i < geometry.segment ∧ cursor.At inst place ∧
        access = (inst.filling geometry first).access place.l place.block
  | .readPrev cursor access refBlock =>
      place.i < geometry.segment ∧ cursor.At inst place ∧
        access = (inst.filling geometry first).access place.l place.block ∧
        refBlock = (inst.filling geometry first).refHistory place.l place.block
  | .readNext cursor access refBlock prevBlock =>
      place.i < geometry.segment ∧ cursor.At inst place ∧
        access = (inst.filling geometry first).access place.l place.block ∧
        refBlock = (inst.filling geometry first).refHistory place.l place.block ∧
        prevBlock = (inst.filling geometry first).history place.l (place.block - 1)
  | .write cursor access block =>
      place.i < geometry.segment ∧ cursor.At inst place ∧
        access = (inst.filling geometry first).access place.l place.block ∧
        block = (inst.filling geometry first).history place.l place.block

end Place

section Step

variable {inst : Instance} {geometry : Geometry} {first : Nat → Nat → Block}
  (laid : inst.Laid geometry) {place : Place geometry}

include laid

/--
A step ends the segment, goes on to the next stage of the turn, or writes the
next block of its lane. None of them is outside the memory.
-/
theorem Stage.step_cases (within : place.i ≤ geometry.segment) (third : 2 ≤ place.block)
    {written : Nat → Nat} {memory : Memory}
    (slice : InSlice (inst.filling geometry first) (place.segment * geometry.segment) written
      memory) (own : written place.l = place.block) {stage : Stage}
    (sound : stage.Sound inst first place) :
    (place.i = geometry.segment ∧
        stage.step inst place.position memory = some (none, memory)) ∨
      (∃ next : Stage, next.Sound inst first place ∧
        stage.step inst place.position memory = some (some next, memory)) ∨
      ∃ next : Stage, place.i < geometry.segment ∧ next.Sound inst first place.next ∧
        stage.step inst place.position memory = some (some next, memory.setIfInBounds
          (Rings.cell geometry.columns place.l place.block)
          ((inst.filling geometry first).history place.l place.block)) := by
  cases stage with
  | head cursor =>
      have here : cursor.At inst place := sound
      have more : cursor.i < inst.segmentLength ↔ place.i < geometry.segment := by
        rw [UInt32.lt_iff_toNat_lt, here.i, laid.segmentLength]
      by_cases inside : place.i < geometry.segment
      · have prev := slice.read_prev place.lane_lt (by omega)
        rw [own] at prev
        have ready := here.prepare laid inside
        have rand := pseudoRand_eq inside ready prev
        refine .inr (.inl ⟨.readRef cursor _, ⟨inside, here,
          accessOf_eq first laid inside third ready⟩, ?_⟩)
        rw [Stage.step, if_pos (more.mpr inside), rand]
        rfl
      · refine .inl ⟨by omega, ?_⟩
        rw [Stage.step, if_neg (mt more.mp inside)]
        rfl
  | readRef cursor access =>
      obtain ⟨inside, here, rfl⟩ := sound
      have ref := slice.read_ref place.lane_lt (by omega) (own.symm ▸ segmentStart_block inside)
      rw [own] at ref
      refine .inr (.inl ⟨.readPrev cursor _ _, ⟨inside, here, rfl, rfl⟩, ?_⟩)
      rw [Stage.step, ref]
      rfl
  | readPrev cursor access refBlock =>
      obtain ⟨inside, here, rfl, held⟩ := sound
      have prev := slice.read_prev place.lane_lt (by omega)
      rw [own] at prev
      refine .inr (.inl ⟨.readNext cursor _ refBlock _, ⟨inside, here, rfl, held, rfl⟩, ?_⟩)
      rw [Stage.step, prev]
      rfl
  | readNext cursor access refBlock prevBlock =>
      obtain ⟨inside, here, rfl, rfl, rfl⟩ := sound
      have mixes := mixesOld_eq inst first inside
      by_cases mixed : mixesOld inst place.position = true
      · obtain ⟨old, next, replaced⟩ := slice.read_curr place.lane_lt
        rw [own] at next replaced
        have block := fillBlock_eq first old inside third fun mixed => replaced (mixes.mp mixed).2
        rw [mixed] at block
        refine .inr (.inl ⟨.write cursor _ _, ⟨inside, here, rfl, block⟩, ?_⟩)
        rw [Stage.step, if_pos mixed, next]
        rfl
      · have block := fillBlock_eq first zeroBlock inside third fun mixed' => absurd mixed' mixed
        rw [Bool.eq_false_iff.mpr mixed] at block
        refine .inr (.inl ⟨.write cursor _ _, ⟨inside, here, rfl, block⟩, ?_⟩)
        rw [Stage.step, if_neg mixed]
        rfl
  | write cursor access block =>
      obtain ⟨inside, here, rfl, rfl⟩ := sound
      have cell : Rings.cell geometry.columns place.l place.block < memory.size :=
        slice.size ▸ Rings.cell_lt geometry.columns_pos place.lane_lt _
      refine .inr (.inr ⟨.head (cursor.next inst place.position), inside,
        here.next laid inside, ?_⟩)
      change (if Rings.cell geometry.columns place.l place.block < memory.size then _ else _) >>= _
        = _
      rw [if_pos cell]
      rfl

end Step

/-! ## All threads -/

section Threads

variable (inst : Instance) (geometry : Geometry) (first : Nat → Nat → Block)

/-- The thread of lane `l` in slice `s` of pass `r`, when its lane has so many blocks. -/
inductive Thread.Sound (r s l : Nat) (data : Position) (written : Nat) : Thread → Prop where
  | created (own : data = segmentPosition r s l)
      (opens : written = (inst.filling geometry first).opening (4 * r + s)) :
      Thread.Sound r s l data written .created
  | running {place : Place geometry} {stage : Stage} (pass : place.r = r) (slice : place.s = s)
      (lane : place.l = l) (within : place.i ≤ geometry.segment) (third : 2 ≤ place.block)
      (own : written = place.block) (sound : stage.Sound inst first place) :
      Thread.Sound r s l data written (.running place.position stage)
  | exited (done : written = (4 * r + s + 1) * geometry.segment) :
      Thread.Sound r s l data written .exited

/--
A state in slice `s` of pass `r`: the threads of the lanes before `created` have
been created, and those that are still there are from `low` on.
-/
structure Mt.Sound (r s created low : Nat) (written : Nat → Nat) (state : Mt) : Prop where
  pass_lt : r < 2 ^ 32
  slice_lt : s < 4
  memory : InSlice (inst.filling geometry first) ((4 * r + s) * geometry.segment) written
    state.memory
  known : created ≤ geometry.lanes
  window : ∀ l, (state.thread l).present = true → low ≤ l ∧ l < created
  limit : created ≤ low + inst.threads.toNat
  threads : ∀ l, (state.thread l).present = true →
    (state.thread l).Sound inst geometry first r s l (state.data l) (written l)
  gone : ∀ l < created, (state.thread l).present = false →
    written l = (4 * r + s + 1) * geometry.segment
  later : ∀ l, created ≤ l → l < geometry.lanes →
    written l = (inst.filling geometry first).opening (4 * r + s)

end Threads

section Moves

variable {inst : Instance} {geometry : Geometry} {first : Nat → Nat → Block}
  (laid : inst.Laid geometry) {r s created low : Nat} {written : Nat → Nat} {state : Mt}

theorem Mt.Sound.withControl (sound : state.Sound inst geometry first r s created low written)
    (control : Control) :
    Mt.Sound inst geometry first r s created low written { state with control := control } :=
  ⟨sound.pass_lt, sound.slice_lt, sound.memory, sound.known, sound.window, sound.limit,
    sound.threads, sound.gone, sound.later⟩

/-- A present thread moves on and stays present; only its own lane may grow. -/
theorem Mt.Sound.moved (sound : state.Sound inst geometry first r s created low written) {l : Nat}
    (there : (state.thread l).present = true) {thread : Thread} (stays : thread.present = true)
    {now : Nat} (moves : thread.Sound inst geometry first r s l (state.data l) now)
    {memory : Memory} (kept : InSlice (inst.filling geometry first)
      ((4 * r + s) * geometry.segment) (Function.update written l now) memory) :
    Mt.Sound inst geometry first r s created low (Function.update written l now)
      { state with memory := memory, thread := Function.update state.thread l thread } := by
  have present (other : Nat) : (Function.update state.thread l thread other).present =
      (state.thread other).present := by
    rw [Function.update_apply]
    split
    · rename_i same
      rw [same, there, stays]
    · rfl
  refine ⟨sound.pass_lt, sound.slice_lt, kept, sound.known, fun other shows => ?_, sound.limit,
    fun other shows => ?_, fun other before absent => ?_, fun other behind known => ?_⟩
  · exact sound.window other ((present other).symm.trans shows)
  · have shown := (present other).symm.trans shows
    by_cases same : other = l
    · subst same
      change (Function.update state.thread other thread other).Sound _ _ _ _ _ _ _
        (Function.update written other now other)
      rw [Function.update_self, Function.update_self]
      exact moves
    · change (Function.update state.thread l thread other).Sound _ _ _ _ _ _ _
        (Function.update written l now other)
      rw [Function.update_of_ne same, Function.update_of_ne same]
      exact sound.threads other shown
  · have hidden := (present other).symm.trans absent
    have differ : other ≠ l := fun same => by rw [same, there] at hidden; cases hidden
    rw [Function.update_of_ne differ]
    exact sound.gone other before hidden
  · have differ : other ≠ l := fun same => by
      have := (sound.window l there).2
      omega
    rw [Function.update_of_ne differ]
    exact sound.later other behind known

/-- Joining a thread that has filled its segment leaves its lane at the end of the slice. -/
theorem Mt.Sound.joined (sound : state.Sound inst geometry first r s created low written) {l : Nat}
    (exits : state.thread l = .exited) :
    Mt.Sound inst geometry first r s created low written
      { state with thread := Function.update state.thread l .absent } := by
  have still {other : Nat}
      (shows : (Function.update state.thread l .absent other).present = true) :
      other ≠ l ∧ (state.thread other).present = true := by
    rw [Function.update_apply] at shows
    split at shows
    · cases shows
    · exact ⟨‹_›, shows⟩
  refine ⟨sound.pass_lt, sound.slice_lt, sound.memory, sound.known, fun other shows => ?_,
    sound.limit, fun other shows => ?_, fun other before absent => ?_, sound.later⟩
  · exact sound.window other (still shows).2
  · obtain ⟨differ, shown⟩ := still shows
    change (Function.update state.thread l .absent other).Sound _ _ _ _ _ _ _ _
    rw [Function.update_of_ne differ]
    exact sound.threads other shown
  · by_cases same : other = l
    · subst same
      have thread := sound.threads other (by rw [exits]; rfl)
      rw [exits] at thread
      cases thread with
      | exited done => exact done
    · change (Function.update state.thread l .absent other).present = false at absent
      rw [Function.update_of_ne same] at absent
      exact sound.gone other before absent

theorem Mt.Sound.raised (sound : state.Sound inst geometry first r s created low written)
    {low' : Nat} (more : low ≤ low')
    (left : ∀ l, (state.thread l).present = true → low' ≤ l) :
    state.Sound inst geometry first r s created low' written :=
  ⟨sound.pass_lt, sound.slice_lt, sound.memory, sound.known,
    fun l shows => ⟨left l shows, (sound.window l shows).2⟩,
    Nat.le_trans sound.limit (Nat.add_le_add_right more _), sound.threads, sound.gone,
    sound.later⟩

theorem Mt.Sound.absent (sound : state.Sound inst geometry first r s created low written) {l : Nat}
    (behind : created ≤ l) : (state.thread l).present = false := by
  by_contra shows
  have := (sound.window l (Bool.not_eq_false _ ▸ shows)).2
  omega

theorem Mt.Sound.prepared (sound : state.Sound inst geometry first r s created low written)
    (position : Position) :
    Mt.Sound inst geometry first r s created low written
      { state with data := Function.update state.data created position } := by
  refine ⟨sound.pass_lt, sound.slice_lt, sound.memory, sound.known, sound.window, sound.limit,
    fun l shows => ?_, sound.gone, sound.later⟩
  have differ : l ≠ created := fun same => by
    have := (sound.window l shows).2
    omega
  change (state.thread l).Sound _ _ _ _ _ _ (Function.update state.data created position l) _
  rw [Function.update_of_ne differ]
  exact sound.threads l shows

theorem Mt.Sound.launched (sound : state.Sound inst geometry first r s created low written)
    (known : created < geometry.lanes) (room : created < low + inst.threads.toNat)
    (begun : low ≤ created) (data : state.data created = segmentPosition r s created) :
    Mt.Sound inst geometry first r s (created + 1) low written
      { state with thread := Function.update state.thread created .created } := by
  refine ⟨sound.pass_lt, sound.slice_lt, sound.memory, known, fun l shows => ?_, room,
    fun l shows => ?_, fun l before absent => ?_, fun l behind lane => ?_⟩
  all_goals by_cases same : l = created
  · subst same
    exact ⟨begun, Nat.lt_succ_self _⟩
  · change (Function.update state.thread created .created l).present = true at shows
    rw [Function.update_of_ne same] at shows
    have window := sound.window l shows
    exact ⟨window.1, Nat.lt_succ_of_lt window.2⟩
  · subst same
    change (Function.update state.thread l .created l).Sound _ _ _ _ _ _ _ _
    rw [Function.update_self]
    exact .created data (sound.later l (Nat.le_refl l) known)
  · change (Function.update state.thread created .created l).present = true at shows
    change (Function.update state.thread created .created l).Sound _ _ _ _ _ _ _ _
    rw [Function.update_of_ne same] at shows ⊢
    exact sound.threads l shows
  · subst same
    change (Function.update state.thread l .created l).present = false at absent
    rw [Function.update_self] at absent
    cases absent
  · change (Function.update state.thread created .created l).present = false at absent
    rw [Function.update_of_ne same] at absent
    exact sound.gone l (by omega) absent
  · omega
  · exact sound.later l (by omega) lane

theorem Mt.Sound.nextSlice {written : Nat → Nat}
    (sound : state.Sound inst geometry first r s geometry.lanes low written)
    (none_ : ∀ l, (state.thread l).present = false) {r' s' : Nat} (pass : r' < 2 ^ 32)
    (four : s' < 4) (next : 4 * r' + s' = 4 * r + s + 1) :
    state.Sound inst geometry first r' s' 0 0
      fun _ => (inst.filling geometry first).opening (4 * r' + s') := by
  have filled := (inst.filling geometry first).filled_succ sound.memory
    fun l known => sound.gone l known (none_ l)
  refine ⟨pass, four, ?_, Nat.zero_le _, fun l shows => ?_, Nat.zero_le _, fun l shows => ?_,
    fun l before => ?_, fun _ _ _ => rfl⟩
  · rw [next]
    exact filled
  · rw [none_ l] at shows
    cases shows
  · rw [none_ l] at shows
    cases shows
  · exact absurd before (Nat.not_lt_zero l)

theorem Mt.present_of_threadStep {l : Nat} {next : Mt}
    (steps : state.threadStep inst l = some next) : (state.thread l).present = true := by
  cases shown : state.thread l with
  | absent =>
      rw [Mt.threadStep, shown] at steps
      cases steps
  | _ => rfl

include laid

/-- A step of a thread keeps the state sound, and who is present. -/
theorem Mt.Sound.threadStep (sound : state.Sound inst geometry first r s created low written)
    {l : Nat} {next : Mt} (steps : state.threadStep inst l = some next) :
    ∃ written', next.Sound inst geometry first r s created low written' ∧
      next.control = state.control ∧
      ∀ other, (next.thread other).present = (state.thread other).present := by
  have there := Mt.present_of_threadStep steps
  have thread := sound.threads l there
  have known := Nat.lt_of_lt_of_le (sound.window l there).2 sound.known
  have present {thread : Thread} (stays : thread.present = true) (other : Nat) :
      (Function.update state.thread l thread other).present = (state.thread other).present := by
    rw [Function.update_apply]
    split
    · rename_i same
      rw [same, there, stays]
    · rfl
  have same : InSlice (inst.filling geometry first) ((4 * r + s) * geometry.segment)
      (Function.update written l (written l)) state.memory := by
    rw [Function.update_eq_self]
    exact sound.memory
  rw [Mt.threadStep] at steps
  generalize state.thread l = now at thread steps
  cases thread with
  | created own opens =>
      cases steps
      have few := Place.opens_within sound.pass_lt sound.slice_lt known
      have block := Place.opens_block sound.pass_lt sound.slice_lt known inst first
      have start := Cursor.start_at laid few (Place.startingIndex_toNat _)
      refine ⟨_, sound.moved there rfl ?_ same, rfl, present rfl⟩
      rw [own]
      exact .running rfl rfl rfl few (block ▸ Nat.le_max_left ..) (opens.trans block.symm) start
  | @running place stage pass slice lane within third own stands =>
      subst pass slice lane
      rcases Stage.step_cases laid within third sound.memory own stands with
        ⟨last, step⟩ | ⟨stage', stands', step⟩ | ⟨stage', inside, stands', step⟩
      · simp only [step] at steps
        cases steps
        refine ⟨_, sound.moved there rfl (.exited ?_) same, rfl, present rfl⟩
        rw [own, Place.block, last]
        exact (Nat.succ_mul _ _).symm
      · simp only [step] at steps
        cases steps
        exact ⟨_, sound.moved there rfl (.running rfl rfl rfl within third own stands') same, rfl,
          present rfl⟩
      · simp only [step] at steps
        cases steps
        have grown := sound.memory.write place.lane_lt
          (by rw [own, Place.block]; exact Nat.add_lt_add_left inside _)
        rw [own] at grown
        have moves : Thread.Sound inst geometry first place.r place.s place.l (state.data place.l)
            place.next.block (.running place.next.position stage') :=
          .running rfl rfl rfl inside (Nat.le_succ_of_le third) rfl stands'
        exact ⟨_, sound.moved there rfl moves grown, rfl, present rfl⟩
  | exited done => cases steps

end Moves

end UltraLocked.CArgon2
