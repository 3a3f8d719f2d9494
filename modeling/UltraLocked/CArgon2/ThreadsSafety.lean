import Mathlib.Data.Finset.Card
import Mathlib.Order.Interval.Finset.Nat
import UltraLocked.CArgon2.Tag
import UltraLocked.CArgon2.ThreadsControl

/-!
# Safety of a threaded run

For any number of lanes and threads, and in every order of steps: no two
threads race, no more threads are there than are allowed, and what happens is
defined unless joins fail or a thread fails to be created late. A run that
returns has the code of the sequence of its calls, and if that is success, the
memory of one thread.
-/

namespace UltraLocked.CArgon2

open Library

section Safety

variable {machine : Machine} {inst : Instance} {geometry : Geometry}
  {first : Nat → Nat → Block} (laid : inst.Laid geometry)

/-! ## No data races -/

theorem Stage.touches_block {position : Position} {stage : Stage} {l : Nat} {writes : Bool} :
    stage.touches inst position ≠ some (.data l, writes) := by
  intro touch
  cases stage <;> simp only [Stage.touches] at touch <;> try split at touch
  all_goals cases touch

include laid in
/-- What a thread touches: cells of its own lane, and the block that it refers to. -/
theorem Stage.touches_cases {place : Place geometry} {stage : Stage}
    (sound : stage.Sound inst first place) {location : Location} {writes : Bool}
    (touch : stage.touches inst place.position = some (location, writes)) :
    place.i < geometry.segment ∧
      ((∃ t, location = .block (Rings.cell geometry.columns place.l t) ∧
        (writes = true → t = place.block)) ∨
      (location = .block ((inst.filling geometry first).access place.l place.block).ref ∧
        writes = false)) := by
  cases stage with
  | head cursor =>
      have here : cursor.At inst place := sound
      rw [Stage.touches] at touch
      split at touch
      · rename_i continues
        have inside : place.i < geometry.segment := by
          have more := UInt32.lt_iff_toNat_lt.mp continues.1
          rwa [here.i, laid.segmentLength] at more
        have prev := (here.prepare laid inside).prev
        cases touch
        exact ⟨inside, .inl ⟨place.block - 1, congrArg Location.block prev, fun never => nomatch never⟩⟩
      · cases touch
  | readRef cursor access =>
      obtain ⟨inside, -, rfl⟩ := sound
      cases touch
      exact ⟨inside, .inr ⟨rfl, rfl⟩⟩
  | readPrev cursor access refBlock =>
      obtain ⟨inside, -, rfl, -⟩ := sound
      cases touch
      exact ⟨inside, .inl ⟨place.block - 1, rfl, fun never => nomatch never⟩⟩
  | readNext cursor access refBlock prevBlock =>
      obtain ⟨inside, -, rfl, -⟩ := sound
      rw [Stage.touches] at touch
      split at touch
      · cases touch
        exact ⟨inside, .inl ⟨place.block, rfl, fun never => nomatch never⟩⟩
      · cases touch
  | write cursor access block =>
      obtain ⟨inside, -, rfl, -⟩ := sound
      cases touch
      exact ⟨inside, .inl ⟨place.block, rfl, fun _ => rfl⟩⟩

/-- The block of another lane that a thread refers to is not one that is being written. -/
theorem InSlice.ref_ne {filling : Filling} {start : Nat} {written : Nat → Nat} {memory : Memory}
    (slice : InSlice filling start written memory) {lane other : Nat}
    (known : lane < filling.geometry.lanes) (isOther : other < filling.geometry.lanes)
    (differ : other ≠ lane) (third : 2 ≤ written lane)
    (here : filling.geometry.segmentStart (written lane) = start)
    (open_ : written other < start + filling.geometry.segment) :
    (filling.access lane (written lane)).ref ≠
      Rings.cell filling.geometry.columns other (written other) := by
  intro same
  obtain ⟨lanes, columns⟩ := (Rings.cell_inj filling.geometry.columns_pos).mp same
  obtain ⟨-, recent, finished⟩ :=
    slice.ref_window known third here (filling.rand lane (written lane))
  have past := finished (lanes.symm ▸ differ)
  have started := slice.started other isOther
  exact Rings.mod_ne_of_near (Nat.lt_of_lt_of_le past started) (by omega) columns

include laid in
theorem Mt.Sound.threads_apart {r s created low : Nat} {written : Nat → Nat} {state : Mt}
    (sound : state.Sound inst geometry first r s created low written) {l l' : Nat}
    (differ : l ≠ l') {location : Location} {writes : Bool}
    (left : state.touches inst (.lane l) = some (location, true))
    (right : state.touches inst (.lane l') = some (location, writes)) : False := by
  have there {lane : Nat} {touch : Location × Bool}
      (touches : state.touches inst (.lane lane) = some touch) :
      (state.thread lane).present = true := by
    cases shown : state.thread lane with
    | absent =>
        rw [Mt.touches] at touches
        simp only [shown] at touches
        cases touches
    | _ => rfl
  have thread := sound.threads l (there left)
  have thread' := sound.threads l' (there right)
  have known := Nat.lt_of_lt_of_le (sound.window l (there left)).2 sound.known
  have known' := Nat.lt_of_lt_of_le (sound.window l' (there right)).2 sound.known
  simp only [Mt.touches] at left right
  generalize state.thread l = now at left thread
  generalize state.thread l' = now' at right thread'
  cases thread with
  | created => cases left
  | exited => cases left
  | @running place stage pass slice lane within third own stands =>
      subst pass slice lane
      obtain ⟨inside, ⟨t, rfl, writing⟩ | ⟨-, never⟩⟩ := Stage.touches_cases laid stands left
      · obtain rfl := writing rfl
        cases thread' with
        | created => cases right
        | exited => cases right
        | @running place' stage' pass slice lane' within' third' own' stands' =>
            subst lane'
            obtain ⟨inside', ⟨t, same, -⟩ | ⟨same, -⟩⟩ :=
              Stage.touches_cases laid stands' right
            · injection same with same
              exact differ ((Rings.cell_inj geometry.columns_pos).mp same).1
            · injection same with same
              have start : geometry.segmentStart (written place'.l) =
                  (4 * place.r + place.s) * geometry.segment := by
                rw [own', segmentStart_block inside', Place.segment, pass, slice]
              refine sound.memory.ref_ne known' known differ (by omega) start ?_ ?_
              · rw [own, Place.block]
                exact Nat.add_lt_add_left inside _
              · rw [own', own]
                exact same.symm
      · cases never

include laid in
/-- No state of the invariant has a race, among the blocks or the data of the threads. -/
theorem Mt.Invariant.no_race {state : Mt} (holds : state.Invariant machine inst geometry first) :
    ¬ state.Race inst := by
  obtain ⟨r, s, created, low, written, sound, fits⟩ := holds
  -- the main thread writes the data of a thread that is not there yet
  have main {l : Nat} {location : Location} {touch touch' : Bool}
      (left : state.touches inst .main = some (location, touch))
      (right : state.touches inst (.lane l) = some (location, touch')) : False := by
    simp only [Mt.touches] at left right
    cases control : state.control with
    | create r' s' l' =>
        simp only [control] at left
        cases left
        obtain ⟨⟨-, -, behind⟩, -⟩ := control ▸ fits
        cases shown : state.thread l with
        | created =>
            simp only [shown] at right
            cases right
            have before := (sound.window l (by rw [shown]; rfl)).2
            omega
        | running position stage =>
            simp only [shown] at right
            exact Stage.touches_block right
        | _ =>
            simp only [shown] at right
            cases right
    | _ =>
        simp only [control] at left
        cases left
  rintro ⟨a, b, location, writes, differ, left, right⟩
  cases a with
  | main =>
      cases b with
      | main => exact differ rfl
      | lane l => exact main left right
  | lane l =>
      cases b with
      | main => exact main right left
      | lane l' => exact sound.threads_apart laid (fun same => differ (congrArg Actor.lane same)) left right

/-! ## The code -/

theorem fillSlice_eq_ok_iff (limited : inst.Limited) (r s : Nat) :
    fillSlice machine inst r s = .ok () ↔
      ∀ l < inst.lanes.toNat, machine.create r s l = 0 ∧ machine.join r s l = 0 := by
  have positive := limited.positive
  have few := limited.few
  have rest : (inst.lanes - inst.threads).toNat = inst.lanes.toNat - inst.threads.toNat :=
    UInt32.toNat_sub_of_le _ _ (UInt32.le_iff_toNat_le.mpr few)
  have behind (l : Nat) : l ∈ (List.range inst.lanes.toNat).drop (inst.lanes - inst.threads).toNat ↔
      inst.lanes.toNat - inst.threads.toNat ≤ l ∧ l < inst.lanes.toNat := by
    rw [rest, List.range_eq_range', List.drop_range', List.mem_range'_1]
    omega
  simp only [fillSlice, startSegment, checks_eq_ok_iff, forM_eq_ok_iff, List.mem_range, behind,
    refuseIf_eq_ok_iff, not_and, ne_eq, not_not]
  constructor
  · rintro ⟨starts, joins⟩ l known
    refine ⟨(starts l known).2, ?_⟩
    by_cases last : inst.lanes.toNat - inst.threads.toNat ≤ l
    · exact joins l ⟨last, known⟩
    · -- the limit is reached `threads` turns later
      have later := (starts (l + inst.threads.toNat) (by omega)).1 (Nat.le_add_left ..)
      rwa [Nat.add_sub_cancel] at later
  · intro codes
    exact ⟨fun l known => ⟨fun _ => (codes _ (by omega)).2, (codes l known).1⟩,
      fun l last => (codes l last.2).2⟩

/-- The code of `fill_memory_blocks_mt`, its arrays being allocated. -/
theorem fillMemoryBlocksMt_eq_ok_iff (limited : inst.Limited)
    (handles : machine.calloc inst.lanes.toUInt64 8 ≠ none)
    (data : machine.calloc inst.lanes.toUInt64 24 ≠ none) :
    fillMemoryBlocksMt machine inst = .ok () ↔ machine.Serves inst := by
  have four : syncPoints.toNat = 4 := rfl
  simp only [fillMemoryBlocksMt, checks_of_ok (refuseIf_neg handles),
    checks_of_ok (refuseIf_neg data), forM_eq_ok_iff, List.mem_range, four,
    fillSlice_eq_ok_iff limited]
  exact ⟨fun codes r s l pass slice lane => codes r pass s slice l lane,
    fun serves r pass s slice l lane => serves r s l pass slice lane⟩

theorem fillMemoryBlocksMt_refusesWith
    (handles : machine.calloc inst.lanes.toUInt64 8 ≠ none)
    (data : machine.calloc inst.lanes.toUInt64 24 ≠ none) :
    RefusesWith .threadFail (fillMemoryBlocksMt machine inst) := by
  rw [fillMemoryBlocksMt, checks_of_ok (refuseIf_neg handles), checks_of_ok (refuseIf_neg data)]
  refine .loop fun r => .loop fun s => .seq (.loop fun l => ?_) (.loop fun l => ?_)
  · exact .seq (refusesWith_refuseIf _ _) (refusesWith_refuseIf _ _)
  · exact refusesWith_refuseIf _ _

/-! ## What a run returns -/

/-- A run returns the code that its calls lead to, one after the other. -/
theorem Mt.Invariant.code_eq {state : Mt} (holds : state.Invariant machine inst geometry first)
    (limited : inst.Limited) (handles : machine.calloc inst.lanes.toUInt64 8 ≠ none)
    (data : machine.calloc inst.lanes.toUInt64 24 ≠ none) {code : Except ErrorCode Unit}
    (returned : state.control = .returned code) : code = fillMemoryBlocksMt machine inst := by
  obtain ⟨r, s, created, low, written, sound, fits⟩ := holds
  have passes := fillMemoryBlocksMt_eq_ok_iff limited handles data
  rw [returned] at fits
  cases code with
  | ok => exact (passes.mpr fits.2.2.2).symm
  | error e =>
      obtain ⟨rfl, fails, -⟩ := fits
      cases result : fillMemoryBlocksMt machine inst with
      | ok => exact absurd (passes.mp result) fails
      | error e => rw [fillMemoryBlocksMt_refusesWith handles data e result]

theorem Mt.Invariant.filled {state : Mt} (holds : state.Invariant machine inst geometry first)
    (returned : state.control = .returned (.ok ())) :
    (inst.filling geometry first).Filled (4 * inst.passes.toNat) state.memory := by
  obtain ⟨r, s, created, low, written, sound, fits⟩ := holds
  rw [returned] at fits
  obtain ⟨rfl, rfl, rfl, -⟩ := fits
  have blocks (lane : Nat) (known : lane < geometry.lanes) :
      written lane = (inst.filling geometry first).opening (4 * inst.passes.toNat) :=
    sound.later lane (Nat.zero_le _) known
  refine ⟨sound.memory.size, fun lane known => ?_, fun lane known => ?_, fun lane known => ?_⟩
  · rw [← blocks lane known]
    exact sound.memory.keeps lane known
  · rw [← blocks lane known]
    exact sound.memory.started lane known
  · rw [← blocks lane known]
    exact sound.memory.bounded lane known

theorem Filling.Filled.unique {filling : Filling} {passes : Nat} (some_ : 0 < passes)
    {memory memory' : Memory} (filled : filling.Filled (4 * passes) memory)
    (filled' : filling.Filled (4 * passes) memory') : memory = memory' := by
  refine filled.keeps.unique filled'.keeps filled.size filled'.size fun _ _ => ?_
  rw [filling.opening_passes some_]
  exact Nat.le_mul_of_pos_left _ some_

/-- No thread is left behind when a run returns and no join failed. -/
theorem Mt.Invariant.none_left {state : Mt} (holds : state.Invariant machine inst geometry first)
    (joins : machine.Joins inst) {code : Except ErrorCode Unit}
    (returned : state.control = .returned code) (l : Nat) :
    (state.thread l).present = false := by
  obtain ⟨r, s, created, low, written, sound, fits⟩ := holds
  rw [returned] at fits
  cases code with
  | ok =>
      obtain ⟨-, -, rfl, -⟩ := fits
      exact sound.absent (Nat.zero_le l)
  | error e => exact fits.2.2 joins l

/-- What happens is defined, but for joins that fail and threads that fail late. -/
theorem Mt.Invariant.defined {state : Mt} (holds : state.Invariant machine inst geometry first)
    (undefined : state.control = .undefined) : ¬ machine.Joins inst ∨ machine.FailsLate inst := by
  obtain ⟨r, s, created, low, written, sound, fits⟩ := holds
  rw [undefined] at fits
  exact fits

theorem Mt.Invariant.card_le {state : Mt} (holds : state.Invariant machine inst geometry first)
    (lanes : Nat) :
    ((Finset.range lanes).filter fun l => (state.thread l).present = true).card ≤
      inst.threads.toNat := by
  obtain ⟨r, s, created, low, written, sound, -⟩ := holds
  have inside : (Finset.range lanes).filter (fun l => (state.thread l).present = true) ⊆
      Finset.Ico low created := by
    intro l member
    exact Finset.mem_Ico.mpr (sound.window l (Finset.mem_filter.mp member).2)
  have few := Finset.card_le_card inside
  rw [Nat.card_Ico] at few
  have limit := sound.limit
  omega

end Safety

end UltraLocked.CArgon2
