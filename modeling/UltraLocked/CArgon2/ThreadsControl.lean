import UltraLocked.CArgon2.ThreadsInvariant

/-!
# Where the main thread can be

For each control of the main thread: which threads are still there, and which
codes it has seen. The steps of the main thread and of the others keep this.
-/

namespace UltraLocked.CArgon2

open Library

section Codes

variable (machine : Machine) (inst : Instance)

/-- `argon2_thread_join` does not fail. -/
def Machine.Joins : Prop :=
  ∀ r s l, r < inst.passes.toNat → s < 4 → l < inst.lanes.toNat → machine.join r s l = 0

/-- No thread of the run fails, neither when it is created nor when it is joined. -/
def Machine.Serves : Prop :=
  ∀ r s l, r < inst.passes.toNat → s < 4 → l < inst.lanes.toNat →
    machine.create r s l = 0 ∧ machine.join r s l = 0

/-- Some thread cannot be created when the first ones of its slice are joined already. -/
def Machine.FailsLate : Prop :=
  ∃ r s l, r < inst.passes.toNat ∧ s < 4 ∧ inst.threads.toNat ≤ l ∧ l < inst.lanes.toNat ∧
    machine.create r s l ≠ 0

/-- The codes of all earlier slices, and of this one so far. -/
structure Machine.Smooth (r s created low : Nat) : Prop where
  earlier : ∀ r' s' l, s' < 4 → 4 * r' + s' < 4 * r + s → l < inst.lanes.toNat →
    machine.create r' s' l = 0 ∧ machine.join r' s' l = 0
  creates : ∀ l < created, machine.create r s l = 0
  joins : ∀ l < low, machine.join r s l = 0

/-- What goes with a control, the threads that are there being `present`. -/
def Control.Fits (r s created low : Nat) (present : Nat → Bool) : Control → Prop
  | .lane r' s' l => (r = r' ∧ s = s' ∧ l = created) ∧ r < inst.passes.toNat ∧
      low = created - inst.threads.toNat ∧
      (∀ l, low ≤ l → l < created → present l = true) ∧ machine.Smooth inst r s created low
  | .create r' s' l => (r = r' ∧ s = s' ∧ l = created) ∧ r < inst.passes.toNat ∧
      created < inst.lanes.toNat ∧ low = created + 1 - inst.threads.toNat ∧
      (∀ l, low ≤ l → l < created → present l = true) ∧ machine.Smooth inst r s created low
  | .drain r' s' l ll => (r = r' ∧ s = s' ∧ l = created) ∧ r < inst.passes.toNat ∧
      created < inst.lanes.toNat ∧ ll ≤ created ∧ low = created + 1 - inst.threads.toNat ∧
      machine.create r s created ≠ 0 ∧
      (∀ l, ll ≤ l → low ≤ l → l < created → present l = true) ∧
      (machine.Joins inst → ∀ l < ll, present l = false)
  | .join r' s' l => (r = r' ∧ s = s' ∧ l = low) ∧ r < inst.passes.toNat ∧
      created = inst.lanes.toNat ∧ low ≤ created ∧
      (∀ l, low ≤ l → l < created → present l = true) ∧ machine.Smooth inst r s created low
  | .returned (.ok _) => r = inst.passes.toNat ∧ s = 0 ∧ created = 0 ∧ machine.Serves inst
  | .returned (.error code) => code = .threadFail ∧ ¬ machine.Serves inst ∧
      (machine.Joins inst → ∀ l, present l = false)
  | .undefined => ¬ machine.Joins inst ∨ machine.FailsLate inst

/-- What holds in every state of a run. -/
def Mt.Invariant (geometry : Geometry) (first : Nat → Nat → Block) (state : Mt) : Prop :=
  ∃ r s created low written, state.Sound inst geometry first r s created low written ∧
    state.control.Fits machine inst r s created low fun l => (state.thread l).present

end Codes

/-- At least one thread is allowed, and no more than there are lanes. -/
structure Instance.Limited (inst : Instance) : Prop where
  positive : 0 < inst.threads.toNat
  few : inst.threads.toNat ≤ inst.lanes.toNat

section Steps

variable {machine : Machine} {inst : Instance} {geometry : Geometry}
  {first : Nat → Nat → Block} {state next : Mt}

theorem Mt.join_cases {code : Int32} {l : Nat} {joined failed : Control}
    (steps : state.join code l joined failed = some next) :
    ((state.thread l).present = false ∧ next = { state with control := .undefined }) ∨
      (code ≠ 0 ∧ next = { state with control := failed }) ∨
      (code = 0 ∧ state.thread l = .exited ∧ next = { state with
        control := joined, thread := Function.update state.thread l .absent }) := by
  rw [Mt.join] at steps
  cases shown : state.thread l with
  | absent =>
      rw [shown] at steps
      exact .inl ⟨rfl, (Option.some.inj steps).symm⟩
  | exited =>
      simp only [shown] at steps
      by_cases fails : code ≠ 0
      · rw [if_pos fails] at steps
        exact .inr (.inl ⟨fails, (Option.some.inj steps).symm⟩)
      · rw [if_neg fails] at steps
        exact .inr (.inr ⟨not_not.mp fails, rfl, (Option.some.inj steps).symm⟩)
  | _ =>
      simp only [shown] at steps
      by_cases fails : code ≠ 0
      · rw [if_pos fails] at steps
        exact .inr (.inl ⟨fails, (Option.some.inj steps).symm⟩)
      · rw [if_neg fails] at steps
        cases steps

theorem Control.fits_sliceBegins {r s : Nat}
    (passes : r < inst.passes.toNat ∨ (r = inst.passes.toNat ∧ s = 0))
    (earlier : ∀ r' s' l, s' < 4 → 4 * r' + s' < 4 * r + s → l < inst.lanes.toNat →
      machine.create r' s' l = 0 ∧ machine.join r' s' l = 0) (present : Nat → Bool) :
    (sliceBegins inst r s).Fits machine inst r s 0 0 present := by
  rw [sliceBegins]
  by_cases more : r < inst.passes.toNat
  · rw [if_pos more]
    exact ⟨⟨rfl, rfl, rfl⟩, more, (Nat.zero_sub _).symm, fun l _ before => absurd before (Nat.not_lt_zero l),
      earlier, fun l before => absurd before (Nat.not_lt_zero l),
      fun l before => absurd before (Nat.not_lt_zero l)⟩
  · rw [if_neg more]
    obtain ⟨all, start⟩ := passes.resolve_left more
    refine ⟨all, start, rfl, fun r' s' l pass four known => earlier r' s' l four ?_ known⟩
    omega

theorem sliceAfter_eq (r s : Nat) (four : s < 4) (more : r < inst.passes.toNat) :
    ∃ r' s', sliceAfter inst r s = sliceBegins inst r' s' ∧ s' < 4 ∧
      4 * r' + s' = 4 * r + s + 1 ∧
      (r' < inst.passes.toNat ∨ (r' = inst.passes.toNat ∧ s' = 0)) := by
  rw [sliceAfter]
  by_cases within : s + 1 < syncPoints.toNat
  · exact ⟨r, s + 1, if_pos within, within, rfl, .inl more⟩
  · have last : s = 3 := by
      have : ¬ s + 1 < 4 := within
      omega
    exact ⟨r + 1, 0, if_neg within, by decide, by omega, by omega⟩

/-! ## The steps of the main thread -/

variable (laid : inst.Laid geometry) (limited : inst.Limited) {r s created low : Nat}
  {written : Nat → Nat} (sound : state.Sound inst geometry first r s created low written)

include laid limited sound

theorem Mt.Sound.laneStep {r' s' l : Nat} (control : state.control = .lane r' s' l)
    (fits : state.control.Fits machine inst r s created low fun l => (state.thread l).present)
    (steps : state.mainStep machine inst = some next) :
    next.Invariant machine inst geometry first := by
  have positive := limited.positive
  have known := sound.known
  have lanes := laid.lanes
  rw [control] at fits
  obtain ⟨⟨rfl, rfl, rfl⟩, more, lowest, waiting, smooth⟩ := fits
  rw [Mt.mainStep, control] at steps
  change (if l < inst.lanes.toNat then
    if inst.threads.toNat ≤ l then _ else _ else _) = some next at steps
  by_cases inside : l < inst.lanes.toNat
  · rw [if_pos inside] at steps
    by_cases full : inst.threads.toNat ≤ l
    · rw [if_pos full, ← lowest] at steps
      have there := waiting low (Nat.le_refl _) (by omega)
      rcases Mt.join_cases steps with ⟨absent, rfl⟩ | ⟨fails, rfl⟩ | ⟨code, exits, rfl⟩
      · cases there.symm.trans absent
      · refine ⟨r, s, l, low, written, sound.withControl _, rfl, fun serves => ?_, fun joins => ?_⟩
        · exact fails (serves r s low more sound.slice_lt (by omega)).2
        · exact absurd (joins r s low more sound.slice_lt (by omega)) fails
      · have left : ∀ other, ((Function.update state.thread low .absent) other).present = true →
            low + 1 ≤ other := by
          intro other shows
          rw [Function.update_apply] at shows
          split at shows
          · cases shows
          · have := (sound.window other shows).1
            omega
        refine ⟨r, s, l, low + 1, written,
          ((sound.joined exits).raised (Nat.le_succ low) left).withControl _, ⟨rfl, rfl, rfl⟩, more, inside,
          by omega, fun other from_ before => ?_, smooth.earlier, smooth.creates,
          fun other before => ?_⟩
        · change ((Function.update state.thread low .absent) other).present = true
          rw [Function.update_of_ne (by omega)]
          exact waiting other (by omega) before
        · rcases Nat.lt_succ_iff_lt_or_eq.mp before with earlier | rfl
          · exact smooth.joins other earlier
          · exact code
    · rw [if_neg full] at steps
      cases steps
      have none_ : low = 0 := by omega
      exact ⟨r, s, l, low, written, sound.withControl _, ⟨rfl, rfl, rfl⟩, more, inside, by omega, waiting, smooth⟩
  · rw [if_neg inside] at steps
    cases steps
    have all : l = inst.lanes.toNat := by omega
    have rest : (inst.lanes - inst.threads).toNat = low := by
      rw [UInt32.toNat_sub_of_le _ _ (UInt32.le_iff_toNat_le.mpr limited.few), lowest, all]
    rw [rest]
    exact ⟨r, s, l, low, written, sound.withControl _, ⟨rfl, rfl, rfl⟩, more, all, by omega, waiting, smooth⟩

theorem Mt.Sound.createStep {r' s' l : Nat} (control : state.control = .create r' s' l)
    (fits : state.control.Fits machine inst r s created low fun l => (state.thread l).present)
    (steps : state.mainStep machine inst = some next) :
    next.Invariant machine inst geometry first := by
  have positive := limited.positive
  have lanes := laid.lanes
  rw [control] at fits
  obtain ⟨⟨rfl, rfl, rfl⟩, more, inside, lowest, waiting, smooth⟩ := fits
  have prepared := sound.prepared (segmentPosition r s l)
  rw [Mt.mainStep, control] at steps
  change (if machine.create r s l ≠ 0 then _ else _) = some next at steps
  by_cases fails : machine.create r s l ≠ 0
  · rw [if_pos fails] at steps
    cases steps
    exact ⟨r, s, l, low, written, prepared.withControl _, ⟨rfl, rfl, rfl⟩, more, inside, Nat.zero_le l,
      lowest, fails,
      fun other _ from_ before => waiting other from_ before,
      fun _ other before => absurd before (Nat.not_lt_zero other)⟩
  · rw [if_neg fails] at steps
    cases steps
    refine ⟨r, s, l + 1, low, written, (prepared.launched (by omega) (by omega) (by omega)
      (Function.update_self ..)).withControl _, ⟨rfl, rfl, rfl⟩, more, lowest, fun other from_ before => ?_,
      smooth.earlier, fun other before => ?_, smooth.joins⟩
    · change ((Function.update state.thread l .created) other).present = true
      rw [Function.update_apply]
      split
      · rfl
      · exact waiting other from_ (by omega)
    · rcases Nat.lt_succ_iff_lt_or_eq.mp before with earlier | rfl
      · exact smooth.creates other earlier
      · exact not_not.mp fails

omit laid limited in
/-- Waiting for the threads that are there when another one cannot be created. -/
theorem Mt.Sound.drainStep {r' s' l ll : Nat} (control : state.control = .drain r' s' l ll)
    (fits : state.control.Fits machine inst r s created low fun l => (state.thread l).present)
    (steps : state.mainStep machine inst = some next) :
    next.Invariant machine inst geometry first := by
  rw [control] at fits
  obtain ⟨⟨rfl, rfl, rfl⟩, more, inside, within, lowest, fails, waiting, gone⟩ := fits
  rw [Mt.mainStep, control] at steps
  change (if ll < l then _ else _) = some next at steps
  by_cases left : ll < l
  · rw [if_pos left] at steps
    rcases Mt.join_cases steps with ⟨absent, rfl⟩ | ⟨failed, rfl⟩ | ⟨-, exits, rfl⟩
    · refine ⟨r, s, l, low, written, sound.withControl _, .inr ⟨r, s, l, more, sound.slice_lt, ?_,
        inside, fails⟩⟩
      by_contra early
      have there := waiting ll (Nat.le_refl ll) (by omega) left
      cases there.symm.trans absent
    · exact ⟨r, s, l, low, written, sound.withControl _, ⟨rfl, rfl, rfl⟩, more, inside, left, lowest,
        fails, fun other from_ => waiting other (Nat.le_of_succ_le from_),
        fun joins => absurd (joins r s ll more sound.slice_lt (by omega)) failed⟩
    · refine ⟨r, s, l, low, written, (sound.joined exits).withControl _, ⟨rfl, rfl, rfl⟩, more, inside,
        left, lowest, fails, fun other from_ window before => ?_, fun joins other before => ?_⟩
      · change ((Function.update state.thread ll .absent) other).present = true
        rw [Function.update_of_ne (by omega)]
        exact waiting other (Nat.le_of_succ_le from_) window before
      · change ((Function.update state.thread ll .absent) other).present = false
        rw [Function.update_apply]
        split
        · rfl
        · exact gone joins other (by omega)
  · rw [if_neg left] at steps
    cases steps
    refine ⟨r, s, l, low, written, sound.withControl _, rfl, fun serves => ?_, fun joins other => ?_⟩
    · exact fails (serves r s l more sound.slice_lt inside).1
    · by_contra shows
      have := (sound.window other (Bool.not_eq_false _ ▸ shows)).2
      exact shows (gone joins other (by omega))

omit limited in
theorem Mt.Sound.joinStep {r' s' l : Nat} (control : state.control = .join r' s' l)
    (fits : state.control.Fits machine inst r s created low fun l => (state.thread l).present)
    (steps : state.mainStep machine inst = some next) :
    next.Invariant machine inst geometry first := by
  have lanes := laid.lanes
  rw [control] at fits
  obtain ⟨⟨rfl, rfl, rfl⟩, more, all, within, waiting, smooth⟩ := fits
  rw [Mt.mainStep, control] at steps
  change (if l < inst.lanes.toNat then _ else _) = some next at steps
  by_cases inside : l < inst.lanes.toNat
  · rw [if_pos inside] at steps
    have there := waiting l (Nat.le_refl _) (by omega)
    rcases Mt.join_cases steps with ⟨absent, rfl⟩ | ⟨fails, rfl⟩ | ⟨code, exits, rfl⟩
    · cases there.symm.trans absent
    · refine ⟨r, s, created, l, written, sound.withControl _, rfl, fun serves => ?_, fun joins => ?_⟩
      · exact fails (serves r s l more sound.slice_lt inside).2
      · exact absurd (joins r s l more sound.slice_lt inside) fails
    · have left : ∀ other, ((Function.update state.thread l .absent) other).present = true →
          l + 1 ≤ other := by
        intro other shows
        rw [Function.update_apply] at shows
        split at shows
        · cases shows
        · have := (sound.window other shows).1
          omega
      refine ⟨r, s, created, l + 1, written,
        ((sound.joined exits).raised (Nat.le_succ l) left).withControl _, ⟨rfl, rfl, rfl⟩, more, all, by omega,
        fun other from_ before => ?_, smooth.earlier, smooth.creates, fun other before => ?_⟩
      · change ((Function.update state.thread l .absent) other).present = true
        rw [Function.update_of_ne (by omega)]
        exact waiting other (by omega) before
      · rcases Nat.lt_succ_iff_lt_or_eq.mp before with earlier | rfl
        · exact smooth.joins other earlier
        · exact code
  · rw [if_neg inside] at steps
    cases steps
    obtain rfl : l = created := by omega
    have none_ (other : Nat) : (state.thread other).present = false := by
      by_contra shows
      have := sound.window other (Bool.not_eq_false _ ▸ shows)
      omega
    obtain ⟨r', s', after, four, number, passes⟩ := sliceAfter_eq r s sound.slice_lt more
    have pass : r' < 2 ^ 32 := by
      have := inst.passes.toNat_lt
      omega
    have lanes' : l = geometry.lanes := all.trans lanes
    subst lanes'
    refine ⟨r', s', 0, 0, _, (sound.nextSlice none_ pass four number).withControl _, ?_⟩
    change (sliceAfter inst r s).Fits machine inst r' s' 0 0 _
    rw [after]
    refine Control.fits_sliceBegins passes (fun p q lane low before known => ?_) _
    rcases Nat.lt_succ_iff_lt_or_eq.mp (number ▸ before) with earlier | same
    · exact smooth.earlier p q lane low earlier known
    · have slice := sound.slice_lt
      obtain rfl : p = r := by omega
      obtain rfl : q = s := by omega
      exact ⟨smooth.creates lane (by omega), smooth.joins lane (by omega)⟩

omit sound

theorem Mt.Invariant.mainStep (holds : state.Invariant machine inst geometry first)
    (steps : state.mainStep machine inst = some next) :
    next.Invariant machine inst geometry first := by
  obtain ⟨r, s, created, low, written, sound, fits⟩ := holds
  cases control : state.control with
  | lane => exact sound.laneStep laid limited control fits steps
  | create => exact sound.createStep laid limited control fits steps
  | drain => exact sound.drainStep control fits steps
  | join => exact sound.joinStep laid control fits steps
  | returned code =>
      rw [Mt.mainStep, control] at steps
      cases steps
  | undefined =>
      rw [Mt.mainStep, control] at steps
      cases steps

omit limited in
theorem Mt.Invariant.laneStep (holds : state.Invariant machine inst geometry first) {l : Nat}
    (steps : state.laneStep inst l = some next) : next.Invariant machine inst geometry first := by
  obtain ⟨r, s, created, low, written, sound, fits⟩ := holds
  have follows {after : Mt} (moves : state.threadStep inst l = some after) :
      after.Invariant machine inst geometry first := by
    obtain ⟨written', sound', same, present⟩ := sound.threadStep laid moves
    refine ⟨r, s, created, low, written', sound', ?_⟩
    rw [same, funext present]
    exact fits
  cases control : state.control with
  | returned code =>
      rw [Mt.laneStep, control] at steps
      obtain ⟨after, moves, rfl⟩ := Option.map_eq_some_iff.mp steps
      obtain ⟨written', sound', -, -⟩ := sound.threadStep laid moves
      have there := Mt.present_of_threadStep moves
      refine ⟨r, s, created, low, written', sound'.withControl _, .inl fun joins => ?_⟩
      rw [control] at fits
      cases code with
      | ok =>
          obtain ⟨-, -, rfl, -⟩ := fits
          exact absurd (sound.window l there).2 (Nat.not_lt_zero l)
      | error code =>
          cases there.symm.trans (fits.2.2 joins l)
  | undefined =>
      rw [Mt.laneStep, control] at steps
      cases steps
  | _ =>
      rw [Mt.laneStep, control] at steps
      exact follows steps

/-- The invariant holds in every state that some order of steps leads to. -/
theorem Mt.Reachable.invariant {memory : Memory}
    (filled : (inst.filling geometry first).Filled 0 memory)
    (reachable : state.Reachable machine inst memory) :
    state.Invariant machine inst geometry first := by
  induction reachable with
  | refl =>
      refine ⟨0, 0, 0, 0, fun _ => (inst.filling geometry first).opening 0, ?_,
        Control.fits_sliceBegins ?_ (fun _ _ _ _ before => absurd before (Nat.not_lt_zero _)) _⟩
      · exact ⟨by decide, by decide, filled, Nat.zero_le _, fun _ shows => (nomatch shows),
          Nat.zero_le _, fun _ shows => (nomatch shows),
          fun l before => absurd before (Nat.not_lt_zero l), fun _ _ _ => rfl⟩
      · omega
  | tail _ moves holds =>
      obtain ⟨actor, steps⟩ := moves
      cases actor with
      | main => exact holds.mainStep laid limited steps
      | lane l => exact holds.laneStep laid steps

end Steps

end UltraLocked.CArgon2
