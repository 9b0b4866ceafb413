import CfsEds.Time.SystemRun

/-!
# Rollover of the local clock

The local clock counts from zero to a configured value and starts again.
`CFE_TIME_GetReference` takes it to have rolled over when the clock is less than the latch
of the tone, in the sense of `CFE_TIME_Compare`. That comparison is made on the circle of
all 64-bit times and not on the shorter one of the clock. The time since the tone is
therefore right exactly when the clock and the latch are at most half the large circle
apart (`timeSince_eq_iff`), even if only a second has passed.

In flywheel mode the MET and the latch at the tone are replaced by the current ones now and
then, so that the clock does not run around the latch (`FlywheelRun`, of which every cycle is
the state machine run in a quiet state, `run_local1HzStateMachine`). The current MET has the
tone delay of a client in it, which is then added once more (`flywheel_met` is for the other builds).
-/

namespace CfsEds.Time

open CfsEds.Lib.Interleave CfsEds.Lib.VersionedRing Prog SysTime

/-! ## The reference when nobody else runs -/

theorem run_copyReference (s : TimeState) : copyReference.run s
      = ((decide (s.ref.last = (s.ref.slots (bufIndex s.ref.last)).version),
          s.intr.localClock, (s.ref.slots (bufIndex s.ref.last)).data), s) := rfl

/-- Without an update under way the reference is read at the first attempt. -/
theorem run_getReference (cfg : TimeConfig) {s : TimeState} {d : ReferenceData}
    (h : s.ref.Current bufIndex d) :
    (getReference cfg).run s = (computeReference cfg s.intr.localClock d, s) := by
  have hcopy : copyReference.run s = ((true, s.intr.localClock, d), s) := by
    rw [run_copyReference, h.2]
    simp
  have hread : (readReference 4).run s = (⟨true, 4, s.intr.localClock, d⟩, s) := by
    rw [readReference, run_bind, hcopy]
    rfl
  rw [getReference, run_bind, hread]
  rfl

/-! ## The time since the tone -/

/-- The seconds of two times are at most half the circle apart. -/
def NearSeconds (a b : SysTime) : Prop :=
  a.seconds.toNat ≤ b.seconds.toNat + 2 ^ 31 ∧ b.seconds.toNat ≤ a.seconds.toNat + 2 ^ 31

/-- The time that passed on a clock that is reduced modulo its rollover value, when less than
a whole turn passed. -/
theorem elapsed_of_rollover {latch now max elapsed : Nat} (hlatch : latch < max)
    (helapsed : elapsed < max) (hnow : now = (latch + elapsed) % max) :
    now < max ∧ elapsed = if latch ≤ now then now - latch else max - latch + now := by
  have hmod : now = if latch + elapsed < max then latch + elapsed else latch + elapsed - max := by
    split
    next h => rw [hnow, Nat.mod_eq_of_lt h]
    next h => rw [hnow, Nat.mod_eq_sub_mod (by omega), Nat.mod_eq_of_lt (by omega)]
  split at hmod <;> split <;> omega

theorem toNat_timeSince (cfg : TimeConfig) {latch now : SysTime}
    (hlatch : latch.toNat < cfg.maxLocalClock.toNat)
    (hnow : now.toNat < cfg.maxLocalClock.toNat) :
    (timeSince cfg latch now).toNat = (if latch.toNat ≤ now.toNat then now.toNat - latch.toNat
            else cfg.maxLocalClock.toNat - latch.toNat + now.toNat)
      ↔ NearSeconds now latch := by
  have hmax := cfg.maxLocalClock.toNat_lt
  unfold timeSince NearSeconds
  by_cases hcmp : compare now latch = .aLtB <;> by_cases hle : latch.toNat ≤ now.toNat
  · rw [if_pos hcmp, if_pos hle, toNat_add, toNat_subtract]
    rw [compare_eq_aLtB_iff, ← BitVec.toNat_inj] at hcmp
    simp only [SysTime.toNat] at hlatch hnow hmax hle ⊢
    omega
  · rw [if_pos hcmp, if_neg hle, toNat_add, toNat_subtract]
    rw [compare_eq_aLtB_iff, ← BitVec.toNat_inj] at hcmp
    simp only [SysTime.toNat] at hlatch hnow hmax hle ⊢
    omega
  · rw [if_neg hcmp, if_pos hle, toNat_subtract]
    rw [compare_eq_aLtB_iff, ← BitVec.toNat_inj] at hcmp
    simp only [SysTime.toNat] at hlatch hnow hmax hle ⊢
    omega
  · rw [if_neg hcmp, if_neg hle, toNat_subtract]
    rw [compare_eq_aLtB_iff, ← BitVec.toNat_inj] at hcmp
    simp only [SysTime.toNat] at hlatch hnow hmax hle ⊢
    omega

theorem toNat_computeReference_currentMET {cfg : TimeConfig} (hserver : cfg.server = true)
    (now : SysTime) (d : ReferenceData) :
    (computeReference cfg now d).currentMET.toNat
      = (d.atToneMET.toNat + (timeSince cfg d.atToneLatch now).toNat) % 2 ^ 64 := by
  simp only [computeReference, hserver, if_true]
  rw [toNat_add, Nat.add_comm]

/-- On a server `CFE_TIME_GetReference` reports the true time since the tone, and the MET that
goes with it, exactly when the seconds of the clock and of the latch are at most half the
circle apart. -/
theorem timeSinceTone_eq_iff {cfg : TimeConfig} (hserver : cfg.server = true)
    {s : TimeState} {d : ReferenceData} (hquiet : s.ref.Quiet bufIndex d)
    (hlatch : d.atToneLatch.toNat < cfg.maxLocalClock.toNat)
    {elapsed : Nat} (helapsed : elapsed < cfg.maxLocalClock.toNat)
    (hclock : s.intr.localClock.toNat = (d.atToneLatch.toNat + elapsed) % cfg.maxLocalClock.toNat) :
    (((getReference cfg).run s).1.timeSinceTone.toNat = elapsed ∧
        ((getReference cfg).run s).1.currentMET.toNat = (d.atToneMET.toNat + elapsed) % 2 ^ 64)
      ↔ NearSeconds s.intr.localClock d.atToneLatch := by
  rw [run_getReference cfg hquiet.current]
  obtain ⟨hnow, hpassed⟩ := elapsed_of_rollover hlatch helapsed hclock
  have hsince := toNat_timeSince cfg hlatch hnow
  rw [← hpassed] at hsince
  have hmet := toNat_computeReference_currentMET hserver s.intr.localClock d
  constructor
  · exact fun h => hsince.mp h.1
  · intro hnear
    have heq := hsince.mpr hnear
    exact ⟨heq, by rw [hmet, heq]⟩

/-- A server whose clock rolls over at a given value. -/
def clockConfig (maxLocalClock : SysTime) : TimeConfig := { sampleConfig with maxLocalClock }

/-- The state of a server at a local time, after a tone at MET 100 s. -/
def latchedState (latch now : SysTime) : TimeState where
  ref :=
    { slots := fun _ =>
        ⟨0#32, { (default : ReferenceData) with atToneMET := ⟨100#32, 0#32⟩, atToneLatch := latch }⟩
      last := 0#32
      published :=
        [{ (default : ReferenceData) with atToneMET := ⟨100#32, 0#32⟩, atToneLatch := latch }]
      stamped := 0 }
  task := default
  intr := { (default : InterruptData) with localClock := now }
  getReferenceFail := false

theorem latchedState_quiet (latch now : SysTime) : (latchedState latch now).ref.Quiet bufIndex
      { (default : ReferenceData) with atToneMET := ⟨100#32, 0#32⟩, atToneLatch := latch } :=
  ⟨⟨rfl, rfl⟩, rfl⟩

/-- A clock that rolls over after 27 s, two seconds after a tone in its last second. -/
theorem timeSinceTone_short_clock : ((getReference (clockConfig ⟨27#32, 0#32⟩)).run
        (latchedState ⟨26#32, 0#32⟩ ⟨1#32, 0#32⟩)).1.timeSinceTone.toNat = 2 * 2 ^ 32 ∧
      ((getReference (clockConfig ⟨27#32, 0#32⟩)).run
        (latchedState ⟨26#32, 0#32⟩ ⟨1#32, 0#32⟩)).1.currentMET.toNat
          = (100 * 2 ^ 32 + 2 * 2 ^ 32) % 2 ^ 64 :=
  (timeSinceTone_eq_iff rfl (latchedState_quiet _ _) (by decide) (by decide) (by decide)).mpr
    ⟨by decide, by decide⟩

/-- A clock that rolls over after 3 · 2³⁰ seconds, two seconds after a tone in its last
second: the time since the tone is reported as 2³⁰ + 2 seconds. -/
theorem timeSinceTone_long_clock :
    (latchedState ⟨0xBFFFFFFF#32, 0#32⟩ ⟨1#32, 0#32⟩).ref.Quiet bufIndex
        { (default : ReferenceData) with
          atToneMET := ⟨100#32, 0#32⟩, atToneLatch := ⟨0xBFFFFFFF#32, 0#32⟩ } ∧
      (⟨1#32, 0#32⟩ : SysTime).toNat = ((⟨0xBFFFFFFF#32, 0#32⟩ : SysTime).toNat + 2 * 2 ^ 32)
          % (clockConfig ⟨0xC0000000#32, 0#32⟩).maxLocalClock.toNat ∧
      ((getReference (clockConfig ⟨0xC0000000#32, 0#32⟩)).run
        (latchedState ⟨0xBFFFFFFF#32, 0#32⟩ ⟨1#32, 0#32⟩)).1.timeSinceTone
          = ⟨0x40000002#32, 0#32⟩ :=
  ⟨latchedState_quiet _ _, by decide, by decide⟩

/-! ## Flywheel mode -/

/-- Cycles of the local 1Hz state machine without other updates: `d` is the reference after them,
and the last one was `elapsed` after the latch of `d₀`, on a clock that started again whenever it
reached its rollover value. -/
inductive FlywheelRun (cfg : TimeConfig) (d₀ : ReferenceData) : Nat → ReferenceData → Prop where
  | start : FlywheelRun cfg d₀ 0 d₀
  | cycle {elapsed elapsed' : Nat} {d : ReferenceData} (h : FlywheelRun cfg d₀ elapsed d)
      (inp : Inputs) (adjust : SysTime) (direction : AdjustDirection) (hle : elapsed ≤ elapsed')
      (hlt : elapsed' < cfg.maxLocalClock.toNat)
      (hclock : inp.clock.toNat =
        (d₀.atToneLatch.toNat + elapsed') % cfg.maxLocalClock.toNat) :
      FlywheelRun cfg d₀ elapsed' ((Update.local1Hz adjust direction).apply cfg inp d)

/-- Without anybody else running, the state machine makes its update of the reference with the
clock as it is. -/
theorem run_local1HzStateMachine (cfg : TimeConfig) {s : TimeState} {d : ReferenceData}
    (h : s.ref.Quiet bufIndex d) : ((local1HzStateMachine cfg).run s).2.ref.Quiet bufIndex
      ((Update.local1Hz s.task.oneHzAdjust s.task.oneHzDirection).apply cfg
        ⟨s.intr.localClock, s.intr.toneSignalLatch, s.intr.virtualMET⟩ d) := by
  have hperformed : Main (withClocks (· = clocks s.intr))
      (At (QuietAt d) (Known (timeVars s.task s.intr))) (local1HzStateMachine cfg) _ :=
    local1Hz_performed
  obtain ⟨-, k, hk, hquiet, -⟩ := wp_run mainGuarantee id (hperformed s ⟨h, rfl, rfl⟩)
  rw [hk] at hquiet
  exact hquiet

/-- So a cycle of a flywheel run is what the program does in a quiet state. -/
theorem FlywheelRun.run {cfg : TimeConfig} {d₀ d : ReferenceData} {elapsed elapsed' : Nat}
    {s : TimeState} (h : FlywheelRun cfg d₀ elapsed d) (hquiet : s.ref.Quiet bufIndex d)
    (hle : elapsed ≤ elapsed') (hlt : elapsed' < cfg.maxLocalClock.toNat)
    (hclock : s.intr.localClock.toNat =
      (d₀.atToneLatch.toNat + elapsed') % cfg.maxLocalClock.toNat) :
    ∃ d', FlywheelRun cfg d₀ elapsed' d' ∧
      ((local1HzStateMachine cfg).run s).2.ref.Quiet bufIndex d' :=
  ⟨_, h.cycle ⟨s.intr.localClock, s.intr.toneSignalLatch, s.intr.virtualMET⟩ s.task.oneHzAdjust
    s.task.oneHzDirection hle hlt hclock, run_local1HzStateMachine cfg hquiet⟩

section Flywheel

variable {cfg : TimeConfig} {d₀ d : ReferenceData} {elapsed elapsed' : Nat} {now : SysTime}

/-- The clock rolls over within half the large circle, and no tone delay is added to the MET. -/
structure FlywheelOk (cfg : TimeConfig) (d₀ : ReferenceData) : Prop where
  short : cfg.maxLocalClock.toNat ≤ 2 ^ 63
  latch : d₀.atToneLatch.toNat < cfg.maxLocalClock.toNat
  delay : cfg.server = true ∨ d₀.atToneDelay.toNat = 0

/-- The MET and the latch have been moved along by the same time. -/
structure MovedAlong (cfg : TimeConfig) (d₀ : ReferenceData) (elapsed : Nat) (d : ReferenceData) :
    Prop where
  latch : d.atToneLatch.toNat = (d₀.atToneLatch.toNat + elapsed) % cfg.maxLocalClock.toNat
  met : d.atToneMET.toNat = (d₀.atToneMET.toNat + elapsed) % 2 ^ 64
  delay : cfg.server = true ∨ d.atToneDelay.toNat = 0

/-- Then they give the MET as before, at a later time. -/
theorem MovedAlong.currentMET (h : MovedAlong cfg d₀ elapsed d)
    (hshort : cfg.maxLocalClock.toNat ≤ 2 ^ 63) (hle : elapsed ≤ elapsed')
    (hlt : elapsed' < cfg.maxLocalClock.toNat)
    (hnow : now.toNat = (d₀.atToneLatch.toNat + elapsed') % cfg.maxLocalClock.toNat) :
    (computeReference cfg now d).currentMET.toNat = (d₀.atToneMET.toNat + elapsed') % 2 ^ 64 := by
  have hlatch : d.atToneLatch.toNat < cfg.maxLocalClock.toNat := by
    rw [h.latch]
    exact Nat.mod_lt _ (by omega)
  have hclock : now.toNat =
      (d.atToneLatch.toNat + (elapsed' - elapsed)) % cfg.maxLocalClock.toNat := by
    rw [hnow, h.latch, Nat.mod_add_mod, Nat.add_assoc, Nat.add_sub_cancel' hle]
  obtain ⟨hmax, hpassed⟩ := elapsed_of_rollover hlatch (by omega) hclock
  have hnear : NearSeconds now d.atToneLatch := by
    unfold NearSeconds
    simp only [SysTime.toNat] at hmax hlatch hshort
    omega
  have hsince := (toNat_timeSince cfg hlatch hmax).mpr hnear
  rw [← hpassed] at hsince
  have hmet : (add (timeSince cfg d.atToneLatch now) d.atToneMET).toNat =
      (d₀.atToneMET.toNat + elapsed') % 2 ^ 64 := by
    rw [toNat_add, hsince, h.met, Nat.add_mod_mod, Nat.add_comm, Nat.add_assoc,
      Nat.add_sub_cancel' hle]
  rw [← hmet, computeReference]
  split_ifs with hserver hdirection
  · rfl
  · rw [toNat_add, h.delay.resolve_left hserver, Nat.add_zero, hmet, Nat.mod_mod]
  · rw [toNat_subtract, h.delay.resolve_left hserver, Nat.sub_zero, Nat.add_mod_right, hmet,
      Nat.mod_mod]

theorem FlywheelRun.movedAlong (h : FlywheelRun cfg d₀ elapsed d)
    (hok : FlywheelOk cfg d₀) : ∃ e ≤ elapsed, MovedAlong cfg d₀ e d := by
  induction h with
  | start =>
    refine ⟨0, le_rfl, ?_, ?_, hok.delay⟩
    · rw [Nat.add_zero, Nat.mod_eq_of_lt hok.latch]
    · rw [Nat.add_zero, Nat.mod_eq_of_lt d₀.atToneMET.toNat_lt]
  | @cycle elapsed elapsed' d _ inp adjust direction hle hlt hclock ih =>
    obtain ⟨e, he, hmoved⟩ := ih
    have hadjusted : MovedAlong cfg d₀ e (adjusted1Hz cfg adjust direction d) := by
      unfold adjusted1Hz
      split
      · exact ⟨hmoved.latch, hmoved.met, hmoved.delay⟩
      · exact hmoved
    rw [Update.apply]
    generalize adjusted1Hz cfg adjust direction d = d at hadjusted
    unfold flywheel1Hz
    dsimp only
    split_ifs
    · exact ⟨e, he.trans hle, hadjusted.latch, hadjusted.met, hadjusted.delay⟩
    · exact ⟨e, he.trans hle, hadjusted⟩
    · exact ⟨elapsed', le_rfl, hclock,
        hadjusted.currentMET hok.short (he.trans hle) hlt hclock, hadjusted.delay⟩
    · exact ⟨e, he.trans hle, hadjusted⟩

/-- The cycles do not change the MET at any later time. -/
theorem flywheel_met (h : FlywheelRun cfg d₀ elapsed d) (hok : FlywheelOk cfg d₀)
    (hle : elapsed ≤ elapsed') (hlt : elapsed' < cfg.maxLocalClock.toNat)
    (hnow : now.toNat = (d₀.atToneLatch.toNat + elapsed') % cfg.maxLocalClock.toNat) :
    (computeReference cfg now d).currentMET = (computeReference cfg now d₀).currentMET := by
  obtain ⟨e, he, hmoved⟩ := h.movedAlong hok
  obtain ⟨e₀, he₀, hstart⟩ := FlywheelRun.start.movedAlong hok
  apply toNat_injective
  rw [hmoved.currentMET hok.short (he.trans hle) hlt hnow,
    hstart.currentMET hok.short (by omega) hlt hnow]

end Flywheel

/-- A reference in flywheel mode with a tone delay of a second. -/
def delayedData : ReferenceData :=
  { (default : ReferenceData) with
    clockFlyState := .isFly
    delayDirection := .add
    atToneMET := ⟨100#32, 0#32⟩
    atToneDelay := ⟨1#32, 0#32⟩ }

/-- A cycle of a server ten seconds after the tone, and its MET two seconds later. -/
theorem flywheel_met_server : ∃ d, FlywheelRun sampleConfig delayedData (10 * 2 ^ 32) d ∧
    (computeReference sampleConfig ⟨12#32, 0#32⟩ d).currentMET = ⟨112#32, 0#32⟩ := by
  have hcycle : FlywheelRun sampleConfig delayedData (10 * 2 ^ 32) _ :=
    .cycle .start ⟨⟨10#32, 0#32⟩, default, 0#32⟩ default .add (by decide) (by decide) (by decide)
  have hnow : (⟨12#32, 0#32⟩ : SysTime).toNat =
    (delayedData.atToneLatch.toNat + 12 * 2 ^ 32) % sampleConfig.maxLocalClock.toNat := by decide
  have hmet := flywheel_met hcycle ⟨by decide, by decide, .inl rfl⟩ (by decide) (by decide) hnow
  exact ⟨_, hcycle, hmet.trans (by decide)⟩

def sampleClient : TimeConfig := { sampleConfig with server := false }

/-- A client has the MET 114, and without the cycle 113. -/
theorem flywheel_met_client : ∃ d, FlywheelRun sampleClient delayedData (10 * 2 ^ 32) d ∧
    (computeReference sampleClient ⟨12#32, 0#32⟩ d).currentMET = ⟨114#32, 0#32⟩ ∧
    (computeReference sampleClient ⟨12#32, 0#32⟩ delayedData).currentMET = ⟨113#32, 0#32⟩ :=
  ⟨_, .cycle .start ⟨⟨10#32, 0#32⟩, default, 0#32⟩ default .add (by decide) (by decide) (by decide),
    by decide, by decide⟩

end CfsEds.Time
