import CfsEds.Time.Rollover

/-!
# Setting the time and getting it back

`CFE_TIME_SetTime` does not store the time it is given. It stores the correlation factor
(STCF) that makes it the current time: the difference to the MET of the moment and, where
the default time is UTC, the leap seconds on top. `CFE_TIME_GetTime` computes the MET again
and adds the STCF, and takes the leap seconds off for UTC.

The MET depends on the local clock and on everything in the reference but the STCF
(`computeReference_setSTCF`), and both sums are taken modulo 2⁶⁴. So at one local clock
value the time got is the time set, whatever the clock, the MET and the leap seconds are
(`getTime_setTime`).

Mirroring notes:
* `CFE_MISSION_TIME_CFG_DEFAULT_TAI` is the negation of `CFE_MISSION_TIME_CFG_DEFAULT_UTC`:
  `cfe_time_verify.h` refuses every other configuration.
* The leap seconds are an `int16` that is converted to 32 bits with its sign.
-/

namespace CfsEds.Time

open CfsEds.Lib.Interleave CfsEds.Lib.VersionedRing Prog SysTime

/-- `CFE_TIME_CalculateTAI`. -/
def calculateTAI (reference : Reference) : SysTime :=
  add reference.currentMET reference.atToneSTCF

/-- `CFE_TIME_CalculateUTC`. -/
def calculateUTC (reference : Reference) : SysTime :=
  let timeAsUTC := add reference.currentMET reference.atToneSTCF
  { timeAsUTC with
    seconds := timeAsUTC.seconds - reference.atToneLeapSeconds.signExtend 32 }

section

variable (cfg : TimeConfig)

/-- `CFE_TIME_GetTAI`. -/
def getTAI : Prog TimeState SysTime := do
  let reference ← getReference cfg
  return calculateTAI reference

/-- `CFE_TIME_GetUTC`. -/
def getUTC : Prog TimeState SysTime := do
  let reference ← getReference cfg
  return calculateUTC reference

/-- `CFE_TIME_GetTime`. -/
def getTime : Prog TimeState SysTime :=
  if cfg.defaultUTC then getUTC cfg else getTAI cfg

/-- The current time in the default format, from a reference. -/
def defaultTime (reference : Reference) : SysTime :=
  if cfg.defaultUTC then calculateUTC reference else calculateTAI reference

end

variable {cfg : TimeConfig} {s s' : TimeState} {d : ReferenceData}

/-! ## Times with another number of seconds -/

theorem add_seconds (a b : SysTime) (n : BitVec 32) : add a { b with seconds := b.seconds + n }
      = { add a b with seconds := (add a b).seconds + n } := by
  unfold add
  dsimp only
  split
  next => rw [← BitVec.add_assoc, BitVec.add_assoc _ n, BitVec.add_comm n, ← BitVec.add_assoc]
  next => rw [← BitVec.add_assoc]

theorem add_subtract_cancel (a b : SysTime) : add a (subtract b a) = b := by
  have ha := a.toNat_lt
  have hb := b.toNat_lt
  apply toNat_injective
  rw [toNat_add, toNat_subtract]
  omega

/-- The correlation factor for a time makes it the current time. -/
theorem defaultTime_newSTCF (reference : Reference) (newTime : SysTime) :
    defaultTime cfg { reference with atToneSTCF := newSTCF cfg reference newTime } = newTime := by
  unfold defaultTime newSTCF
  cases cfg.defaultUTC with
  | false =>
    -- TAI: the MET was taken off and is added again
    exact add_subtract_cancel _ _
  | true =>
    -- UTC: so are the leap seconds, the other way round
    simp only [if_true, calculateUTC]
    rw [add_seconds, add_subtract_cancel, BitVec.add_sub_cancel]

/-! ## The two calls -/

/-- The MET does not depend on the correlation factor. -/
theorem computeReference_setSTCF (clock : SysTime) (stcf : SysTime) :
    computeReference cfg clock { d with atToneSTCF := stcf }
      = { computeReference cfg clock d with atToneSTCF := stcf } := rfl

/-- Without an update under way the time is computed from the reference and the clock. -/
theorem run_getTime (h : s.ref.Current bufIndex d) :
    ((getTime cfg).run s).1 = defaultTime cfg (computeReference cfg s.intr.localClock d) := by
  unfold getTime defaultTime
  split
  next => rw [getUTC, run_bind, run_getReference cfg h]; rfl
  next => rw [getTAI, run_bind, run_getReference cfg h]; rfl

/-- The update of `CFE_TIME_SetTime` once it has the reference. -/
theorem stcf_updated (stcf : SysTime) :
    Main ringOnly (At (QuietAt d) fun _ => True)
      (do let refState ← startReferenceUpdate
          writeTime refState Cell.stcf stcf
          finishReferenceUpdate refState)
      (fun _ => At (QuietAt { d with atToneSTCF := stcf }) fun _ => True) :=
  Triple.bind Main.start fun _ => Main.seq (Main.write_time _ _) fun _ => Main.finish

/-- `CFE_TIME_SetTime` leaves the reference with the correlation factor for the local clock
it has read. -/
theorem run_setTime (cfg : TimeConfig) (hquiet : s.ref.Quiet bufIndex d) (newTime : SysTime) :
    ((setTime cfg newTime).run s).2.ref.Quiet bufIndex { d with
        atToneSTCF := newSTCF cfg (computeReference cfg s.intr.localClock d) newTime } := by
  rw [setTime, run_bind, run_getReference cfg hquiet.current]
  exact (wp_run mainGuarantee id (stcf_updated _ s ⟨hquiet, trivial⟩)).2.1

/-- The time that was set is the time that is got at the same local clock value, as long as
there is no other update. -/
theorem getTime_setTime (hquiet : s.ref.Quiet bufIndex d) (newTime : SysTime)
    (href : s'.ref = ((setTime cfg newTime).run s).2.ref)
    (hclock : s'.intr.localClock = s.intr.localClock) :
    ((getTime cfg).run s').1 = newTime := by
  have hcurrent := (run_setTime cfg hquiet newTime).current
  rw [← href] at hcurrent
  rw [run_getTime hcurrent, hclock, computeReference_setSTCF]
  exact defaultTime_newSTCF _ newTime

/-- A server whose clock rolls over after 27 s and whose default time is UTC. -/
def utcConfig : TimeConfig := { clockConfig ⟨27#32, 0#32⟩ with defaultUTC := true }

/-- The time of a server with UTC, when the clock has rolled over since the tone. -/
theorem getTime_setTime_rolled : ((getTime utcConfig).run ((setTime utcConfig ⟨5#32, 7#32⟩).run
          (latchedState ⟨26#32, 0#32⟩ ⟨1#32, 9#32⟩)).2).1 = ⟨5#32, 7#32⟩ :=
  getTime_setTime (latchedState_quiet _ _) _ rfl (by decide)

end CfsEds.Time
