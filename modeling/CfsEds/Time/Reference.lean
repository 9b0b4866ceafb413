import CfsEds.Lib.Interleave
import CfsEds.Lib.VersionedRing
import CfsEds.Time.SysTime

/-!
# The time reference

Time services keep the values that the current time is computed from in a ring of four
`CFE_TIME_ReferenceState_t` records. An update (`startReferenceUpdate`, writes,
`finishReferenceUpdate`) takes no lock, and `getReference` may run in any context while
it is under way. The programs here are those of cfe_time_utils.c and cfe_time_tone.c, one
memory word an access.

All updates are made by the TIME main task. It takes one message after the other from its
command pipe (`handle`): ground commands, the tone signal and time-at-tone data
messages, and the 1Hz message. The tone task and the local 1Hz task only send such
messages. The tone interrupt (`tone1HzISR`) writes the variables in `InterruptData`.

`Step` lets all of these contexts take their accesses in any order.
-/

namespace CfsEds.Time

open CfsEds.Lib.Interleave CfsEds.Lib.VersionedRing

/-! ## Data -/

/-- `CFE_TIME_SetState_Enum_t`. -/
inductive SetState where
  | notSet
  | wasSet
  deriving DecidableEq, Repr, Inhabited

/-- `CFE_TIME_FlywheelState_Enum_t`. -/
inductive FlywheelState where
  | noFly
  | isFly
  deriving DecidableEq, Repr, Inhabited

/-- `CFE_TIME_AdjustDirection_Enum_t`. The code only asks whether a direction is ADD, so
that a cleared one is the same as SUBTRACT. -/
inductive AdjustDirection where
  | subtract
  | add
  deriving DecidableEq, Repr, Inhabited

/-- `CFE_TIME_ClockState_Enum_t`. -/
inductive ClockState where
  | invalid
  | valid
  | flywheel
  deriving DecidableEq, Repr, Inhabited

/-- `CFE_TIME_SourceSelect_Enum_t`. -/
inductive SourceSelect where
  | internal
  | external
  deriving DecidableEq, Repr, Inhabited

/-- Which of `CFE_PLATFORM_TIME_CFG_SRC_MET`, `_GPS` and `_TIME` is true. -/
inductive ExternalSource where
  | met
  | gps
  | time
  deriving DecidableEq, Repr

/-- The configuration of time services. -/
structure TimeConfig where
  /-- `CFE_PLATFORM_TIME_CFG_SERVER`; a build that is not a server is a client. -/
  server : Bool
  src : Option ExternalSource
  /-- `CFE_PLATFORM_TIME_CFG_VIRTUAL`. -/
  virtualMET : Bool
  /-- `CFE_MISSION_TIME_CFG_DEFAULT_UTC`. -/
  defaultUTC : Bool
  /-- `CFE_MISSION_TIME_AT_TONE_WAS`; otherwise the data arrives before the tone. -/
  atToneWas : Bool
  /-- `CFE_MISSION_TIME_CFG_FAKE_TONE`. -/
  fakeTone : Bool
  startFly : BitVec 32
  latchFly : BitVec 32
  maxLocalClock : SysTime
  minElapsed : BitVec 32
  maxElapsed : BitVec 32
  toneOverLimit : BitVec 32
  toneUnderLimit : BitVec 32

/-- `CFE_TIME_ReferenceState_t` without its version. -/
structure ReferenceData where
  atToneLeapSeconds : BitVec 16
  clockSetState : SetState
  clockFlyState : FlywheelState
  delayDirection : AdjustDirection
  atToneMET : SysTime
  atToneSTCF : SysTime
  atToneDelay : SysTime
  atToneLatch : SysTime
  deriving DecidableEq, Repr, Inhabited

/-- `CFE_TIME_Reference_t`. -/
structure Reference extends ReferenceData where
  currentLatch : SysTime
  timeSinceTone : SysTime
  currentMET : SysTime
  deriving DecidableEq, Repr, Inhabited

/-- The values of a tone update that come from the last data message. -/
structure PendingData where
  met : SysTime
  stcf : SysTime
  leaps : BitVec 16
  state : ClockState
  deriving DecidableEq, Repr, Inhabited

/-- A tone and a data message that an update was made from, with the latches of both. -/
structure ToneUse where
  tone : Nat
  toneLatch : SysTime
  data : Nat
  dataLatch : SysTime
  deriving DecidableEq, Repr

/-- The variables of `CFE_TIME_Global` that only the main task writes. Two record what it did:
the data messages it received and the tones it used. -/
structure TaskData where
  clockSource : SourceSelect
  serverFlyState : FlywheelState
  pending : PendingData
  oneTimeAdjust : SysTime
  oneTimeDirection : AdjustDirection
  oneHzAdjust : SysTime
  oneHzDirection : AdjustDirection
  toneDataLatch : SysTime
  toneMatchCounter : BitVec 32
  toneMatchErrorCounter : BitVec 32
  toneSignalCounter : BitVec 32
  toneDataCounter : BitVec 32
  forced2Fly : Bool
  commandCounter : BitVec 8
  commandErrorCounter : BitVec 8
  /-- The static variables of `CFE_TIME_ToneVerify`. -/
  prevTime1 : SysTime
  prevTime2 : SysTime
  dataEvents : Nat
  toneUses : List ToneUse
  deriving Inhabited

/-- The local clock and the variables that the tone interrupt and the 1Hz task write. -/
structure InterruptData where
  localClock : SysTime
  /-- The hardware MET register. -/
  localMET : BitVec 32
  toneSignalLatch : SysTime
  virtualMET : BitVec 32
  toneIntCounter : BitVec 32
  toneIntErrorCounter : BitVec 32
  isToneGood : Bool
  autoStartFly : Bool
  /-- The number of tones so far. -/
  toneEvents : Nat
  deriving Inhabited

/-- The shared state of time services. -/
structure TimeState where
  ref : Ring (Fin 4) ReferenceData
  task : TaskData
  intr : InterruptData
  getReferenceFail : Bool

/-! ## Accesses -/

/-- A word of a reference record. -/
structure Cell (β : Type) where
  get : ReferenceData → β
  set : β → ReferenceData → ReferenceData

/-- The two words of a time in a reference record. -/
structure TimeCell where
  seconds : Cell (BitVec 32)
  subseconds : Cell (BitVec 32)

namespace Cell

def leapSeconds : Cell (BitVec 16) := ⟨(·.atToneLeapSeconds), fun v d => { d with atToneLeapSeconds := v }⟩
def setState : Cell SetState := ⟨(·.clockSetState), fun v d => { d with clockSetState := v }⟩
def flyState : Cell FlywheelState := ⟨(·.clockFlyState), fun v d => { d with clockFlyState := v }⟩
def direction : Cell AdjustDirection := ⟨(·.delayDirection), fun v d => { d with delayDirection := v }⟩

def met : TimeCell :=
  ⟨⟨(·.atToneMET.seconds), fun v d => { d with atToneMET := { d.atToneMET with seconds := v } }⟩,
   ⟨(·.atToneMET.subseconds),
    fun v d => { d with atToneMET := { d.atToneMET with subseconds := v } }⟩⟩

def stcf : TimeCell :=
  ⟨⟨(·.atToneSTCF.seconds),
    fun v d => { d with atToneSTCF := { d.atToneSTCF with seconds := v } }⟩,
   ⟨(·.atToneSTCF.subseconds),
    fun v d => { d with atToneSTCF := { d.atToneSTCF with subseconds := v } }⟩⟩

def delay : TimeCell :=
  ⟨⟨(·.atToneDelay.seconds),
    fun v d => { d with atToneDelay := { d.atToneDelay with seconds := v } }⟩,
   ⟨(·.atToneDelay.subseconds),
    fun v d => { d with atToneDelay := { d.atToneDelay with subseconds := v } }⟩⟩

def latch : TimeCell :=
  ⟨⟨(·.atToneLatch.seconds),
    fun v d => { d with atToneLatch := { d.atToneLatch with seconds := v } }⟩,
   ⟨(·.atToneLatch.subseconds),
    fun v d => { d with atToneLatch := { d.atToneLatch with subseconds := v } }⟩⟩

end Cell

/-- `Version & CFE_TIME_REFERENCE_BUF_MASK`. -/
def bufIndex (version : BitVec 32) : Fin 4 :=
  ⟨(version &&& 3#32).toNat, by
    rw [BitVec.toNat_and]
    exact Nat.lt_of_le_of_lt Nat.and_le_right (by decide)⟩

section Accesses

open Prog

def readCell {β : Type} (i : Fin 4) (c : Cell β) : Prog TimeState β :=
  read fun s => c.get (s.ref.slots i).data

def writeCell {β : Type} (i : Fin 4) (c : Cell β) (v : β) : Prog TimeState Unit :=
  write fun s => { s with ref := s.ref.fill i (c.set v) }

def readTime (i : Fin 4) (c : TimeCell) : Prog TimeState SysTime := do
  let seconds ← readCell i c.seconds
  let subseconds ← readCell i c.subseconds
  return ⟨seconds, subseconds⟩

def writeTime (i : Fin 4) (c : TimeCell) (t : SysTime) : Prog TimeState Unit := do
  writeCell i c.seconds t.seconds
  writeCell i c.subseconds t.subseconds

/-- Change the variables of the main task. -/
def setTask (g : TaskData → TaskData) : Prog TimeState Unit :=
  write fun s => { s with task := g s.task }

/-- Change the variables of the interrupt. -/
def setIntr (g : InterruptData → InterruptData) : Prog TimeState Unit :=
  write fun s => { s with intr := g s.intr }

/-- An `if` without an `else`. -/
def when (c : Prop) [Decidable c] (p : Prog TimeState Unit) : Prog TimeState Unit :=
  if c then p else pure ()

theorem when_pos {c : Prop} [Decidable c] (h : c) (p : Prog TimeState Unit) : when c p = p :=
  if_pos h

theorem when_neg {c : Prop} [Decidable c] (h : ¬ c) (p : Prog TimeState Unit) :
    when c p = pure () :=
  if_neg h

/-- `CFE_TIME_LatchClock`. -/
def latchClock : Prog TimeState SysTime := read (·.intr.localClock)

/-- The latch of the tone, which the interrupt may write between the two reads. -/
def readToneSignalLatch : Prog TimeState SysTime := do
  let seconds ← read (·.intr.toneSignalLatch.seconds)
  let subseconds ← read (·.intr.toneSignalLatch.subseconds)
  return ⟨seconds, subseconds⟩

end Accesses

/-! ## Reading and updating the reference -/

section Programs

open Prog SysTime

variable (cfg : TimeConfig)

def copyCell {β : Type} (curr next : Fin 4) (c : Cell β) : Prog TimeState Unit := do
  let v ← readCell curr c
  writeCell next c v

def copyTime (curr next : Fin 4) (c : TimeCell) : Prog TimeState Unit := do
  copyCell curr next c.seconds
  copyCell curr next c.subseconds

/-- `CFE_TIME_StartReferenceUpdate`. -/
def startReferenceUpdate : Prog TimeState (Fin 4) := do
  let version ← read (·.ref.last)
  let curr := bufIndex version
  let next := bufIndex (version + 1#32)
  write fun s => { s with ref := s.ref.stamp next (version + 1#32) }
  -- initially all previous values are propagated to the next ones
  copyCell curr next Cell.leapSeconds
  copyCell curr next Cell.setState
  copyCell curr next Cell.flyState
  copyCell curr next Cell.direction
  copyTime curr next Cell.met
  copyTime curr next Cell.stcf
  copyTime curr next Cell.delay
  copyTime curr next Cell.latch
  return next

/-- `CFE_TIME_FinishReferenceUpdate`. -/
def finishReferenceUpdate (next : Fin 4) : Prog TimeState Unit := do
  let version ← read fun s => (s.ref.slots next).version
  write fun s => { s with ref := s.ref.publish bufIndex version }

/-- One pass of the loop of `CFE_TIME_GetReference`: whether the version matched, the
current latch and the fields copied. -/
def copyReference : Prog TimeState (Bool × SysTime × ReferenceData) := do
  let versionCounter ← read (·.ref.last)
  let refState := bufIndex versionCounter
  let currentLatch ← latchClock
  let atToneMET ← readTime refState Cell.met
  let atToneSTCF ← readTime refState Cell.stcf
  let atToneLeapSeconds ← readCell refState Cell.leapSeconds
  let atToneDelay ← readTime refState Cell.delay
  let atToneLatch ← readTime refState Cell.latch
  let clockSetState ← readCell refState Cell.setState
  let clockFlyState ← readCell refState Cell.flyState
  let delayDirection ← readCell refState Cell.direction
  let stateVersion ← read fun s => (s.ref.slots refState).version
  return (decide (versionCounter = stateVersion), currentLatch,
    { atToneLeapSeconds, clockSetState, clockFlyState, delayDirection,
      atToneMET, atToneSTCF, atToneDelay, atToneLatch })

/-- How the loop of `CFE_TIME_GetReference` ended. -/
structure ReadResult where
  accepted : Bool
  retryCount : Nat
  currentLatch : SysTime
  data : ReferenceData
  deriving DecidableEq, Repr

/-- The loop of `CFE_TIME_GetReference`. -/
def readReference (retryCount : Nat) : Prog TimeState ReadResult := do
  let copy ← copyReference
  if copy.1 then return ⟨true, retryCount, copy.2.1, copy.2.2⟩
  else
    -- caught mid-update
    match retryCount with
    | 0 => return ⟨false, 0, copy.2.1, copy.2.2⟩
    | n + 1 => readReference n

/-- The time that passed on the local clock, which may have rolled over. -/
def timeSince (latch now : SysTime) : SysTime :=
  if compare now latch = .aLtB then add (subtract cfg.maxLocalClock latch) now
  else subtract now latch

/-- The end of `CFE_TIME_GetReference`, after a read that did not fail. -/
def computeReference (currentLatch : SysTime) (data : ReferenceData) : Reference :=
  let timeSinceTone := timeSince cfg data.atToneLatch currentLatch
  let currentMET := add timeSinceTone data.atToneMET
  { toReferenceData := data
    currentLatch
    timeSinceTone
    currentMET :=
      if cfg.server then currentMET
      else if data.delayDirection = .add then add currentMET data.atToneDelay
      else subtract currentMET data.atToneDelay }

/-- `CFE_TIME_GetReference`. -/
def getReference : Prog TimeState Reference := do
  let result ← readReference 4
  -- this is also so when the last retry succeeded
  if result.retryCount = 0 then
    write fun s => { s with getReferenceFail := true }
    return default
  else return computeReference cfg result.currentLatch result.data

/-- `CFE_TIME_SetState`. -/
def setState (newState : ClockState) : Prog TimeState Unit := do
  let refState ← startReferenceUpdate
  match newState with
  | .flywheel =>
    setTask fun t => { t with forced2Fly := true }
    writeCell refState Cell.flyState .isFly
    when cfg.server (setTask fun t => { t with serverFlyState := .isFly })
  | .valid =>
    setTask fun t => { t with forced2Fly := false }
    writeCell refState Cell.setState .wasSet
  | .invalid =>
    setTask fun t => { t with forced2Fly := false }
    writeCell refState Cell.setState .notSet
  finishReferenceUpdate refState

/-- `CFE_TIME_SetDelay`. -/
def setDelay (newDelay : SysTime) (direction : AdjustDirection) : Prog TimeState Unit := do
  let refState ← startReferenceUpdate
  writeTime refState Cell.delay newDelay
  writeCell refState Cell.direction direction
  finishReferenceUpdate refState

/-- The correlation factor that makes `newTime` the current time. -/
def newSTCF (reference : Reference) (newTime : SysTime) : SysTime :=
  let stcf := subtract newTime reference.currentMET
  if cfg.defaultUTC then
    { stcf with seconds := stcf.seconds + reference.atToneLeapSeconds.signExtend 32 }
  else stcf

/-- `CFE_TIME_SetTime`. -/
def setTime (newTime : SysTime) : Prog TimeState Unit := do
  let reference ← getReference cfg
  let refState ← startReferenceUpdate
  writeTime refState Cell.stcf (newSTCF cfg reference newTime)
  finishReferenceUpdate refState

/-- `CFE_TIME_SetMET`. -/
def setMET (newMET : SysTime) : Prog TimeState Unit := do
  let refState ← startReferenceUpdate
  writeTime refState Cell.met newMET
  setIntr fun i => { i with virtualMET := newMET.seconds }
  let latch ← latchClock
  writeTime refState Cell.latch latch
  when (¬ cfg.virtualMET) (setIntr fun i => { i with localMET := newMET.seconds })
  finishReferenceUpdate refState

/-- `CFE_TIME_SetSTCF`. -/
def setSTCF (newSTCF : SysTime) : Prog TimeState Unit := do
  let refState ← startReferenceUpdate
  writeTime refState Cell.stcf newSTCF
  finishReferenceUpdate refState

/-- `CFE_TIME_SetLeapSeconds`. -/
def setLeapSeconds (newLeaps : BitVec 16) : Prog TimeState Unit := do
  let refState ← startReferenceUpdate
  writeCell refState Cell.leapSeconds newLeaps
  finishReferenceUpdate refState

/-- A time adjusted in a direction. -/
def adjusted (direction : AdjustDirection) (t adjust : SysTime) : SysTime :=
  if direction = .add then add t adjust else subtract t adjust

/-- `CFE_TIME_SetAdjust`. -/
def setAdjust (newAdjust : SysTime) (direction : AdjustDirection) : Prog TimeState Unit := do
  let refState ← startReferenceUpdate
  setTask fun t => { t with oneTimeAdjust := newAdjust, oneTimeDirection := direction }
  let stcf ← readTime refState Cell.stcf
  writeTime refState Cell.stcf (adjusted direction stcf newAdjust)
  finishReferenceUpdate refState

/-! ## The tone -/

/-- The tone and the data message that a tone update is made from. -/
def useTone (toneLatch : SysTime) : Prog TimeState Unit :=
  write fun s => { s with task := { s.task with
    toneUses := s.task.toneUses ++
      [⟨s.intr.toneEvents, toneLatch, s.task.dataEvents, s.task.toneDataLatch⟩] } }

/-- The time at the tone is the count of tones. -/
def writeVirtualMET (nextState : Fin 4) : Prog TimeState Unit := do
  let virtualMET ← read (·.intr.virtualMET)
  writeCell nextState Cell.met.seconds virtualMET
  writeCell nextState Cell.met.subseconds 0#32

/-- The part of `CFE_TIME_ToneUpdate` for a server. -/
def serverUpdate (nextState : Fin 4) (reference : Reference) (clockSource : SourceSelect)
    (pending : PendingData) : Prog TimeState Unit := do
  match clockSource with
  | .internal =>
    let clockFlyState ← readCell nextState Cell.flyState
    -- after flywheeling the count of tones may be incorrect
    when (clockFlyState = .isFly)
      (setIntr fun i => { i with virtualMET := reference.currentMET.seconds })
    writeVirtualMET nextState
  | .external =>
    match cfg.src with
    | some .met =>
      writeTime nextState Cell.met pending.met
      setIntr fun i => { i with virtualMET := pending.met.seconds }
    | some .gps =>
      writeVirtualMET nextState
      writeTime nextState Cell.stcf pending.stcf
      writeCell nextState Cell.leapSeconds pending.leaps
    | some .time =>
      writeVirtualMET nextState
      writeTime nextState Cell.stcf pending.stcf
    | none => pure ()
  let clockFlyState ← readCell nextState Cell.flyState
  when (clockFlyState = .isFly) do
    writeCell nextState Cell.flyState .noFly
    setTask fun t => { t with serverFlyState := .noFly }

/-- The part of `CFE_TIME_ToneUpdate` for a client. -/
def clientUpdate (nextState : Fin 4) (pending : PendingData) : Prog TimeState Unit := do
  writeTime nextState Cell.met pending.met
  writeTime nextState Cell.stcf pending.stcf
  writeCell nextState Cell.leapSeconds pending.leaps
  match pending.state with
  | .invalid =>
    writeCell nextState Cell.setState .notSet
    setTask fun t => { t with serverFlyState := .noFly }
  | .flywheel =>
    writeCell nextState Cell.setState .wasSet
    setTask fun t => { t with serverFlyState := .isFly }
  | .valid =>
    writeCell nextState Cell.setState .wasSet
    setTask fun t => { t with serverFlyState := .noFly }
  let clockFlyState ← readCell nextState Cell.flyState
  when (clockFlyState = .isFly) (writeCell nextState Cell.flyState .noFly)

/-- The part of `CFE_TIME_ToneUpdate` that depends on the build. -/
def writeTone (nextState : Fin 4) (reference : Reference) (clockSource : SourceSelect)
    (pending : PendingData) : Prog TimeState Unit :=
  if cfg.server then serverUpdate cfg nextState reference clockSource pending
  else clientUpdate nextState pending

/-- `CFE_TIME_ToneUpdate`. -/
def toneUpdate : Prog TimeState Unit := do
  let clockSource ← read (·.task.clockSource)
  let pending ← read (·.task.pending)
  let reference ← getReference cfg
  let nextState ← startReferenceUpdate
  -- the latch of the tone is read again here, after it was verified
  let toneSignalLatch ← readToneSignalLatch
  useTone toneSignalLatch
  writeTime nextState Cell.latch toneSignalLatch
  writeTone cfg nextState reference clockSource pending
  finishReferenceUpdate nextState

/-- The time from `time1` to `time2` in `CFE_TIME_ToneVerify`. -/
def toneElapsed (time1 time2 : SysTime) : SysTime :=
  if compare time1 time2 = .aGtB then add (subtract cfg.maxLocalClock time1) time2
  else subtract time2 time1

/-- The time between the tone and the data packet is within limits. -/
def ElapsedOk (elapsed : SysTime) : Prop :=
  ¬ (elapsed.seconds ≠ 0#32 ∨ elapsed.subseconds < cfg.minElapsed ∨
    cfg.maxElapsed < elapsed.subseconds)

instance (elapsed : SysTime) : Decidable (ElapsedOk cfg elapsed) :=
  inferInstanceAs (Decidable (¬ _))

/-- A tone and a data packet that do not match. -/
def toneMismatch : Prog TimeState Unit :=
  setTask fun t => { t with toneMatchErrorCounter := t.toneMatchErrorCounter + 1#32 }

/-- `CFE_TIME_ToneVerify` up to the update of its static variables. -/
def toneMatch (time1 time2 : SysTime) : Prog TimeState Unit := do
  let prevTime1 ← read (·.task.prevTime1)
  if compare prevTime1 time1 = .equal then toneMismatch
  else
    let prevTime2 ← read (·.task.prevTime2)
    if compare prevTime2 time2 = .equal then toneMismatch
    else if ElapsedOk cfg (toneElapsed cfg time1 time2) then
      setTask fun t => { t with toneMatchCounter := t.toneMatchCounter + 1#32 }
      let forced2Fly ← read (·.task.forced2Fly)
      when (¬ forced2Fly) (toneUpdate cfg)
    else toneMismatch

/-- `CFE_TIME_ToneVerify`. -/
def toneVerify (time1 time2 : SysTime) : Prog TimeState Unit := do
  toneMatch cfg time1 time2
  setTask fun t => { t with prevTime1 := time1, prevTime2 := time2 }

/-- `CFE_TIME_ToneData`. -/
def toneData (payload : PendingData) : Prog TimeState Unit := do
  let toneDataLatch ← latchClock
  setTask fun t => { t with
    toneDataLatch, pending := payload, dataEvents := t.dataEvents + 1 }
  when cfg.atToneWas do
    let time1 ← readToneSignalLatch
    let time2 ← read (·.task.toneDataLatch)
    toneVerify cfg time1 time2
  setTask fun t => { t with toneDataCounter := t.toneDataCounter + 1#32 }

/-- `CFE_TIME_ToneSignal`. -/
def toneSignal : Prog TimeState Unit := do
  when (¬ cfg.atToneWas) do
    let time1 ← read (·.task.toneDataLatch)
    let time2 ← readToneSignalLatch
    toneVerify cfg time1 time2
  setTask fun t => { t with toneSignalCounter := t.toneSignalCounter + 1#32 }

/-- The tone occurred about a second after the previous one. -/
def ToneInTime (elapsed : SysTime) : Prop :=
  elapsed.seconds = 1#32 ∧ elapsed.subseconds < cfg.toneOverLimit ∨
    elapsed.seconds = 0#32 ∧ cfg.toneUnderLimit < elapsed.subseconds

instance (elapsed : SysTime) : Decidable (ToneInTime cfg elapsed) :=
  inferInstanceAs (Decidable (_ ∨ _))

/-- What `CFE_TIME_Tone1HzISR` does with a tone in time. -/
def goodTone : Prog TimeState Unit := do
  setIntr fun i => { i with toneIntCounter := i.toneIntCounter + 1#32, isToneGood := true }
  if cfg.virtualMET then
    let virtualMET ← read (·.intr.virtualMET)
    setIntr fun i => { i with virtualMET := virtualMET + 1#32 }
  else
    let localMET ← read (·.intr.localMET)
    setIntr fun i => { i with virtualMET := localMET }

/-- What `CFE_TIME_Tone1HzISR` does with any other tone. -/
def badTone : Prog TimeState Unit :=
  setIntr fun i => { i with
    toneIntErrorCounter := i.toneIntErrorCounter + 1#32, isToneGood := false }

def countTone (elapsed : SysTime) : Prog TimeState Unit :=
  if ToneInTime cfg elapsed then goodTone cfg else badTone

/-- `CFE_TIME_Tone1HzISR`. -/
def tone1HzISR : Prog TimeState Unit := do
  let toneSignalLatch ← latchClock
  let previous ← readToneSignalLatch
  countTone cfg (timeSince cfg previous toneSignalLatch)
  setIntr fun i => { i with
    toneSignalLatch := { i.toneSignalLatch with seconds := toneSignalLatch.seconds }
    toneEvents := i.toneEvents + 1 }
  setIntr fun i => { i with
    toneSignalLatch := { i.toneSignalLatch with subseconds := toneSignalLatch.subseconds } }

/-! ## The local 1Hz state machine -/

/-- The 1Hz adjustment of `CFE_TIME_Local1HzStateMachine`. -/
def adjust1Hz (adjust : SysTime) (direction : AdjustDirection) : Prog TimeState Unit := do
  let nextState ← startReferenceUpdate
  let stcf ← readTime nextState Cell.stcf
  writeTime nextState Cell.stcf (adjusted direction stcf adjust)
  finishReferenceUpdate nextState

/-- `CFE_TIME_Local1HzStateMachine`. -/
def local1HzStateMachine : Prog TimeState Unit := do
  let adjust ← read (·.task.oneHzAdjust)
  let direction ← read (·.task.oneHzDirection)
  when (cfg.server ∧ (adjust.seconds ≠ 0#32 ∨ adjust.subseconds ≠ 0#32))
    (adjust1Hz adjust direction)
  let reference ← getReference cfg
  -- long enough without an update to start flywheel mode
  when (reference.clockFlyState = .noFly ∧ cfg.startFly ≤ reference.timeSinceTone.seconds) do
    let nextState ← startReferenceUpdate
    writeCell nextState Cell.flyState .isFly
    when cfg.server (setTask fun t => { t with serverFlyState := .isFly })
    setIntr fun i => { i with autoStartFly := true }
    finishReferenceUpdate nextState
  -- while flywheeling the latch is moved along with the clock
  when (reference.clockFlyState = .isFly ∧ cfg.latchFly ≤ reference.timeSinceTone.seconds) do
    let nextState ← startReferenceUpdate
    writeTime nextState Cell.met reference.currentMET
    writeTime nextState Cell.latch reference.currentLatch
    finishReferenceUpdate nextState

/-! ## The main task -/

/-- The messages of the command pipe that update the reference or something it is
updated from. -/
inductive Msg where
  | setState (newState : ClockState)
  | setSource (newSource : SourceSelect)
  | setDelay (newDelay : SysTime) (direction : AdjustDirection)
  | setTime (newTime : SysTime)
  | setMET (newMET : SysTime)
  | setSTCF (newSTCF : SysTime)
  | setLeapSeconds (newLeaps : BitVec 16)
  | setAdjust (newAdjust : SysTime) (direction : AdjustDirection)
  | set1HzAdj (newAdjust : SysTime) (direction : AdjustDirection)
  | toneSignal
  | toneData (payload : PendingData)
  | oneHz
  deriving DecidableEq, Repr

/-- A ground command. A build that does not have it only counts an error. -/
def command (c : Prop) [Decidable c] (p : Prog TimeState Unit) : Prog TimeState Unit :=
  if c then do
    p
    setTask fun t => { t with commandCounter := t.commandCounter + 1#8 }
  else setTask fun t => { t with commandErrorCounter := t.commandErrorCounter + 1#8 }

/-- The handler of a message. -/
def handle : Msg → Prog TimeState Unit
  | .setState newState => command True (setState cfg newState)
  | .setSource newSource =>
    command cfg.src.isSome (setTask fun t => { t with clockSource := newSource })
  | .setDelay newDelay direction => command (¬ cfg.server) (setDelay newDelay direction)
  | .setTime newTime => command cfg.server (setTime cfg newTime)
  | .setMET newMET => command cfg.server (setMET cfg newMET)
  | .setSTCF newSTCF => command cfg.server (setSTCF newSTCF)
  | .setLeapSeconds newLeaps => command cfg.server (setLeapSeconds newLeaps)
  | .setAdjust newAdjust direction => command cfg.server (setAdjust newAdjust direction)
  | .set1HzAdj newAdjust direction => command cfg.server
      (setTask fun t => { t with oneHzAdjust := newAdjust, oneHzDirection := direction })
  | .toneSignal => toneSignal cfg
  | .toneData payload => toneData cfg payload
  | .oneHz => do
    local1HzStateMachine cfg
    when cfg.fakeTone (tone1HzISR cfg)

/-- What the main task or the interrupt begins to process. -/
inductive Event where
  | message (msg : Msg)
  | tone
  deriving DecidableEq, Repr

/-- The contexts of time services: the main task with its pipe, the tone interrupt and a
reader. -/
structure System where
  mem : TimeState
  pipe : List Msg
  main : Prog TimeState Unit
  isr : Prog TimeState Unit
  reader : Prog TimeState ReadResult

/-- A step of one of the contexts, and what begins with it. -/
inductive Step : System → Option Event → System → Prop where
  /-- A context sends a message: the tone task, the 1Hz task, the scheduler or ground. -/
  | send (c : System) (msg : Msg) : Step c none { c with pipe := c.pipe ++ [msg] }
  /-- The main task takes a message when it has finished the one before. -/
  | dispatch (c : System) (msg : Msg) (rest : List Msg) (hidle : c.main = .done ())
      (hpipe : c.pipe = msg :: rest) :
      Step c (some (.message msg)) { c with main := handle cfg msg, pipe := rest }
  | main (c : System) (p : Prog TimeState Unit) (s : TimeState)
      (h : c.main.step c.mem = some (p, s)) : Step c none { c with main := p, mem := s }
  /-- The tone occurs. -/
  | tone (c : System) (hidle : c.isr = .done ()) :
      Step c (some .tone) { c with isr := tone1HzISR cfg }
  | isr (c : System) (p : Prog TimeState Unit) (s : TimeState)
      (h : c.isr.step c.mem = some (p, s)) : Step c none { c with isr := p, mem := s }
  | reader (c : System) (p : Prog TimeState ReadResult) (s : TimeState)
      (h : c.reader.step c.mem = some (p, s)) : Step c none { c with reader := p, mem := s }
  /-- The local clock and the hardware MET run. -/
  | clock (c : System) (t : SysTime) (met : BitVec 32) :
      Step c none { c with mem := { c.mem with
        intr := { c.mem.intr with localClock := t, localMET := met } } }

/-- Any number of steps. -/
inductive Run : System → System → Prop where
  | refl (c : System) : Run c c
  | step {c c' c'' : System} {e : Option Event} (h : Run c c') (hs : Step cfg c' e c'') : Run c c''

end Programs

end CfsEds.Time
