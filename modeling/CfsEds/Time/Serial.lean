import CfsEds.Time.Reference

/-!
# What the main task does to the reference

`Update.apply` says what each update is for: which fields of the reference it sets, and
to what. `Event.apply` says the same for a whole message or tone: it takes the reference and
the variables that the reference is updated from (`TimeVars`) to the next ones, given what the
clocks read on the way. The programs are shown to do exactly that, one access at a time, as
long as nobody else writes these variables in between; the clocks may run and readers read.

A state of the main task is described by `At A B`: the ring meets `A`, and what is known of the
other variables is `B`. Between updates `A` is `QuietAt d`, and within one it is
`FillingAt next d e`, where `e` is what the next slot holds so far. There is a rule for every
access. The rules leave open what is looked at besides the ring, so that they also serve when
the interrupt runs in between and nothing else is known: every handler keeps to the protocol
of the ring then too (`Abides.handle_msg`). `CfsEds.Time.Handlers` has the handlers when it does
not.
-/

namespace CfsEds.Time

open CfsEds.Lib.Interleave CfsEds.Lib.VersionedRing Prog SysTime

/-! ## What messages and tones are for -/

/-- The functions that update the reference, with the values that the main task gives
them. -/
inductive Update where
  | setState (newState : ClockState)
  | setDelay (newDelay : SysTime) (direction : AdjustDirection)
  | setTime (newTime : SysTime)
  | setMET (newMET : SysTime)
  | setSTCF (newSTCF : SysTime)
  | setLeapSeconds (newLeaps : BitVec 16)
  | setAdjust (newAdjust : SysTime) (direction : AdjustDirection)
  | toneUpdate (clockSource : SourceSelect) (pending : PendingData)
  | local1Hz (adjust : SysTime) (direction : AdjustDirection)
  deriving DecidableEq, Repr

/-- What an update reads besides the reference. -/
structure Inputs where
  clock : SysTime
  toneLatch : SysTime
  virtualMET : BitVec 32

/-- The variables that decide on tone updates, and the record of the tones used. -/
structure ToneVars where
  prevTime1 : SysTime
  prevTime2 : SysTime
  toneDataLatch : SysTime
  dataEvents : Nat
  toneUses : List ToneUse
  toneSignalLatch : SysTime
  toneEvents : Nat

/-- The variables that the reference is updated from. -/
structure TimeVars extends ToneVars where
  clockSource : SourceSelect
  pending : PendingData
  oneHzAdjust : SysTime
  oneHzDirection : AdjustDirection
  forced2Fly : Bool
  virtualMET : BitVec 32

def timeVars (t : TaskData) (i : InterruptData) : TimeVars where
  prevTime1 := t.prevTime1
  prevTime2 := t.prevTime2
  toneDataLatch := t.toneDataLatch
  dataEvents := t.dataEvents
  toneUses := t.toneUses
  toneSignalLatch := i.toneSignalLatch
  toneEvents := i.toneEvents
  clockSource := t.clockSource
  pending := t.pending
  oneHzAdjust := t.oneHzAdjust
  oneHzDirection := t.oneHzDirection
  forced2Fly := t.forced2Fly
  virtualMET := i.virtualMET

/-- The clocks, which run by themselves. -/
structure Clocks where
  localClock : SysTime
  localMET : BitVec 32

def clocks (i : InterruptData) : Clocks := ⟨i.localClock, i.localMET⟩

/-- The clocks when a message or a tone is latched, when the reference is computed and when
the hardware MET is read. -/
structure Readings where
  latch : Clocks
  now : Clocks
  hardware : Clocks

/-- All of them meet a condition. -/
structure Readings.Of (r : Readings) (C : Clocks → Prop) : Prop where
  latch : C r.latch
  now : C r.now
  hardware : C r.hardware

section

variable (cfg : TimeConfig)

/-- The reference after a tone update of a server. -/
def serverTone (inp : Inputs) (clockSource : SourceSelect) (pending : PendingData)
    (d : ReferenceData) : ReferenceData :=
  let d := { d with atToneLatch := inp.toneLatch, clockFlyState := .noFly }
  match clockSource, cfg.src with
  | .internal, _ => { d with atToneMET := ⟨inp.virtualMET, 0#32⟩ }
  | .external, some .met => { d with atToneMET := pending.met }
  | .external, some .gps => { d with
      atToneMET := ⟨inp.virtualMET, 0#32⟩
      atToneSTCF := pending.stcf
      atToneLeapSeconds := pending.leaps }
  | .external, some .time => { d with
      atToneMET := ⟨inp.virtualMET, 0#32⟩
      atToneSTCF := pending.stcf }
  | .external, none => d

/-- The reference after a tone update of a client. -/
def clientTone (inp : Inputs) (pending : PendingData) (d : ReferenceData) : ReferenceData :=
  { d with
    atToneLatch := inp.toneLatch
    atToneMET := pending.met
    atToneSTCF := pending.stcf
    atToneLeapSeconds := pending.leaps
    clockSetState := if pending.state = .invalid then .notSet else .wasSet
    clockFlyState := .noFly }

/-- The reference after the 1Hz adjustment. -/
def adjusted1Hz (adjust : SysTime) (direction : AdjustDirection) (d : ReferenceData) :
    ReferenceData :=
  if cfg.server ∧ (adjust.seconds ≠ 0#32 ∨ adjust.subseconds ≠ 0#32) then
    { d with atToneSTCF := adjusted direction d.atToneSTCF adjust }
  else d

/-- The reference after the flywheel part of the 1Hz state machine. -/
def flywheel1Hz (inp : Inputs) (d : ReferenceData) : ReferenceData :=
  let reference := computeReference cfg inp.clock d
  if d.clockFlyState = .noFly then
    if cfg.startFly ≤ reference.timeSinceTone.seconds then { d with clockFlyState := .isFly }
    else d
  else if cfg.latchFly ≤ reference.timeSinceTone.seconds then
    { d with atToneMET := reference.currentMET, atToneLatch := inp.clock }
  else d

/-- What an update does to the reference, done completely. -/
def Update.apply (inp : Inputs) : Update → ReferenceData → ReferenceData
  | .setState .flywheel, d => { d with clockFlyState := .isFly }
  | .setState .valid, d => { d with clockSetState := .wasSet }
  | .setState .invalid, d => { d with clockSetState := .notSet }
  | .setDelay newDelay direction, d =>
    { d with atToneDelay := newDelay, delayDirection := direction }
  | .setTime newTime, d =>
    { d with atToneSTCF := newSTCF cfg (computeReference cfg inp.clock d) newTime }
  | .setMET newMET, d => { d with atToneMET := newMET, atToneLatch := inp.clock }
  | .setSTCF newSTCF, d => { d with atToneSTCF := newSTCF }
  | .setLeapSeconds newLeaps, d => { d with atToneLeapSeconds := newLeaps }
  | .setAdjust newAdjust direction, d =>
    { d with atToneSTCF := adjusted direction d.atToneSTCF newAdjust }
  | .toneUpdate clockSource pending, d =>
    if cfg.server then serverTone cfg inp clockSource pending d else clientTone inp pending d
  | .local1Hz adjust direction, d => flywheel1Hz cfg inp (adjusted1Hz cfg adjust direction d)

/-- The variables after a tone. -/
def TimeVars.tone (latch : SysTime) (localMET : BitVec 32) (v : TimeVars) : TimeVars :=
  { v with
    toneSignalLatch := latch
    toneEvents := v.toneEvents + 1
    virtualMET :=
      if ToneInTime cfg (timeSince cfg v.toneSignalLatch latch) then
        if cfg.virtualMET then v.virtualMET + 1#32 else localMET
      else v.virtualMET }

/-- The count of tones after a tone update. -/
def toneMET (reference : Reference) (v : TimeVars) : BitVec 32 :=
  if cfg.server then
    match v.clockSource, cfg.src with
    | .internal, _ =>
      if reference.clockFlyState = .isFly then reference.currentMET.seconds else v.virtualMET
    | .external, some .met => v.pending.met.seconds
    | .external, _ => v.virtualMET
  else v.virtualMET

/-- A tone update is made. -/
def toneUpdated (clock : SysTime) (d : ReferenceData) (v : TimeVars) : ReferenceData × TimeVars :=
  let virtualMET := toneMET cfg (computeReference cfg clock d) v
  ((Update.toneUpdate v.clockSource v.pending).apply cfg ⟨clock, v.toneSignalLatch, virtualMET⟩ d,
    { v with
      virtualMET
      toneUses := v.toneUses ++
        [⟨v.toneEvents, v.toneSignalLatch, v.dataEvents, v.toneDataLatch⟩] })

/-- The latches are new, the time between them is within limits, and no flywheel was
commanded. -/
def ToneAccepted (time1 time2 : SysTime) (v : TimeVars) : Prop :=
  v.prevTime1 ≠ time1 ∧ v.prevTime2 ≠ time2 ∧ ElapsedOk cfg (toneElapsed cfg time1 time2) ∧
    v.forced2Fly = false

instance (time1 time2 : SysTime) (v : TimeVars) : Decidable (ToneAccepted cfg time1 time2 v) :=
  inferInstanceAs (Decidable (_ ∧ _))

/-- A tone and a data message are verified. -/
def toneVerified (clock time1 time2 : SysTime) (d : ReferenceData) (v : TimeVars) :
    ReferenceData × TimeVars :=
  let x := if ToneAccepted cfg time1 time2 v then toneUpdated cfg clock d v else (d, v)
  (x.1, { x.2 with prevTime1 := time1, prevTime2 := time2 })

/-- What the main task makes of a message. -/
def Msg.apply (r : Readings) (msg : Msg) (d : ReferenceData) (v : TimeVars) :
    ReferenceData × TimeVars :=
  let made (u : Update) := u.apply cfg ⟨r.now.localClock, v.toneSignalLatch, v.virtualMET⟩ d
  match msg with
  | .setState newState =>
    (made (.setState newState), { v with forced2Fly := decide (newState = .flywheel) })
  | .setSource newSource =>
    if cfg.src.isSome then (d, { v with clockSource := newSource }) else (d, v)
  | .setDelay newDelay direction =>
    if ¬ cfg.server then (made (.setDelay newDelay direction), v) else (d, v)
  | .setTime newTime => if cfg.server then (made (.setTime newTime), v) else (d, v)
  | .setMET newMET =>
    if cfg.server then (made (.setMET newMET), { v with virtualMET := newMET.seconds }) else (d, v)
  | .setSTCF newSTCF => if cfg.server then (made (.setSTCF newSTCF), v) else (d, v)
  | .setLeapSeconds newLeaps => if cfg.server then (made (.setLeapSeconds newLeaps), v) else (d, v)
  | .setAdjust newAdjust direction =>
    if cfg.server then (made (.setAdjust newAdjust direction), v) else (d, v)
  | .set1HzAdj newAdjust direction =>
    if cfg.server then (d, { v with oneHzAdjust := newAdjust, oneHzDirection := direction })
    else (d, v)
  | .toneSignal =>
    if ¬ cfg.atToneWas then toneVerified cfg r.now.localClock v.toneDataLatch v.toneSignalLatch d v
    else (d, v)
  | .toneData payload =>
    let v := { v with
      toneDataLatch := r.latch.localClock, pending := payload, dataEvents := v.dataEvents + 1 }
    if cfg.atToneWas then
      toneVerified cfg r.now.localClock v.toneSignalLatch v.toneDataLatch d v
    else (d, v)
  | .oneHz =>
    (made (.local1Hz v.oneHzAdjust v.oneHzDirection),
      if cfg.fakeTone then v.tone cfg r.latch.localClock r.hardware.localMET else v)

/-- What is made of a message or of a tone. -/
def Event.apply (r : Readings) (d : ReferenceData) (v : TimeVars) :
    Event → ReferenceData × TimeVars
  | .message msg => msg.apply cfg r d v
  | .tone => (d, v.tone cfg r.latch.localClock r.hardware.localMET)

end

/-! ## Rules for the main task -/

/-- What the main task may do: write to the ring by its protocol, and note tones. -/
def mainGuarantee : Rely TimeState where
  rel s t := s.ref.Grows bufIndex t.ref ∧ s.task.toneUses <+: t.task.toneUses
  refl s := ⟨Ring.Grows.refl s.ref, List.prefix_rfl⟩
  trans h₁ h₂ := ⟨h₁.1.trans h₂.1, h₁.2.trans h₂.2⟩

/-- The ring, and what is looked at besides it. -/
def mainPart {γ : Type} (look : TaskData → InterruptData → γ) (s : TimeState) :
    Ring (Fin 4) ReferenceData × γ :=
  (s.ref, look s.task s.intr)

/-- A triple about the main task. -/
def Main {α γ : Type} (look : TaskData → InterruptData → γ)
    (P : Ring (Fin 4) ReferenceData × γ → Prop) (p : Prog TimeState α)
    (Q : α → Ring (Fin 4) ReferenceData × γ → Prop) : Prop :=
  Triple (mainPart look) mainGuarantee.rel P p Q

/-- The ring meets `A`, and what is looked at besides meets `B`. -/
def At {γ : Type} (A : Ring (Fin 4) ReferenceData → Prop) (B : γ → Prop)
    (w : Ring (Fin 4) ReferenceData × γ) : Prop :=
  A w.1 ∧ B w.2

/-- No update is under way, and the reference is `d`. -/
def QuietAt (d : ReferenceData) (r : Ring (Fin 4) ReferenceData) : Prop := r.Quiet bufIndex d

/-- An update from `d` is under way, and `e` is in the slot `next` so far. -/
def FillingAt (next : Fin 4) (d e : ReferenceData) (r : Ring (Fin 4) ReferenceData) : Prop :=
  r.Filling bufIndex d e ∧ bufIndex (r.last + 1#32) = next

/-- While the records are copied, the current one is that of the last version. -/
def CopyingAt (curr next : Fin 4) (d e : ReferenceData) (r : Ring (Fin 4) ReferenceData) :
    Prop :=
  FillingAt next d e r ∧ bufIndex r.last = curr

/-- No update is under way, and `v` is the last version. -/
def LastAt (v : BitVec 32) (d : ReferenceData) (r : Ring (Fin 4) ReferenceData) : Prop :=
  QuietAt d r ∧ r.last = v

/-- The next slot is another one. -/
theorem bufIndex_succ_ne (version : BitVec 32) : bufIndex (version + 1#32) ≠ bufIndex version := by
  intro h
  have hval := congrArg Fin.val h
  have hmask : ∀ v : BitVec 32, (v &&& 3#32).toNat = v.toNat % 4 := by
    intro v
    exact Nat.and_two_pow_sub_one_eq_mod v.toNat 2
  simp only [bufIndex, hmask, BitVec.toNat_add, BitVec.toNat_ofNat] at hval
  omega

namespace Main

variable {α β γ : Type} {look : TaskData → InterruptData → γ}
  {A : Ring (Fin 4) ReferenceData → Prop} {B B' : γ → Prop} {k : β → Prog TimeState α}
  {P : Ring (Fin 4) ReferenceData × γ → Prop} {Q : α → Ring (Fin 4) ReferenceData × γ → Prop}
  {d e : ReferenceData} {curr next : Fin 4} {v : BitVec 32}

/-- A statement that leaves `P'`, then the rest. -/
theorem seq {p : Prog TimeState β} {R : Ring (Fin 4) ReferenceData × γ → Prop}
    (hp : Main look P p (fun _ => R)) (hk : ∀ b, Main look R (k b) Q) :
    Main look P (p >>= k) Q :=
  Triple.bind hp hk

/-- What is read may be anything. -/
theorem read_any (f : TimeState → β) : Main look P (read f) (fun _ => P) :=
  Triple.read mainGuarantee.refl fun _ hs => hs

/-- What is read is known. -/
theorem read_known {f : TimeState → β} {b : β}
    (hf : ∀ s : TimeState, B (look s.task s.intr) → f s = b)
    (h : Main look (At A B) (k b) Q) : Main look (At A B) (read f >>= k) Q :=
  Triple.bind (Q := fun b' w => b' = b ∧ At A B w)
    (Triple.read mainGuarantee.refl fun s hs => ⟨hf s hs.2, hs⟩) fun _ =>
    Triple.of_pure fun hb => hb ▸ h

theorem set_task {g : TaskData → TaskData} (hg : ∀ t, (g t).toneUses = t.toneUses)
    (hB : ∀ t i, B (look t i) → B' (look (g t) i)) :
    Main look (At A B) (setTask g) (fun _ => At A B') := by
  refine Triple.write fun s hs => ⟨⟨Ring.Grows.refl s.ref, ?_⟩, hs.1, hB _ _ hs.2⟩
  show s.task.toneUses <+: (g s.task).toneUses
  rw [hg]

theorem set_intr {g : InterruptData → InterruptData}
    (hB : ∀ t i, B (look t i) → B' (look t (g i))) :
    Main look (At A B) (setIntr g) (fun _ => At A B') :=
  Triple.write fun s hs => ⟨mainGuarantee.refl s, hs.1, hB _ _ hs.2⟩

theorem when_keeps {c : Prop} [Decidable c] {p : Prog TimeState Unit}
    (hp : c → Main look P p (fun _ => P)) : Main look P (when c p) (fun _ => P) :=
  Triple.ite hp fun _ => Triple.pure fun _ hw => hw

/-! ### Words of the next record -/

theorem read_cell (c : Cell β) (h : Main look (At (FillingAt next d e) B) (k (c.get e)) Q) :
    Main look (At (FillingAt next d e) B) (readCell next c >>= k) Q := by
  refine Triple.bind (Q := fun b w => b = c.get e ∧ At (FillingAt next d e) B w)
    (Triple.read mainGuarantee.refl fun s hs => ⟨?_, hs⟩) fun b => Triple.of_pure fun hb => hb ▸ h
  obtain ⟨⟨hfill, rfl⟩, -⟩ := hs
  exact congrArg (fun slot => c.get slot.data) hfill.next

theorem read_time {k : SysTime → Prog TimeState α} (c : TimeCell)
    (h : Main look (At (FillingAt next d e) B) (k ⟨c.seconds.get e, c.subseconds.get e⟩) Q) :
    Main look (At (FillingAt next d e) B) (readTime next c >>= k) Q :=
  read_cell c.seconds (read_cell c.subseconds h)

theorem write_cell (c : Cell β) (v : β) :
    Main look (At (FillingAt next d e) B) (writeCell next c v)
      (fun _ => At (FillingAt next d (c.set v e)) B) := by
  refine Triple.write fun s hs => ?_
  obtain ⟨⟨hfill, rfl⟩, hB⟩ := hs
  exact ⟨⟨hfill.grows_fill (bufIndex_succ_ne _) _, List.prefix_rfl⟩,
    ⟨hfill.fill (bufIndex_succ_ne _) _, rfl⟩, hB⟩

theorem write_time (c : TimeCell) (v : SysTime) :
    Main look (At (FillingAt next d e) B) (writeTime next c v)
      (fun _ => At (FillingAt next d (c.subseconds.set v.subseconds (c.seconds.set v.seconds e)))
        B) :=
  Triple.bind (write_cell c.seconds v.seconds) fun _ => write_cell c.subseconds v.subseconds

theorem copy_cell (c : Cell β) : Main look (At (CopyingAt curr next d e) B) (copyCell curr next c)
      (fun _ => At (CopyingAt curr next d (c.set (c.get d) e)) B) := by
  refine Triple.bind (Q := fun b w => b = c.get d ∧ At (CopyingAt curr next d e) B w)
    (Triple.read mainGuarantee.refl fun s hs => ⟨?_, hs⟩) fun b => Triple.of_pure fun hb => ?_
  · obtain ⟨⟨hfill, rfl⟩, -⟩ := hs
    exact congrArg (fun slot => c.get slot.data) hfill.1.current.2
  · subst hb
    refine Triple.write fun s hs => ?_
    obtain ⟨⟨⟨hfill, rfl⟩, hcurr⟩, hB⟩ := hs
    exact ⟨⟨hfill.grows_fill (bufIndex_succ_ne _) _, List.prefix_rfl⟩,
      ⟨⟨hfill.fill (bufIndex_succ_ne _) _, rfl⟩, hcurr⟩, hB⟩

theorem copy_time (c : TimeCell) :
    Main look (At (CopyingAt curr next d e) B) (copyTime curr next c)
      (fun _ => At (CopyingAt curr next d (c.subseconds.set (c.subseconds.get d)
        (c.seconds.set (c.seconds.get d) e))) B) :=
  Triple.bind (copy_cell c.seconds) fun _ => copy_cell c.subseconds

/-! ### Starting and finishing an update -/

/-- After the start of an update the next record is a copy of the current one. -/
theorem start : Main look (At (QuietAt d) B) startReferenceUpdate
      (fun next => At (FillingAt next d d) B) := by
  refine Triple.bind (Q := fun version w => w.1.last = version ∧ At (QuietAt d) B w)
    (Triple.read mainGuarantee.refl fun s hs => ⟨rfl, hs⟩) fun version => ?_
  -- what the slot held before is overwritten
  refine Triple.bind (Q := fun _ w => ∃ e,
    At (CopyingAt (bufIndex version) (bufIndex (version + 1#32)) d e) B w) ?_ fun _ => ?_
  · refine Triple.write fun s hs => ?_
    obtain ⟨hlast, hquiet, hB⟩ := hs
    change s.ref.last = version at hlast
    subst hlast
    exact ⟨⟨Ring.Quiet.grows_stamp hquiet (bufIndex_succ_ne _), List.prefix_rfl⟩, _,
      ⟨⟨Ring.Quiet.stamp hquiet (bufIndex_succ_ne _), rfl⟩, rfl⟩, hB⟩
  · refine Triple.exists_pre fun e => ?_
    refine seq (copy_cell _) fun _ => seq (copy_cell _) fun _ => seq (copy_cell _) fun _ =>
      seq (copy_cell _) fun _ => seq (copy_time _) fun _ => seq (copy_time _) fun _ =>
      seq (copy_time _) fun _ => seq (copy_time _) fun _ => Triple.pure fun w hw => ?_
    simp only [Cell.leapSeconds, Cell.setState, Cell.flyState, Cell.direction, Cell.met,
      Cell.stcf, Cell.delay, Cell.latch] at hw
    exact ⟨hw.1.1, hw.2⟩

theorem finish : Main look (At (FillingAt next d e) B) (finishReferenceUpdate next)
      (fun _ => At (QuietAt e) B) := by
  refine Triple.bind (Q := fun version w => version = w.1.last + 1#32 ∧
      At (FillingAt next d e) B w)
    (Triple.read mainGuarantee.refl fun s hs => ⟨?_, hs⟩) fun version => ?_
  · obtain ⟨⟨hfill, rfl⟩, -⟩ := hs
    exact congrArg Slot.version hfill.next
  · refine Triple.write fun s hs => ?_
    obtain ⟨rfl, ⟨hfill, -⟩, hB⟩ := hs
    exact ⟨⟨hfill.grows_publish, List.prefix_rfl⟩, hfill.publish, hB⟩

/-! ### Reading the reference -/

theorem read_last_cell (c : Cell β) (h : Main look (At (LastAt v d) B) (k (c.get d)) Q) :
    Main look (At (LastAt v d) B) (readCell (bufIndex v) c >>= k) Q := by
  refine Triple.bind (Q := fun b w => b = c.get d ∧ At (LastAt v d) B w)
    (Triple.read mainGuarantee.refl fun s hs => ⟨?_, hs⟩) fun b => Triple.of_pure fun hb => hb ▸ h
  obtain ⟨⟨hquiet, rfl⟩, -⟩ := hs
  exact congrArg (fun slot => c.get slot.data) hquiet.current.2

theorem read_last_time {k : SysTime → Prog TimeState α} (c : TimeCell)
    (h : Main look (At (LastAt v d) B) (k ⟨c.seconds.get d, c.subseconds.get d⟩) Q) :
    Main look (At (LastAt v d) B) (readTime (bufIndex v) c >>= k) Q :=
  read_last_cell c.seconds (read_last_cell c.subseconds h)

/-- A clock that is known to meet `C` is read. -/
theorem read_clock {C : Clocks → Prop} (hC : ∀ t i, B (look t i) → C (clocks i))
    (f : Clocks → β) : Main look (At A B) (read fun s => f (clocks s.intr))
      (fun b w => (∃ k, C k ∧ b = f k) ∧ At A B w) :=
  Triple.read mainGuarantee.refl fun s hs => ⟨⟨clocks s.intr, hC _ _ hs.2, rfl⟩, hs⟩

/-- The main task copies the reference as it is: nobody else updates it. -/
theorem copy_reference {C : Clocks → Prop} (hC : ∀ t i, B (look t i) → C (clocks i)) :
    Main look (At (QuietAt d) B) copyReference (fun copy w =>
      (∃ k, C k ∧ copy = (true, k.localClock, d)) ∧ At (QuietAt d) B w) := by
  refine Triple.bind (Q := fun v w => At (LastAt v d) B w)
    (Triple.read mainGuarantee.refl fun s hs => ⟨⟨hs.1, rfl⟩, hs.2⟩) fun v => ?_
  refine Triple.bind (read_clock hC (·.localClock)) fun clock => Triple.of_pure fun ⟨k, hk, hclock⟩ => ?_
  refine read_last_time _ (read_last_time _ (read_last_cell _ (read_last_time _
    (read_last_time _ (read_last_cell _ (read_last_cell _ (read_last_cell _ ?_)))))))
  refine Triple.bind (Q := fun version w => version = v ∧ At (QuietAt d) B w)
    (Triple.read mainGuarantee.refl fun s hs => ?_) fun version => Triple.pure fun w hw => ?_
  · obtain ⟨⟨hquiet, rfl⟩, hB⟩ := hs
    exact ⟨congrArg Slot.version hquiet.current.2, hquiet, hB⟩
  · obtain ⟨rfl, hw⟩ := hw
    refine ⟨⟨k, hk, ?_⟩, hw⟩
    simp only [decide_true, ← hclock]
    rfl

theorem get_reference {C : Clocks → Prop} (hC : ∀ t i, B (look t i) → C (clocks i))
    (cfg : TimeConfig) : Main look (At (QuietAt d) B) (getReference cfg) (fun reference w =>
      (∃ k, C k ∧ reference = computeReference cfg k.localClock d) ∧ At (QuietAt d) B w) := by
  refine Triple.bind (Q := fun result w => (∃ k, C k ∧ result = ⟨true, 4, k.localClock, d⟩) ∧
      At (QuietAt d) B w) ?_ fun result => Triple.of_pure fun ⟨k, hk, hresult⟩ => ?_
  · refine Triple.bind (copy_reference hC) fun copy => Triple.of_pure fun ⟨k, hk, hcopy⟩ => ?_
    subst hcopy
    exact Triple.pure fun w hw => ⟨⟨k, hk, rfl⟩, hw⟩
  · subst hresult
    exact Triple.pure fun w hw => ⟨⟨k, hk, rfl⟩, hw⟩

end Main

/-! ## The protocol of the ring

With the interrupt running in between, all that is known is that an update is under way or
not. -/

section Protocol

variable {cfg : TimeConfig} {α β : Type}

/-- Nothing but the ring is looked at. -/
def ringOnly (_ : TaskData) (_ : InterruptData) : Unit := ()

def Idle (w : Ring (Fin 4) ReferenceData × Unit) : Prop := ∃ d, QuietAt d w.1

def Busy (next : Fin 4) (w : Ring (Fin 4) ReferenceData × Unit) : Prop :=
  ∃ d e, FillingAt next d e w.1

/-- The program leaves the ring in a state like the one it found. -/
def Abides (P : Ring (Fin 4) ReferenceData × Unit → Prop) (p : Prog TimeState α) : Prop :=
  Main ringOnly P p (fun _ => P)

namespace Abides

variable {P : Ring (Fin 4) ReferenceData × Unit → Prop} {next : Fin 4}

theorem pure (a : α) : Abides P (Pure.pure a) := Triple.pure fun _ hw => hw

theorem bind {p : Prog TimeState α} {k : α → Prog TimeState β} (hp : Abides P p)
    (hk : ∀ a, Abides P (k a)) : Abides P (p >>= k) :=
  Triple.bind hp hk

theorem read (f : TimeState → β) : Abides P (Prog.read f) := Main.read_any f

theorem ite {c : Prop} [Decidable c] {p q : Prog TimeState α} (hp : Abides P p)
    (hq : Abides P q) : Abides P (if c then p else q) :=
  Triple.ite (fun _ => hp) fun _ => hq

theorem when {c : Prop} [Decidable c] {p : Prog TimeState Unit} (hp : Abides P p) :
    Abides P (when c p) :=
  ite hp (pure ())

theorem write {g : TimeState → TimeState} (href : ∀ s, (g s).ref = s.ref)
    (huses : ∀ s, s.task.toneUses <+: (g s).task.toneUses) : Abides P (Prog.write g) := by
  refine Triple.write fun s hs => ⟨⟨?_, huses s⟩, ?_⟩
  · rw [href]
    exact Ring.Grows.refl s.ref
  · rw [mainPart, href]
    exact hs

theorem set_intr (g : InterruptData → InterruptData) : Abides P (setIntr g) :=
  write (fun _ => rfl) fun _ => List.prefix_rfl

theorem read_latch : Abides P readToneSignalLatch :=
  bind (read _) fun _ => bind (read _) fun _ => pure _

theorem write_cell (c : Cell β) (b : β) : Abides (Busy next) (writeCell next c b) :=
  fun s ⟨d, _, h⟩ => wp_mono (Main.write_cell (B := fun _ => True) c b s ⟨h, trivial⟩)
    fun _ _ ht => ⟨d, _, ht.1⟩

theorem read_time (i : Fin 4) (c : TimeCell) : Abides P (readTime i c) :=
  bind (read _) fun _ => bind (read _) fun _ => pure _

theorem write_time (c : TimeCell) (t : SysTime) : Abides (Busy next) (writeTime next c t) :=
  bind (write_cell _ _) fun _ => write_cell _ _

theorem get_reference : Abides Idle (getReference cfg) :=
  fun s ⟨d, h⟩ => wp_mono (Main.get_reference (B := fun _ => True) (C := fun _ => True)
    (fun _ _ _ => trivial) cfg s ⟨h, trivial⟩) fun _ _ ht => ⟨d, ht.2.1⟩

/-- The rest of an update. -/
def Closes (next : Fin 4) (p : Prog TimeState Unit) : Prop :=
  Main ringOnly (Busy next) p (fun _ => Idle)

theorem closes_bind {p : Prog TimeState α} {k : α → Prog TimeState Unit}
    (hp : Abides (Busy next) p) (hk : ∀ a, Closes next (k a)) : Closes next (p >>= k) :=
  Triple.bind hp hk

theorem closes_finish : Closes next (finishReferenceUpdate next) :=
  fun s ⟨_, e, h⟩ => wp_mono (Main.finish (B := fun _ => True) s ⟨h, trivial⟩)
    fun _ _ ht => ⟨e, ht.1⟩

theorem update {k : Fin 4 → Prog TimeState Unit} (hk : ∀ next, Closes next (k next)) :
    Abides Idle (startReferenceUpdate >>= k) :=
  Triple.bind (Q := Busy) (fun s ⟨d, h⟩ =>
    wp_mono (Main.start (B := fun _ => True) s ⟨h, trivial⟩) fun _ _ ht => ⟨d, d, ht.1⟩) hk

theorem set_task {g : TaskData → TaskData} (hg : ∀ t, (g t).toneUses = t.toneUses) :
    Abides P (setTask g) :=
  write (fun _ => rfl) fun s => by simp only [hg, List.prefix_rfl]

theorem set_state (newState : ClockState) : Abides Idle (setState cfg newState) := by
  refine update fun next => ?_
  cases newState with
  | flywheel =>
    exact closes_bind (set_task fun _ => rfl) fun _ => closes_bind (write_cell _ _) fun _ =>
      closes_bind (when (set_task fun _ => rfl)) fun _ => closes_finish
  | valid | invalid =>
    exact closes_bind (set_task fun _ => rfl) fun _ => closes_bind (write_cell _ _) fun _ =>
      closes_finish

theorem write_virtualMET : Abides (Busy next) (writeVirtualMET next) :=
  bind (read _) fun _ => bind (write_cell _ _) fun _ => write_cell _ _

theorem server_update (reference : Reference) (clockSource : SourceSelect)
    (pending : PendingData) :
    Abides (Busy next) (serverUpdate cfg next reference clockSource pending) := by
  have hfly : Abides (Busy next) (do
      let clockFlyState ← readCell next Cell.flyState
      Time.when (clockFlyState = .isFly) do
        writeCell next Cell.flyState .noFly
        setTask fun t => { t with serverFlyState := .noFly }) :=
    bind (read _) fun _ => when (bind (write_cell _ _) fun _ => set_task fun _ => rfl)
  unfold serverUpdate
  cases clockSource with
  | internal =>
    exact bind (read _) fun _ => bind (when (set_intr _)) fun _ =>
      bind write_virtualMET fun _ => hfly
  | external =>
    rcases cfg.src with _ | _ | _ | _
    · exact hfly
    · exact bind (write_time _ _) fun _ => bind (set_intr _) fun _ => hfly
    · exact bind write_virtualMET fun _ => bind (write_time _ _) fun _ =>
        bind (write_cell _ _) fun _ => hfly
    · exact bind write_virtualMET fun _ => bind (write_time _ _) fun _ => hfly

theorem client_update (pending : PendingData) : Abides (Busy next) (clientUpdate next pending) := by
  refine bind (write_time _ _) fun _ => bind (write_time _ _) fun _ =>
    bind (write_cell _ _) fun _ => ?_
  cases pending.state with
  | invalid | flywheel | valid =>
    exact bind (write_cell _ _) fun _ => bind (set_task fun _ => rfl) fun _ =>
      bind (read _) fun _ => when (write_cell _ _)

theorem tone_verify (time1 time2 : SysTime) : Abides Idle (toneVerify cfg time1 time2) := by
  have hmismatch : Abides Idle toneMismatch := set_task fun _ => rfl
  have hupdate : Abides Idle (toneUpdate cfg) :=
    bind (read _) fun _ => bind (read _) fun _ => bind get_reference fun _ => update fun _ =>
      closes_bind read_latch fun _ =>
      closes_bind (write (fun _ => rfl) fun _ => List.prefix_append _ _) fun _ =>
      closes_bind (write_time _ _) fun _ =>
      closes_bind (ite (server_update _ _ _) (client_update _)) fun _ => closes_finish
  refine bind (bind (read _) fun _ => ite hmismatch (bind (read _) fun _ =>
    ite hmismatch (ite ?_ hmismatch))) fun _ => set_task fun _ => rfl
  exact bind (set_task fun _ => rfl) fun _ => bind (read _) fun _ => when hupdate

theorem tone_isr : Abides P (tone1HzISR cfg) := by
  refine bind (read _) fun _ => bind read_latch fun _ => bind (ite ?_ (set_intr _)) fun _ =>
    bind (set_intr _) fun _ => set_intr _
  exact bind (set_intr _) fun _ => ite (bind (read _) fun _ => set_intr _)
    (bind (read _) fun _ => set_intr _)

theorem local1Hz : Abides Idle (local1HzStateMachine cfg) := by
  refine bind (read _) fun _ => bind (read _) fun _ => bind (when ?_) fun _ =>
    bind get_reference fun _ => bind (when ?_) fun _ => when ?_
  · exact update fun _ => closes_bind (read_time _ _) fun _ =>
      closes_bind (write_time _ _) fun _ => closes_finish
  · exact update fun _ => closes_bind (write_cell _ _) fun _ =>
      closes_bind (when (set_task fun _ => rfl)) fun _ => closes_bind (set_intr _) fun _ =>
      closes_finish
  · exact update fun _ => closes_bind (write_time _ _) fun _ =>
      closes_bind (write_time _ _) fun _ => closes_finish

theorem command {c : Prop} [Decidable c] {p : Prog TimeState Unit} (hp : Abides P p) :
    Abides P (command c p) :=
  ite (bind hp fun _ => set_task fun _ => rfl) (set_task fun _ => rfl)

/-- Every handler keeps to the protocol of the ring. -/
theorem handle_msg (msg : Msg) : Abides Idle (handle cfg msg) := by
  cases msg with
  | setState newState => exact command (set_state newState)
  | setSource | set1HzAdj => exact command (set_task fun _ => rfl)
  | setDelay =>
    exact command (update fun _ => closes_bind (write_time _ _) fun _ =>
      closes_bind (write_cell _ _) fun _ => closes_finish)
  | setTime =>
    exact command (bind get_reference fun _ => update fun _ =>
      closes_bind (write_time _ _) fun _ => closes_finish)
  | setMET =>
    exact command (update fun _ => closes_bind (write_time _ _) fun _ =>
      closes_bind (set_intr _) fun _ => closes_bind (read _) fun _ =>
      closes_bind (write_time _ _) fun _ => closes_bind (when (set_intr _)) fun _ => closes_finish)
  | setSTCF => exact command (update fun _ => closes_bind (write_time _ _) fun _ => closes_finish)
  | setLeapSeconds =>
    exact command (update fun _ => closes_bind (write_cell _ _) fun _ => closes_finish)
  | setAdjust =>
    exact command (update fun _ => closes_bind (set_task fun _ => rfl) fun _ =>
      closes_bind (read_time _ _) fun _ => closes_bind (write_time _ _) fun _ => closes_finish)
  | toneSignal =>
    exact bind (when (bind (read _) fun _ => bind read_latch fun _ => tone_verify _ _)) fun _ =>
      set_task fun _ => rfl
  | toneData =>
    exact bind (read _) fun _ => bind (set_task fun _ => rfl) fun _ =>
      bind (when (bind read_latch fun _ => bind (read _) fun _ => tone_verify _ _)) fun _ =>
      set_task fun _ => rfl
  | oneHz => exact bind local1Hz fun _ => when tone_isr

end Abides

end Protocol

end CfsEds.Time
