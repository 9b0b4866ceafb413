import CfsEds.Time.SystemRun

/-!
# Runs in which tones and messages do not overlap

The main task and the tone interrupt share the count of tones and the latch of the last one, and
neither is protected. If no tone falls into the processing of a message (`Calm`), then a run is
what the messages and tones do one after the other: each takes the reference and the variables
it is updated from to the next ones, as `Event.apply` says, with values that the clocks had while
it was processed (`Serial`). The events are those of the steps of the run, in their order, so
that none is lost and none is made twice (`updates_serial`).

At every point of such a run at most one program is under way, and what is known of it is what
the rules of `CfsEds.Time.Handlers` say about its rest (`CalmInv`). This is stated for all
conditions on the clocks that the values seen so far meet: when the program has ended, those
values themselves are one.

With a tone in the processing of a message it may be otherwise (`updates_not_serial`): the
interrupt has read the count of tones when a command sets it, and writes the old one plus one.
-/

namespace CfsEds.Time

open CfsEds.Lib.Interleave CfsEds.Lib.VersionedRing Prog List

/-- The main task is not processing a message, or no tone is being processed. -/
def Calm (c : System) : Prop := c.main = .done () ∨ c.isr = .done ()

/-- The messages and tones that were begun, the last one first, and the values that the clocks
have had since. -/
abbrev History := List (Event × List Clocks)

/-- A step began something or not, and the clocks are now `k`. -/
def History.note (event : Option Event) (k : Clocks) (h : History) : History :=
  match event, h with
  | some event, h => (event, [k]) :: h
  | none, (event, ks) :: h => (event, k :: ks) :: h
  | none, [] => []

/-- A run of which every state is calm. -/
inductive CalmRun (cfg : TimeConfig) (c : System) : History → System → Prop where
  | refl (h : Calm c) : CalmRun cfg c [] c
  | step {h : History} {event : Option Event} {c' c'' : System} (hrun : CalmRun cfg c h c')
      (hs : Step cfg c' event c'') (hcalm : Calm c'') :
      CalmRun cfg c (h.note event (clocks c''.mem.intr)) c''

/-- The messages and tones done completely, one after the other. -/
inductive Serial (cfg : TimeConfig) (d₀ : ReferenceData) (v₀ : TimeVars) :
    History → ReferenceData → TimeVars → Prop where
  | nil : Serial cfg d₀ v₀ [] d₀ v₀
  | cons {h : History} {d : ReferenceData} {v : TimeVars} (hs : Serial cfg d₀ v₀ h d v)
      (event : Event) (ks : List Clocks) (r : Readings) (hr : r.Of (· ∈ ks)) :
      Serial cfg d₀ v₀ ((event, ks) :: h) (event.apply cfg r d v).1 (event.apply cfg r d v).2

section

variable {cfg : TimeConfig} {d₀ : ReferenceData} {v₀ : TimeVars} {c c' : System} {h : History}
  {p p' : Prog TimeState Unit} {s t : TimeState}

/-- The program is the rest of what was begun last. -/
def Pending (cfg : TimeConfig) (d₀ : ReferenceData) (v₀ : TimeVars) (h : History)
    (p : Prog TimeState Unit) (s : TimeState) : Prop :=
  match h with
  | [] => p = .done () ∧ s.ref.Quiet bufIndex d₀ ∧ timeVars s.task s.intr = v₀
  | (event, ks) :: h => clocks s.intr ∈ ks ∧ ∃ d v, Serial cfg d₀ v₀ h d v ∧
    ∀ C : Clocks → Prop, (∀ k ∈ ks, C k) → wp (keeps (mainPart (withClocks C))) mainGuarantee.rel p
      (fun _ t => Performed cfg C event d v (mainPart (withClocks C) t)) s

/-- At most one of the two contexts has something to do. -/
def CalmInv (cfg : TimeConfig) (d₀ : ReferenceData) (v₀ : TimeVars) (h : History) (c : System) :
    Prop :=
  ∃ p, (c.main = p ∧ c.isr = .done () ∨ c.main = .done () ∧ c.isr = p) ∧
    Pending cfg d₀ v₀ h p c.mem

/-! ## Steps -/

theorem not_done_of_step {α : Type} {p p' : Prog TimeState α}
    (h : p.step s = some (p', t)) (a : α) : p ≠ .done a := by
  rintro rfl
  exact absurd h (by simp [Prog.step])

/-- No message is processed in no time. -/
theorem handle_ne_done (cfg : TimeConfig) (msg : Msg) : handle cfg msg ≠ .done () := by
  have hcommand : ∀ (c : Prop) [Decidable c] (p : Prog TimeState Unit),
      p ≠ .done () → command c p ≠ .done () := by
    intro c _ p hp
    rw [command]
    split
    · cases p with
      | done => exact absurd rfl hp
      | act => exact nofun
    · exact nofun
  cases msg with
  | toneSignal =>
    rw [handle, toneSignal, when]
    split <;> exact nofun
  | toneData | oneHz => exact nofun
  | setState | setSource | setDelay | setTime | setMET | setSTCF | setLeapSeconds | setAdjust
  | set1HzAdj => exact hcommand _ _ nofun

/-- What was begun last has ended. -/
theorem Pending.done (hp : Pending cfg d₀ v₀ h (.done ()) s) :
    ∃ d, Serial cfg d₀ v₀ h d (timeVars s.task s.intr) ∧ s.ref.Quiet bufIndex d := by
  match h with
  | [] =>
    obtain ⟨-, hquiet, hv⟩ := hp
    exact ⟨d₀, hv ▸ .nil, hquiet⟩
  | (event, ks) :: h =>
    obtain ⟨-, d, v, hserial, hwp⟩ := hp
    obtain ⟨r, hr, hquiet, hv⟩ := wp_done (hwp (· ∈ ks) fun _ hk => hk)
    change timeVars s.task s.intr = _ at hv
    rw [hv]
    exact ⟨_, hserial.cons event ks r hr, hquiet⟩

/-- The program takes a step. -/
theorem Pending.advance (hp : Pending cfg d₀ v₀ h p s) (hstep : p.step s = some (p', t)) :
    Pending cfg d₀ v₀ (h.note none (clocks t.intr)) p' t := by
  match h with
  | [] => exact absurd hp.1 (not_done_of_step hstep ())
  | (event, ks) :: h =>
    obtain ⟨-, d, v, hserial, hwp⟩ := hp
    refine ⟨mem_cons_self, d, v, hserial, fun C hC => ?_⟩
    exact (wp_step (hwp C fun k hk => hC k (mem_cons_of_mem _ hk)) hstep).2

/-- Others only move the clocks. -/
theorem Pending.wait (hp : Pending cfg d₀ v₀ h p s) (href : t.ref = s.ref)
    (hv : timeVars t.task t.intr = timeVars s.task s.intr) :
    Pending cfg d₀ v₀ (h.note none (clocks t.intr)) p t := by
  match h with
  | [] =>
    obtain ⟨hdone, hquiet, hv₀⟩ := hp
    exact ⟨hdone, href ▸ hquiet, hv.trans hv₀⟩
  | (event, ks) :: h =>
    obtain ⟨hin, d, v, hserial, hwp⟩ := hp
    refine ⟨mem_cons_self, d, v, hserial, fun C hC => ?_⟩
    refine wp_stable (hwp C fun k hk => hC k (mem_cons_of_mem _ hk)) ?_
    have hclocks : C (clocks t.intr) = C (clocks s.intr) :=
      propext (iff_of_true (hC _ mem_cons_self) (hC _ (mem_cons_of_mem _ hin)))
    show (t.ref, timeVars t.task t.intr, C (clocks t.intr)) = (s.ref, _, _)
    rw [href, hv, hclocks]

/-- An event begins when nothing else is under way. -/
theorem Pending.begin {event : Event} {d : ReferenceData}
    (hserial : Serial cfg d₀ v₀ h d (timeVars s.task s.intr)) (hquiet : s.ref.Quiet bufIndex d)
    (hp : ∀ C v, Main (withClocks C) (At (QuietAt d) (Known v)) p
      (fun _ => Performed cfg C event d v)) :
    Pending cfg d₀ v₀ (h.note (some event) (clocks s.intr)) p s :=
  ⟨mem_cons_self, d, _, hserial, fun C hC => hp C _ s ⟨hquiet, rfl, hC _ mem_cons_self⟩⟩

theorem tone_performed {C : Clocks → Prop} {d : ReferenceData} {v : TimeVars} :
    Main (withClocks C) (At (QuietAt d) (Known v)) (tone1HzISR cfg)
      (fun _ => Performed cfg C .tone d v) :=
  Triple.conseq tone1HzISR_performed (fun _ hw => hw) fun _ _ ⟨latch, hardware, hC, hw⟩ =>
    ⟨⟨latch, latch, hardware⟩, ⟨hC.1, hC.1, hC.2⟩, hw.1, hw.2.1⟩

/-- Nothing is under way. -/
theorem CalmInv.idle (hinv : CalmInv cfg d₀ v₀ h c) (hmain : c.main = .done ())
    (hisr : c.isr = .done ()) : ∃ d, Serial cfg d₀ v₀ h d (timeVars c.mem.task c.mem.intr) ∧
      c.mem.ref.Quiet bufIndex d := by
  obtain ⟨p, ⟨hp, -⟩ | ⟨-, hp⟩, hpending⟩ := hinv
  · rw [← hp, hmain] at hpending
    exact hpending.done
  · rw [← hp, hisr] at hpending
    exact hpending.done

/-- The two programs are as they were, and at most the clocks have moved. -/
theorem CalmInv.wait (hinv : CalmInv cfg d₀ v₀ h c) (hmain : c'.main = c.main)
    (hisr : c'.isr = c.isr) (href : c'.mem.ref = c.mem.ref)
    (hv : timeVars c'.mem.task c'.mem.intr = timeVars c.mem.task c.mem.intr) :
    CalmInv cfg d₀ v₀ (h.note none (clocks c'.mem.intr)) c' := by
  obtain ⟨p, hp, hpending⟩ := hinv
  rw [← hmain, ← hisr] at hp
  exact ⟨p, hp, hpending.wait href hv⟩

theorem CalmInv.step {event : Option Event} (hinv : CalmInv cfg d₀ v₀ h c) (hsys : SystemInv c)
    (hstep : Step cfg c event c') (hcalm : Calm c') :
    CalmInv cfg d₀ v₀ (h.note event (clocks c'.mem.intr)) c' := by
  cases hstep with
  | send => exact hinv.wait rfl rfl rfl rfl
  | clock => exact hinv.wait rfl rfl rfl rfl
  | reader p s hp =>
    obtain ⟨rfl, -⟩ := wp_step hsys.reader hp
    exact hinv.wait rfl rfl rfl rfl
  | dispatch msg rest hidle =>
    -- the interrupt is idle, or the new state would not be calm
    have hisr : c.isr = .done () := hcalm.resolve_left (handle_ne_done cfg msg)
    obtain ⟨d, hserial, hquiet⟩ := hinv.idle hidle hisr
    exact ⟨_, .inl ⟨rfl, hisr⟩, Pending.begin hserial hquiet fun _ _ => handle_processes msg⟩
  | tone hidle =>
    have hmain : c.main = .done () := hcalm.resolve_right nofun
    obtain ⟨d, hserial, hquiet⟩ := hinv.idle hmain hidle
    exact ⟨_, .inr ⟨hmain, rfl⟩, Pending.begin hserial hquiet fun _ _ => tone_performed⟩
  | main p s hp =>
    obtain ⟨q, ⟨rfl, hisr⟩ | ⟨hdone, -⟩, hpending⟩ := hinv
    · exact ⟨p, .inl ⟨rfl, hisr⟩, hpending.advance hp⟩
    · exact absurd hdone (not_done_of_step hp ())
  | isr p s hp =>
    obtain ⟨q, ⟨-, hdone⟩ | ⟨hmain, rfl⟩, hpending⟩ := hinv
    · exact absurd hdone (not_done_of_step hp ())
    · exact ⟨p, .inr ⟨hmain, rfl⟩, hpending.advance hp⟩

/-! ## Runs -/

theorem CalmRun.run (hrun : CalmRun cfg c h c') : Run cfg c c' := by
  induction hrun with
  | refl => exact .refl _
  | step _ hs _ ih => exact ih.step hs

theorem CalmRun.inv (hrun : CalmRun cfg c h c') (h₀ : Started c d₀) :
    CalmInv cfg d₀ (timeVars c.mem.task c.mem.intr) h c' := by
  induction hrun with
  | refl => exact ⟨.done (), .inl ⟨h₀.main, h₀.isr⟩, rfl, h₀.quiet, rfl⟩
  | step hprev hs hcalm ih => exact ih.step (hprev.run.inv h₀.inv) hs hcalm

/-- In a run in which no tone falls into the processing of a message, whenever neither is under
way the reference and the variables are what the messages and tones of the run give when they are
done completely and one after the other. -/
theorem updates_serial (h₀ : Started c d₀) (hrun : CalmRun cfg c h c') (hmain : c'.main = .done ())
    (hisr : c'.isr = .done ()) :
    ∃ d, Serial cfg d₀ (timeVars c.mem.task c.mem.intr) h d
        (timeVars c'.mem.task c'.mem.intr) ∧ c'.mem.ref.Current bufIndex d := by
  obtain ⟨d, hserial, hquiet⟩ := (hrun.inv h₀).idle hmain hisr
  exact ⟨d, hserial, hquiet.current⟩

end

/-! ## Schedules -/

/-- Every state of a schedule is calm, and its clock is below the rollover value. -/
def calmSchedule (cfg : TimeConfig) : System → List Choice → Bool
  | _, [] => true
  | c, choice :: choices =>
    let c' := c.exec cfg choice
    (c'.main.isDone || c'.isr.isDone) &&
      decide (c'.mem.intr.localClock.toNat < cfg.maxLocalClock.toNat) &&
      calmSchedule cfg c' choices

/-- What begins in a schedule, the last one first. -/
def begun (cfg : TimeConfig) : System → List Choice → List Event → List Event
  | _, [], events => events
  | c, choice :: choices, events =>
    begun cfg (c.exec cfg choice) choices ((c.begins choice).toList ++ events)

/-- The clocks of a history are below the rollover value. -/
def History.ClocksOk (cfg : TimeConfig) (h : History) : Prop :=
  ∀ x ∈ h, ∀ k ∈ x.2, k.localClock.toNat < cfg.maxLocalClock.toNat

section

variable {cfg : TimeConfig} {c c' : System} {h : History}

theorem History.ClocksOk.note {k : Clocks} (hok : h.ClocksOk cfg)
    (hk : k.localClock.toNat < cfg.maxLocalClock.toNat) (event : Option Event) :
    (h.note event k).ClocksOk cfg := by
  match event, h with
  | some event, h =>
    rintro x (_ | ⟨_, hx⟩)
    · simpa using hk
    · exact hok x hx
  | none, [] => exact hok
  | none, (event, ks) :: h =>
    rintro x (_ | ⟨_, hx⟩)
    · exact forall_mem_cons.mpr ⟨hk, hok _ mem_cons_self⟩
    · exact hok x (mem_cons_of_mem _ hx)

theorem History.map_fst_note (event : Option Event) (k : Clocks) (h : History) :
    (h.note event k).map Prod.fst = event.toList ++ h.map Prod.fst := by
  match event, h with
  | some event, h | none, [] | none, (event, ks) :: h => rfl

theorem CalmRun.exec (hrun : CalmRun cfg c h c') (hok : h.ClocksOk cfg) {choices : List Choice}
    (hcalm : calmSchedule cfg c' choices = true) :
    ∃ h' : History, CalmRun cfg c h' (choices.foldl (System.exec cfg) c') ∧ h'.ClocksOk cfg ∧
      h'.map Prod.fst = begun cfg c' choices (h.map Prod.fst) := by
  induction choices generalizing c' h with
  | nil => exact ⟨h, hrun, hok, rfl⟩
  | cons choice choices ih =>
    simp only [calmSchedule, Bool.and_eq_true, Bool.or_eq_true, decide_eq_true_eq] at hcalm
    obtain ⟨⟨hapart, hclock⟩, hrest⟩ := hcalm
    have hcalm' : Calm (c'.exec cfg choice) := hapart.imp eq_done_of_isDone eq_done_of_isDone
    rcases c'.exec_cases cfg choice with ⟨hsame, hnone⟩ | hstep
    · rw [hsame] at hrest
      rw [begun, foldl_cons, hsame, hnone]
      exact ih hrun hok hrest
    · rw [begun, ← History.map_fst_note _ (clocks (c'.exec cfg choice).mem.intr)]
      exact ih (hrun.step hstep hcalm') (hok.note (k := clocks _) hclock _) hrest

end

/-- A tone at a local time. -/
def toneAt (t : SysTime) : List Choice :=
  [.clock t 0#32, .tone] ++ List.replicate 12 .isr

/-- A message that is processed at a local time. -/
def messageAt (t : SysTime) (msg : Msg) : List Choice :=
  [.clock t 0#32, .send msg, .dispatch] ++ List.replicate 75 .main

/-- A new MET of 1000 s is commanded between a tone and its data message. -/
def metSchedule : List Choice :=
  toneAt ⟨1#32, 0#32⟩ ++ messageAt ⟨1#32, 0x10000000#32⟩ (.setMET ⟨1000#32, 0#32⟩) ++
    messageAt ⟨1#32, 0x1999999A#32⟩ (.toneData default)

/-- The final state of the schedule. -/
def metState : System := metSchedule.foldl (System.exec sampleConfig) sampleSystem

theorem updates_serial_met : ∃ h d, h.map Prod.fst =
      [.message (.toneData default), .message (.setMET ⟨1000#32, 0#32⟩), .tone] ∧
    Serial sampleConfig default
      (timeVars sampleSystem.mem.task sampleSystem.mem.intr) h d
      (timeVars metState.mem.task metState.mem.intr) ∧
    metState.mem.ref.Current bufIndex d ∧ d.atToneMET = ⟨1000#32, 0#32⟩ := by
  have hcalm : calmSchedule sampleConfig sampleSystem metSchedule = true := by decide +kernel
  obtain ⟨h, hrun, -, hevents⟩ :=
    CalmRun.exec (.refl (.inl rfl)) (fun _ hx => absurd hx not_mem_nil) hcalm
  replace hrun : CalmRun sampleConfig sampleSystem h metState := hrun
  obtain ⟨d, hserial, hcurrent⟩ := updates_serial sampleSystem_started hrun
    (eq_done_of_isDone (by decide +kernel)) (eq_done_of_isDone (by decide +kernel))
  have hmet : (metState.mem.ref.slots (bufIndex metState.mem.ref.last)).data.atToneMET =
      ⟨1000#32, 0#32⟩ := by decide +kernel
  rw [hcurrent.2] at hmet
  exact ⟨h, d, hevents.trans (by decide +kernel), hserial, hcurrent, hmet⟩

/-! ## A tone in the processing of a message -/

/-- The messages and the tone of the schedule above. -/
def metEvents : List Event :=
  [.message (.toneData default), .message (.setMET ⟨1000#32, 0#32⟩), .tone]

/-- In any order of them, a MET that was commanded is not set back. -/
structure MetKept (h : History) (d : ReferenceData) (v : TimeVars) : Prop where
  fly : d.clockFlyState = .noFly
  source : v.clockSource = .internal
  met : .message (.setMET ⟨1000#32, 0#32⟩) ∈ h.map Prod.fst → 1000 ≤ d.atToneMET.seconds.toNat ∧
    1000 ≤ v.virtualMET.toNat ∧ v.virtualMET.toNat ≤ 1000 + h.length

theorem toneUpdated_internal {d : ReferenceData} {v : TimeVars} (clock : SysTime)
    (hfly : d.clockFlyState = .noFly) (hsource : v.clockSource = .internal) :
    toneUpdated sampleConfig clock d v =
      ({ d with
          atToneLatch := v.toneSignalLatch
          clockFlyState := .noFly
          atToneMET := ⟨v.virtualMET, 0#32⟩ },
        { v with toneUses := v.toneUses ++
          [⟨v.toneEvents, v.toneSignalLatch, v.dataEvents, v.toneDataLatch⟩] }) := by
  have hserver : sampleConfig.server = true := rfl
  have hmet : toneMET sampleConfig (computeReference sampleConfig clock d) v = v.virtualMET := by
    have hnoFly : (computeReference sampleConfig clock d).clockFlyState = .noFly := hfly
    simp [toneMET, hserver, hsource, hnoFly]
  simp only [toneUpdated, hmet, Update.apply, hserver, if_true, serverTone, hsource]

theorem MetKept.toneData {h : History} {d : ReferenceData} {v : TimeVars} (hkept : MetKept h d v)
    (payload : PendingData) (ks : List Clocks) (r : Readings) :
    MetKept ((.message (.toneData payload), ks) :: h)
      ((Msg.toneData payload).apply sampleConfig r d v).1
      ((Msg.toneData payload).apply sampleConfig r d v).2 := by
  have hsame : .message (.setMET ⟨1000#32, 0#32⟩) ∈
      (((.message (.toneData payload), ks) :: h : History).map Prod.fst) →
      .message (.setMET ⟨1000#32, 0#32⟩) ∈ h.map Prod.fst := by simp
  rw [Msg.apply, if_pos (show sampleConfig.atToneWas = true from rfl), toneVerified]
  split
  · -- an update from the count of tones, which is at least what was commanded
    rw [toneUpdated_internal _ hkept.fly]
    · refine ⟨rfl, hkept.source, fun hin => ?_⟩
      obtain ⟨-, hmin, hmax⟩ := hkept.met (hsame hin)
      exact ⟨hmin, hmin, Nat.le_succ_of_le hmax⟩
    · exact hkept.source
  · refine ⟨hkept.fly, hkept.source, fun hin => ?_⟩
    obtain ⟨hmet, hmin, hmax⟩ := hkept.met (hsame hin)
    exact ⟨hmet, hmin, Nat.le_succ_of_le hmax⟩

theorem MetKept.tone {h : History} {d : ReferenceData} {v : TimeVars} (hkept : MetKept h d v)
    (hlength : h.length ≤ 2) (ks : List Clocks) (latch : SysTime) (localMET : BitVec 32) :
    MetKept ((.tone, ks) :: h) d (v.tone sampleConfig latch localMET) := by
  refine ⟨hkept.fly, hkept.source, fun hin => ?_⟩
  obtain ⟨hmet, hmin, hmax⟩ := hkept.met (by simpa using hin)
  refine ⟨hmet, ?_⟩
  rw [TimeVars.tone, length_cons]
  dsimp only
  split
  · rw [if_pos (show sampleConfig.virtualMET = true from rfl), BitVec.toNat_add]
    simp only [BitVec.toNat_ofNat]
    omega
  · omega

theorem Serial.metKept {h : History} {d : ReferenceData} {v : TimeVars}
    (hserial : Serial sampleConfig default (timeVars default default) h d v)
    (hevents : ∀ x ∈ h, x.1 ∈ metEvents) (hlength : h.length ≤ 3) : MetKept h d v := by
  induction hserial with
  | nil => exact ⟨rfl, rfl, nofun⟩
  | @cons h d v _ event ks r _ ih =>
    have hkept := ih (fun x hx => hevents x (mem_cons_of_mem _ hx)) (Nat.le_of_succ_le hlength)
    have hevent : event ∈ metEvents := hevents _ mem_cons_self
    simp only [metEvents, mem_cons, not_mem_nil, or_false] at hevent
    rcases hevent with rfl | rfl | rfl
    · exact hkept.toneData default ks r
    · have hle : 1000 ≤ (1000#32 : BitVec 32).toNat := by decide
      exact ⟨hkept.fly, hkept.source, fun _ => ⟨hle, hle, Nat.le_add_right _ _⟩⟩
    · exact hkept.tone (Nat.le_of_succ_le_succ hlength) ks _ _

/-- The command is processed after the interrupt has read the count of tones, and before it
writes the new one. -/
def raceSchedule : List Choice :=
  [.clock ⟨1#32, 0#32⟩ 0#32, .tone] ++ List.replicate 5 .isr ++
    messageAt ⟨1#32, 0x10000000#32⟩ (.setMET ⟨1000#32, 0#32⟩) ++ List.replicate 7 .isr ++
    messageAt ⟨1#32, 0x1999999A#32⟩ (.toneData default)

/-- The final state of the schedule. -/
def raceState : System := raceSchedule.foldl (System.exec sampleConfig) sampleSystem

/-- The MET at the tone is 1 s, which no order of the command, the tone and the data message
gives: the command is lost. -/
theorem updates_not_serial : Run sampleConfig sampleSystem raceState ∧
    begun sampleConfig sampleSystem raceSchedule [] = metEvents ∧
    ∃ d, raceState.mem.ref.Current bufIndex d ∧ d.atToneMET = ⟨1#32, 0#32⟩ ∧
      ∀ (h : History) (d' : ReferenceData) (v : TimeVars), (h.map Prod.fst).Perm metEvents →
        Serial sampleConfig default (timeVars sampleSystem.mem.task sampleSystem.mem.intr) h d' v →
        d' ≠ d := by
  have hslot : ∀ (x : Slot ReferenceData) (version : BitVec 32), x.version = version →
      x = ⟨version, x.data⟩ := by
    rintro x _ rfl
    rfl
  refine ⟨(Run.refl _).exec _, by decide +kernel,
    (raceState.mem.ref.slots (bufIndex raceState.mem.ref.last)).data, ⟨?_, ?_⟩, ?_, ?_⟩
  · decide +kernel
  · exact hslot _ _ (by decide +kernel)
  · decide +kernel
  · intro h d' v hperm hserial heq
    have hmem : ∀ {event}, event ∈ h.map Prod.fst ↔ event ∈ metEvents := hperm.mem_iff
    have hlength : h.length = 3 := by simpa [metEvents] using hperm.length_eq
    have hkept := hserial.metKept (fun x hx => hmem.mp (mem_map_of_mem hx)) hlength.le
    have hmet := (hkept.met (hmem.mpr (by simp [metEvents]))).1
    rw [heq] at hmet
    exact absurd hmet (by decide +kernel)

end CfsEds.Time
