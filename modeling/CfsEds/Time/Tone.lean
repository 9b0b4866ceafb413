import CfsEds.Time.CalmRun
import CfsEds.Time.Rollover

/-!
# Pairing of tones and data messages

A tone update is made from the latch of a tone and the data message that belongs to it. The
interrupt latches the clock at a tone, and the main task latches it again when it processes
the message. `CFE_TIME_ToneVerify` compares both latches with those it saw at its previous
call and checks the time between them.

Tones and messages are numbered, and every tone update notes the numbers and the latches it
was made from (`ToneUse`). As long as no tone falls into the processing of a message
(`Calm`), a run is its messages and tones one after the other (`Serial`), each of which keeps the
invariant `ToneInv`: the numbers of the tones used only go up, and so do those of the messages.
The interval checked is the time between the latches on a clock with rollover, if the latches
are at most half the circle of times apart.
-/

namespace CfsEds.Time

open CfsEds.Lib.Interleave CfsEds.Lib.VersionedRing Prog SysTime List

/-! ## The separation of two latches -/

section Separation

variable (cfg : TimeConfig)

/-- The time from one latch to the next one on a clock that rolls over. -/
def separation (time1 time2 : SysTime) : Nat :=
  if time1.toNat ≤ time2.toNat then time2.toNat - time1.toNat
  else cfg.maxLocalClock.toNat - time1.toNat + time2.toNat

/-- The latch that comes first by the configuration, and the other one. -/
def ToneUse.first (u : ToneUse) : SysTime := if cfg.atToneWas then u.toneLatch else u.dataLatch

def ToneUse.second (u : ToneUse) : SysTime := if cfg.atToneWas then u.dataLatch else u.toneLatch

/-- The separation is within the configured limits. -/
def ToneUse.Within (u : ToneUse) : Prop :=
  cfg.minElapsed.toNat ≤ separation cfg (u.first cfg) (u.second cfg) ∧
    separation cfg (u.first cfg) (u.second cfg) ≤ cfg.maxElapsed.toNat

instance (u : ToneUse) : Decidable (u.Within cfg) := inferInstanceAs (Decidable (_ ∧ _))

variable {cfg}

theorem toneElapsed_eq_timeSince (time1 time2 : SysTime) :
    toneElapsed cfg time1 time2 = timeSince cfg time1 time2 := by
  unfold toneElapsed timeSince
  simp only [compare_eq_aGtB_iff]

/-- A verified interval is the separation of the latches, if they are near. -/
theorem separation_of_elapsedOk {time1 time2 : SysTime}
    (h₁ : time1.toNat < cfg.maxLocalClock.toNat) (h₂ : time2.toNat < cfg.maxLocalClock.toNat)
    (hnear : NearSeconds time2 time1) (hok : ElapsedOk cfg (toneElapsed cfg time1 time2)) :
    cfg.minElapsed.toNat ≤ separation cfg time1 time2 ∧
      separation cfg time1 time2 ≤ cfg.maxElapsed.toNat := by
  have hsep : (toneElapsed cfg time1 time2).toNat = separation cfg time1 time2 := by
    rw [toneElapsed_eq_timeSince]
    exact (toNat_timeSince cfg h₁ h₂).mpr hnear
  simp only [ElapsedOk, not_or, BitVec.lt_def, Nat.not_lt, ne_eq, not_not] at hok
  obtain ⟨hsec, hmin, hmax⟩ := hok
  have hsub : (toneElapsed cfg time1 time2).toNat
      = (toneElapsed cfg time1 time2).subseconds.toNat := by
    rw [SysTime.toNat, hsec]
    simp
  rw [← hsep, hsub]
  exact ⟨hmin, hmax⟩

end Separation

/-! ## The invariant -/

section Verify

variable {cfg : TimeConfig} {w : ToneVars} {v : TimeVars}

/-- The latch of a tone that the last verification saw. -/
def ToneVars.prevTone (cfg : TimeConfig) (w : ToneVars) : SysTime :=
  if cfg.atToneWas then w.prevTime1 else w.prevTime2

def ToneVars.prevData (cfg : TimeConfig) (w : ToneVars) : SysTime :=
  if cfg.atToneWas then w.prevTime2 else w.prevTime1

/-- What holds of an update that was made. -/
structure UseOk (cfg : TimeConfig) (u : ToneUse) : Prop where
  elapsed : ElapsedOk cfg (toneElapsed cfg (u.first cfg) (u.second cfg))
  toneLatch : u.toneLatch.toNat < cfg.maxLocalClock.toNat
  dataLatch : u.dataLatch.toNat < cfg.maxLocalClock.toNat
  tone : 1 ≤ u.tone
  data : 1 ≤ u.data

/-- Between two messages: the latches are clock values, and the last verification saw tone
`t` and message `m`, which no update made so far is later than. -/
structure ToneInv (cfg : TimeConfig) (w : ToneVars) : Prop where
  toneLatch : w.toneSignalLatch.toNat < cfg.maxLocalClock.toNat
  dataLatch : w.toneDataLatch.toNat < cfg.maxLocalClock.toNat
  uses : ∀ u ∈ w.toneUses, UseOk cfg u
  tones : (w.toneUses.map (·.tone)).Nodup
  datas : (w.toneUses.map (·.data)).Nodup
  seen : ∃ t ≤ w.toneEvents, ∃ m ≤ w.dataEvents,
    (∀ u ∈ w.toneUses, u.tone ≤ t ∧ u.data ≤ m) ∧
    (t = w.toneEvents → w.prevTone cfg = w.toneSignalLatch) ∧
    (m = w.dataEvents → w.prevData cfg = w.toneDataLatch)

theorem nodup_concat_of_lt {l : List Nat} {n t : Nat} (h : l.Nodup) (hle : ∀ k ∈ l, k ≤ t)
    (hlt : t < n) : (l ++ [n]).Nodup := by
  rw [nodup_append]
  refine ⟨h, nodup_singleton n, fun a ha b hb => ?_⟩
  rw [mem_singleton] at hb
  have := hle a ha
  omega

/-- Verifying the two latches keeps the invariant, and nothing in it was seen before if
an update is made. -/
theorem ToneInv.verified {clock time1 time2 : SysTime} {d : ReferenceData}
    (h : ToneInv cfg v.toToneVars)
    (h₁ : time1 = if cfg.atToneWas then v.toneSignalLatch else v.toneDataLatch)
    (h₂ : time2 = if cfg.atToneWas then v.toneDataLatch else v.toneSignalLatch) :
    ToneInv cfg (toneVerified cfg clock time1 time2 d v).2.toToneVars := by
  obtain ⟨t, ht, m, hm, hle, htone, hdata⟩ := h.seen
  have hprevTone : (if cfg.atToneWas then time1 else time2) = v.toneSignalLatch := by
    split <;> simp_all
  have hprevData : (if cfg.atToneWas then time2 else time1) = v.toneDataLatch := by
    split <;> simp_all
  rw [toneVerified]
  split
  next hok =>
    obtain ⟨hne1, hne2, hok, -⟩ := hok
    -- a tone or a message that was verified before has its latch in the static variables
    have hfresh : v.prevTone cfg ≠ v.toneSignalLatch ∧ v.prevData cfg ≠ v.toneDataLatch := by
      unfold ToneVars.prevTone ToneVars.prevData
      cases hwas : cfg.atToneWas with
      | true =>
        simp only [hwas, if_true] at h₁ h₂ ⊢
        exact ⟨h₁ ▸ hne1, h₂ ▸ hne2⟩
      | false =>
        simp only [hwas, Bool.false_eq_true, if_false] at h₁ h₂ ⊢
        exact ⟨h₂ ▸ hne2, h₁ ▸ hne1⟩
    have htlt : t < v.toneEvents := Nat.lt_of_le_of_ne ht fun heq => hfresh.1 (htone heq)
    have hmlt : m < v.dataEvents := Nat.lt_of_le_of_ne hm fun heq => hfresh.2 (hdata heq)
    have hnew : UseOk cfg ⟨v.toneEvents, v.toneSignalLatch, v.dataEvents, v.toneDataLatch⟩ := by
      refine ⟨?_, h.toneLatch, h.dataLatch, Nat.zero_lt_of_lt htlt, Nat.zero_lt_of_lt hmlt⟩
      simp only [ToneUse.first, ToneUse.second, ← h₁, ← h₂]
      exact hok
    refine ⟨h.toneLatch, h.dataLatch, ?_, ?_, ?_, v.toneEvents, Nat.le_refl _,
      v.dataEvents, Nat.le_refl _, ?_, fun _ => hprevTone, fun _ => hprevData⟩
    · intro u hu
      rcases mem_append.mp hu with hu | hu
      · exact h.uses u hu
      · rw [mem_singleton.mp hu]
        exact hnew
    · simp only [toneUpdated, map_append, map_cons, map_nil]
      refine nodup_concat_of_lt h.tones (t := t) ?_ htlt
      intro k hk
      obtain ⟨u, hu, rfl⟩ := mem_map.mp hk
      exact (hle u hu).1
    · simp only [toneUpdated, map_append, map_cons, map_nil]
      refine nodup_concat_of_lt h.datas (t := m) ?_ hmlt
      intro k hk
      obtain ⟨u, hu, rfl⟩ := mem_map.mp hk
      exact (hle u hu).2
    · intro u hu
      rcases mem_append.mp hu with hu | hu
      · exact ⟨Nat.le_trans (hle u hu).1 ht, Nat.le_trans (hle u hu).2 hm⟩
      · rw [mem_singleton.mp hu]
        exact ⟨Nat.le_refl _, Nat.le_refl _⟩
  next =>
    exact ⟨h.toneLatch, h.dataLatch, h.uses, h.tones, h.datas,
      t, ht, m, hm, hle, fun _ => hprevTone, fun _ => hprevData⟩

/-- A new data message. -/
theorem ToneInv.data {latch : SysTime} (h : ToneInv cfg w)
    (hlatch : latch.toNat < cfg.maxLocalClock.toNat) :
    ToneInv cfg { w with toneDataLatch := latch, dataEvents := w.dataEvents + 1 } := by
  obtain ⟨t, ht, m, hm, hle, htone, -⟩ := h.seen
  exact ⟨h.toneLatch, hlatch, h.uses, h.tones, h.datas,
    t, ht, m, Nat.le_succ_of_le hm, hle, htone, fun heq => absurd heq (by dsimp only; omega)⟩

/-- A new tone. -/
theorem ToneInv.tone {latch : SysTime} (h : ToneInv cfg w)
    (hlatch : latch.toNat < cfg.maxLocalClock.toNat) :
    ToneInv cfg { w with toneSignalLatch := latch, toneEvents := w.toneEvents + 1 } := by
  obtain ⟨t, ht, m, hm, hle, -, hdata⟩ := h.seen
  exact ⟨hlatch, h.dataLatch, h.uses, h.tones, h.datas,
    t, Nat.le_succ_of_le ht, m, hm, hle, fun heq => absurd heq (by dsimp only; omega), hdata⟩

/-- The clocks are below the rollover value. -/
def ClockOk (cfg : TimeConfig) (k : Clocks) : Prop :=
  k.localClock.toNat < cfg.maxLocalClock.toNat

/-- Every message and every tone keeps the invariant. -/
theorem ToneInv.apply {r : Readings} {d : ReferenceData} (h : ToneInv cfg v.toToneVars)
    (hr : r.Of (ClockOk cfg)) (event : Event) :
    ToneInv cfg (event.apply cfg r d v).2.toToneVars := by
  cases event with
  | tone => exact h.tone hr.latch
  | message msg =>
    cases msg with
    | setState => exact h
    | setSource | setDelay | setTime | setMET | setSTCF | setLeapSeconds | setAdjust | set1HzAdj =>
      rw [Event.apply, Msg.apply]
      split <;> exact h
    | toneSignal =>
      rw [Event.apply, Msg.apply]
      split
      next hwas => exact h.verified (if_neg hwas).symm (if_neg hwas).symm
      next => exact h
    | toneData payload =>
      have hdata := h.data hr.latch
      rw [Event.apply, Msg.apply]
      split
      next hwas =>
        exact ToneInv.verified (v := { v with
            toneDataLatch := r.latch.localClock
            pending := payload
            dataEvents := v.dataEvents + 1 })
          hdata (if_pos hwas).symm (if_pos hwas).symm
      next => exact hdata
    | oneHz =>
      rw [Event.apply, Msg.apply]
      dsimp only
      split
      · exact h.tone hr.latch
      · exact h

end Verify

/-! ## Runs -/

/-- Time services after initialisation, before the first tone and the first data message. -/
structure ToneStarted (c : System) : Prop where
  main : c.main = .done ()
  isr : c.isr = .done ()
  dataLatch : c.mem.task.toneDataLatch = ⟨0#32, 0#32⟩
  signalLatch : c.mem.intr.toneSignalLatch = ⟨0#32, 0#32⟩
  prev1 : c.mem.task.prevTime1 = ⟨0#32, 0#32⟩
  prev2 : c.mem.task.prevTime2 = ⟨0#32, 0#32⟩
  uses : c.mem.task.toneUses = []

section Runs

variable {cfg : TimeConfig} {c c' : System} {h : History} {d₀ d : ReferenceData} {v₀ v : TimeVars}

theorem ToneStarted.inv (htone : ToneStarted c) (hmax : 0 < cfg.maxLocalClock.toNat) :
    ToneInv cfg (timeVars c.mem.task c.mem.intr).toToneVars := by
  refine ⟨?_, ?_, ?_, ?_, ?_, c.mem.intr.toneEvents, Nat.le_refl _, c.mem.task.dataEvents,
    Nat.le_refl _, ?_, ?_, ?_⟩
  all_goals simp only [timeVars, htone.uses, htone.dataLatch, htone.signalLatch, htone.prev1,
    htone.prev2, ToneVars.prevTone, ToneVars.prevData]
  · exact hmax
  · exact hmax
  all_goals simp

theorem Serial.toneInv (hserial : Serial cfg d₀ v₀ h d v) (h₀ : ToneInv cfg v₀.toToneVars)
    (hok : h.ClocksOk cfg) : ToneInv cfg v.toToneVars := by
  induction hserial with
  | nil => exact h₀
  | @cons h d v _ event ks r hr ih =>
    have hks : ∀ k ∈ ks, ClockOk cfg k := hok _ mem_cons_self
    exact (ih fun x hx => hok x (mem_cons_of_mem _ hx)).apply
      ⟨hks _ hr.latch, hks _ hr.now, hks _ hr.hardware⟩ event

/-- At any point of a calm run, what has been noted so far is also noted when the active
context has finished, and then the invariant holds. -/
theorem Pending.settles {p : Prog TimeState Unit} {s : TimeState}
    (hp : Pending cfg d₀ v₀ h p s) (h₀ : ToneInv cfg v₀.toToneVars) (hok : h.ClocksOk cfg) :
    ∃ w, s.task.toneUses <+: w.toneUses ∧ ToneInv cfg w := by
  match h with
  | [] =>
    obtain ⟨-, -, hv⟩ := hp
    exact ⟨_, prefix_rfl, hv ▸ h₀⟩
  | (event, ks) :: h =>
    obtain ⟨-, d, v, hserial, hwp⟩ := hp
    have hinv := hserial.toneInv h₀ fun x hx => hok x (mem_cons_of_mem _ hx)
    obtain ⟨hgrows, r, hr, -, hv⟩ := wp_run mainGuarantee id
      (hwp (ClockOk cfg) fun k hk => hok _ mem_cons_self k hk)
    have hend := hinv.apply hr event (d := d)
    rw [← hv] at hend
    exact ⟨_, hgrows.2, hend⟩

theorem UseOk.near {u : ToneUse} (h : UseOk cfg u) (hshort : cfg.maxLocalClock.toNat ≤ 2 ^ 63) :
    NearSeconds u.toneLatch u.dataLatch := by
  have htone := h.toneLatch
  have hdata := h.dataLatch
  unfold NearSeconds
  simp only [SysTime.toNat] at htone hdata hshort
  omega

theorem UseOk.within {u : ToneUse} (h : UseOk cfg u) (hnear : NearSeconds u.toneLatch u.dataLatch) :
    u.Within cfg := by
  unfold ToneUse.Within
  cases hwas : cfg.atToneWas with
  | true =>
    have hok := h.elapsed
    simp only [ToneUse.first, ToneUse.second, hwas, if_true] at hok ⊢
    exact separation_of_elapsedOk h.toneLatch h.dataLatch ⟨hnear.2, hnear.1⟩ hok
  | false =>
    have hok := h.elapsed
    simp only [ToneUse.first, ToneUse.second, hwas, Bool.false_eq_true, if_false] at hok ⊢
    exact separation_of_elapsedOk h.dataLatch h.toneLatch hnear hok

/-- In a run in which no tone falls into the processing of a message, a tone update is made
only from a tone and a data message that occurred, with latches within the limits if they are
at most half the circle of times apart, as they are if the clock rolls over within it, and every
tone and every message is used for at most one. -/
theorem tone_pairing (h₀ : Started c d₀) (htone : ToneStarted c)
    (hmax : 0 < cfg.maxLocalClock.toNat) (hrun : CalmRun cfg c h c') (hok : h.ClocksOk cfg) :
    (∀ u ∈ c'.mem.task.toneUses, 1 ≤ u.tone ∧ 1 ≤ u.data ∧
        (NearSeconds u.toneLatch u.dataLatch ∨ cfg.maxLocalClock.toNat ≤ 2 ^ 63 → u.Within cfg)) ∧
      (c'.mem.task.toneUses.map (·.tone)).Nodup ∧
      (c'.mem.task.toneUses.map (·.data)).Nodup := by
  obtain ⟨p, -, hpending⟩ := hrun.inv h₀
  obtain ⟨w, hpre, hinv⟩ := hpending.settles (htone.inv hmax) hok
  refine ⟨fun u hu => ?_, ?_, ?_⟩
  · have huse := hinv.uses u (hpre.subset hu)
    exact ⟨huse.tone, huse.data, fun hnear => huse.within (hnear.elim id huse.near)⟩
  · exact hinv.tones.sublist (hpre.map _).sublist
  · exact hinv.datas.sublist (hpre.map _).sublist

end Runs

/-! ### Schedules -/

theorem sampleSystem_toneStarted : ToneStarted sampleSystem := ⟨rfl, rfl, rfl, rfl, rfl, rfl, rfl⟩

/-- Two tones, each followed by its message a tenth of a second later. -/
def pairedSchedule : List Choice :=
  toneAt ⟨1#32, 0#32⟩ ++ messageAt ⟨1#32, 0x1999999A#32⟩ (.toneData default) ++ toneAt ⟨2#32, 0#32⟩ ++
    messageAt ⟨2#32, 0x1999999A#32⟩ (.toneData default)

/-- The final state of the paired schedule. -/
def pairedState : System := pairedSchedule.foldl (System.exec sampleConfig) sampleSystem

theorem paired_pairing : pairedState.mem.task.toneUses =
      [⟨1, ⟨1#32, 0#32⟩, 1, ⟨1#32, 0x1999999A#32⟩⟩, ⟨2, ⟨2#32, 0#32⟩, 2, ⟨2#32, 0x1999999A#32⟩⟩] ∧
    (∀ u ∈ pairedState.mem.task.toneUses, 1 ≤ u.tone ∧ 1 ≤ u.data ∧ u.Within sampleConfig) ∧
      (pairedState.mem.task.toneUses.map (·.tone)).Nodup ∧
      (pairedState.mem.task.toneUses.map (·.data)).Nodup := by
  refine ⟨by decide +kernel, ?_⟩
  have hcalm : calmSchedule sampleConfig sampleSystem pairedSchedule = true := by decide +kernel
  obtain ⟨h, hrun, hok, -⟩ :=
    CalmRun.exec (.refl (.inl rfl)) (fun _ hx => absurd hx not_mem_nil) hcalm
  replace hrun : CalmRun sampleConfig sampleSystem h pairedState := hrun
  obtain ⟨huses, hnodup⟩ := tone_pairing sampleSystem_started sampleSystem_toneStarted (by decide)
    hrun hok
  refine ⟨fun u hu => ?_, hnodup⟩
  obtain ⟨htone, hdata, hwithin⟩ := huses u hu
  exact ⟨htone, hdata, hwithin (.inr (by decide))⟩

/-- The second tone falls into the processing of the first message, after the latches of the
first tone were verified and before the latch is read for the update. -/
def interruptedSchedule : List Choice :=
  toneAt ⟨1#32, 0#32⟩ ++ [.clock ⟨1#32, 0x1999999A#32⟩ 0#32, .send (.toneData default), .dispatch] ++
    List.replicate 52 .main ++ toneAt ⟨2#32, 0#32⟩ ++ List.replicate 23 .main ++
    messageAt ⟨2#32, 0x1999999A#32⟩ (.toneData default)

/-- The final state of the interrupted schedule. -/
def interruptedState : System := interruptedSchedule.foldl (System.exec sampleConfig) sampleSystem

/-- A clock that rolls over half a second before all times do, and limits of 0.6 s and
0.8 s. -/
def lateConfig : TimeConfig :=
  { sampleConfig with
    maxLocalClock := ⟨0xFFFFFFFF#32, 0x80000000#32⟩
    minElapsed := 0x99999999#32
    maxElapsed := 0xCCCCCCCC#32 }

/-- A tone a tenth of a second before rollover and the message a tenth of a second after. -/
def lateState : System :=
  (toneAt ⟨0xFFFFFFFF#32, 0x66666666#32⟩ ++ messageAt ⟨0#32, 0x1999999A#32⟩ (.toneData default)).foldl
    (System.exec lateConfig) sampleSystem

/-- With a tone in the processing of a message, the update is made from the first message and
the second tone, which is used again for the second message. With a clock that rolls over
late, an interval of 0.2 s is taken for one of 0.7 s. -/
theorem tone_pairing_fails : (Run sampleConfig sampleSystem interruptedState ∧
      interruptedState.mem.task.toneUses
        = [⟨2, ⟨2#32, 0#32⟩, 1, ⟨1#32, 0x1999999A#32⟩⟩, ⟨2, ⟨2#32, 0#32⟩, 2, ⟨2#32, 0x1999999A#32⟩⟩] ∧
      ¬ ToneUse.Within sampleConfig ⟨2, ⟨2#32, 0#32⟩, 1, ⟨1#32, 0x1999999A#32⟩⟩) ∧
    (Run lateConfig sampleSystem lateState ∧ lateState.mem.task.toneUses
        = [⟨1, ⟨0xFFFFFFFF#32, 0x66666666#32⟩, 1, ⟨0#32, 0x1999999A#32⟩⟩] ∧
      ¬ ToneUse.Within lateConfig ⟨1, ⟨0xFFFFFFFF#32, 0x66666666#32⟩, 1, ⟨0#32, 0x1999999A#32⟩⟩) :=
  ⟨⟨(Run.refl _).exec _, by decide +kernel, by decide +kernel⟩,
    (Run.refl _).exec _, by decide +kernel, by decide +kernel⟩

end CfsEds.Time
