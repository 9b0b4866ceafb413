import CfsEds.Time.Serial

/-!
# The handlers of the main task

What a handler does when nobody else writes the variables it reads: exactly what `Msg.apply`
says, with the values that the clocks had at its reads. The clocks may run in the meantime, and
all that is assumed of them is a condition `C`. With `C` the set of values they had while the
message was processed, the readings are among those.

After a program the reference and the variables are often known up to the one value at which
the clock was read for `CFE_TIME_GetReference`. `AtNow` is this form of a postcondition, and the
handlers that compute nothing else with the clock are shown with it (`command_now`).
-/

namespace CfsEds.Time

open CfsEds.Lib.Interleave CfsEds.Lib.VersionedRing Prog SysTime Main

variable {cfg : TimeConfig} {C : Clocks → Prop} {A : Ring (Fin 4) ReferenceData → Prop}
  {d e : ReferenceData} {v v' : TimeVars} {next : Fin 4} {α : Type} {p : Prog TimeState α}
  {Q : α → Ring (Fin 4) ReferenceData × (TimeVars × Prop) → Prop}

/-- The variables are looked at, and whether the clocks meet `C`. -/
def withClocks (C : Clocks → Prop) (t : TaskData) (i : InterruptData) : TimeVars × Prop :=
  (timeVars t i, C (clocks i))

/-- The variables are `v`, and the clocks meet the condition. -/
def Known (v : TimeVars) (x : TimeVars × Prop) : Prop := x.1 = v ∧ x.2

/-- The message or tone was processed from `d` and `v`, with readings that meet `C`. -/
def Performed (cfg : TimeConfig) (C : Clocks → Prop) (event : Event) (d : ReferenceData)
    (v : TimeVars) (w : Ring (Fin 4) ReferenceData × (TimeVars × Prop)) : Prop :=
  ∃ r : Readings, r.Of C ∧
    At (QuietAt (event.apply cfg r d v).1) (fun x => x.1 = (event.apply cfg r d v).2) w

/-- The reference and the variables are as `f` says for a value of the clock. -/
def AtNow (C : Clocks → Prop) (f : SysTime → ReferenceData × TimeVars)
    (w : Ring (Fin 4) ReferenceData × (TimeVars × Prop)) : Prop :=
  ∃ k, C k ∧ At (QuietAt (f k.localClock).1) (Known (f k.localClock).2) w

theorem clocks_known (t : TaskData) (i : InterruptData) (h : Known v (withClocks C t i)) :
    C (clocks i) :=
  h.2

/-- Some value of the clocks meets `C`. -/
theorem exists_clocks (h : ∀ k, C k → Main (withClocks C) (At A (Known v)) p Q) :
    Main (withClocks C) (At A (Known v)) p Q :=
  fun s hs => h (clocks s.intr) hs.2.2 s hs

theorem set_var_task {g : TaskData → TaskData} (G : TimeVars → TimeVars)
    (hg : ∀ t i, timeVars (g t) i = G (timeVars t i)) (huses : ∀ t, (g t).toneUses = t.toneUses) :
    Main (withClocks C) (At A (Known v)) (setTask g) (fun _ => At A (Known (G v))) :=
  set_task huses fun t i h => ⟨(hg t i).trans (congrArg G h.1), h.2⟩

/-- Variables that are not looked at. -/
theorem set_other_task {g : TaskData → TaskData} (hg : ∀ t i, timeVars (g t) i = timeVars t i) :
    Main (withClocks C) (At A (Known v)) (setTask g) (fun _ => At A (Known v)) :=
  set_var_task id hg fun t => congrArg (·.toneUses) (hg t default)

theorem set_var_intr {g : InterruptData → InterruptData} (G : TimeVars → TimeVars)
    (hg : ∀ t i, timeVars t (g i) = G (timeVars t i)) (hclocks : ∀ i, clocks (g i) = clocks i) :
    Main (withClocks C) (At A (Known v)) (setIntr g) (fun _ => At A (Known (G v))) :=
  set_intr fun t i h =>
    ⟨(hg t i).trans (congrArg G h.1), (congrArg C (hclocks i)).mpr h.2⟩

theorem read_tone_latch {k : SysTime → Prog TimeState α}
    (h : Main (withClocks C) (At A (Known v)) (k v.toneSignalLatch) Q) :
    Main (withClocks C) (At A (Known v)) (readToneSignalLatch >>= k) Q :=
  read_known (fun _ hv => congrArg (·.toneSignalLatch.seconds) hv.1)
    (read_known (fun _ hv => congrArg (·.toneSignalLatch.subseconds) hv.1) h)

/-- The end of an update, with the value `k` of the clocks. -/
theorem finish_now {f : SysTime → ReferenceData × TimeVars} {k : Clocks} (hk : C k)
    (hf : f k.localClock = (e, v')) : Main (withClocks C) (At (FillingAt next d e) (Known v'))
      (finishReferenceUpdate next) (fun _ => AtNow C f) := by
  refine Triple.conseq finish (fun _ hw => hw) fun _ w hw => ⟨k, hk, ?_⟩
  rw [hf]
  exact hw

theorem AtNow.performed {f : SysTime → ReferenceData × TimeVars} {event : Event}
    {w : Ring (Fin 4) ReferenceData × (TimeVars × Prop)} (h : AtNow C f w)
    (hf : ∀ r, event.apply cfg r d v = f r.now.localClock) : Performed cfg C event d v w := by
  obtain ⟨k, hk, hw⟩ := h
  refine ⟨⟨k, k, k⟩, ⟨hk, hk, hk⟩, ?_⟩
  rw [hf]
  exact ⟨hw.1, hw.2.1⟩

theorem set_other_performed {event : Event} {g : TaskData → TaskData}
    (hg : ∀ t i, timeVars (g t) i = timeVars t i) : Main (withClocks C)
      (Performed cfg C event d v) (setTask g) (fun _ => Performed cfg C event d v) :=
  Triple.exists_pre fun r => Triple.of_pure fun hr =>
    Triple.conseq (set_task (fun t => congrArg (·.toneUses) (hg t default))
      fun t i h => (hg t i).trans h) (fun _ hw => hw) fun _ _ hw => ⟨r, hr, hw⟩

/-- A message is processed. -/
def Processes (cfg : TimeConfig) (C : Clocks → Prop) (msg : Msg) (d : ReferenceData)
    (v : TimeVars) (p : Prog TimeState Unit) : Prop :=
  Main (withClocks C) (At (QuietAt d) (Known v)) p (fun _ => Performed cfg C (.message msg) d v)

/-- A command that only some builds have. -/
theorem command_processes {msg : Msg} {c : Prop} [Decidable c] {p : Prog TimeState Unit}
    (hp : c → Processes cfg C msg d v p) (hne : ¬ c → ∀ r, msg.apply cfg r d v = (d, v)) :
    Processes cfg C msg d v (command c p) := by
  refine exists_clocks fun k hk => Triple.ite (fun hc => ?_) fun hc => ?_
  · exact seq (hp hc) fun _ => set_other_performed fun _ _ => rfl
  · exact Triple.conseq (set_other_task fun _ _ => rfl) (fun _ hw => hw) fun _ w hw =>
      AtNow.performed (f := fun _ => (d, v)) ⟨k, hk, hw⟩ (hne hc)

/-- A command that does `f` in the builds that have it. -/
theorem command_now {msg : Msg} {c : Prop} [Decidable c] {p : Prog TimeState Unit}
    (f : SysTime → ReferenceData × TimeVars)
    (hf : ∀ r, msg.apply cfg r d v = if c then f r.now.localClock else (d, v))
    (hp : ∀ k, C k → Main (withClocks C) (At (QuietAt d) (Known v)) p (fun _ => AtNow C f)) :
    Processes cfg C msg d v (command c p) :=
  command_processes (fun hc => exists_clocks fun k hk => Triple.conseq (hp k hk) (fun _ hw => hw)
    fun _ _ hw => hw.performed fun r => (hf r).trans (if_pos hc)) fun hc r => (hf r).trans (if_neg hc)

/-- A command that makes one update. -/
theorem command_update {msg : Msg} {c : Prop} [Decidable c] {p : Prog TimeState Unit} (u : Update)
    (hu : ∀ r, msg.apply cfg r d v = if c then
      (u.apply cfg ⟨r.now.localClock, v.toneSignalLatch, v.virtualMET⟩ d, v) else (d, v))
    (hp : ∀ k, C k → Main (withClocks C) (At (QuietAt d) (Known v)) p (fun _ =>
      AtNow C fun clock => (u.apply cfg ⟨clock, v.toneSignalLatch, v.virtualMET⟩ d, v))) :
    Processes cfg C msg d v (command c p) :=
  command_now _ hu hp

/-! ### The tone -/

/-- The end of a tone update: it is not flywheeling any more. -/
theorem clear_fly {p : Prog TimeState Unit} (hp : ∀ e, Main (withClocks C)
      (At (FillingAt next d e) (Known v)) p (fun _ => At (FillingAt next d e) (Known v))) :
    Main (withClocks C) (At (FillingAt next d e) (Known v)) (do
        let clockFlyState ← readCell next Cell.flyState
        when (clockFlyState = .isFly) do
          writeCell next Cell.flyState .noFly
          p)
      (fun _ => At (FillingAt next d { e with clockFlyState := .noFly }) (Known v)) := by
  refine read_cell _ ?_
  refine Triple.ite (fun _ => seq (write_cell _ _) fun _ => hp _) fun hfly => ?_
  refine Triple.pure fun w hw => ?_
  have he : e.clockFlyState = .noFly := by
    cases h : e.clockFlyState with
    | noFly => rfl
    | isFly => exact absurd h hfly
  rw [← he]
  exact hw

theorem write_virtualMET :
    Main (withClocks C) (At (FillingAt next d e) (Known v)) (writeVirtualMET next) (fun _ =>
      At (FillingAt next d { e with atToneMET := ⟨v.virtualMET, 0#32⟩ }) (Known v)) :=
  read_known (fun _ hv => congrArg (·.virtualMET) hv.1)
    (seq (write_cell _ _) fun _ => write_cell _ _)

theorem serverUpdate_fills (inp : Inputs) {reference : Reference} {clockSource : SourceSelect}
    (hserver : cfg.server = true) (hsource : v.clockSource = clockSource)
    (hfly : reference.clockFlyState = e.clockFlyState) (hlatch : inp.toneLatch = e.atToneLatch)
    (hmet : inp.virtualMET = toneMET cfg reference v) :
    Main (withClocks C) (At (FillingAt next d e) (Known v))
      (serverUpdate cfg next reference clockSource v.pending) (fun _ =>
        At (FillingAt next d (serverTone cfg inp clockSource v.pending e))
          (Known { v with virtualMET := inp.virtualMET })) := by
  have hclear : ∀ e v, Main (withClocks C) (At (FillingAt next d e) (Known v)) (do
      let clockFlyState ← readCell next Cell.flyState
      when (clockFlyState = .isFly) do
        writeCell next Cell.flyState .noFly
        setTask fun t => { t with serverFlyState := .noFly })
      (fun _ => At (FillingAt next d { e with clockFlyState := .noFly }) (Known v)) :=
    fun e v => clear_fly fun _ => set_other_task fun _ _ => rfl
  rw [toneMET, if_pos hserver, hfly, hsource] at hmet
  unfold serverUpdate serverTone
  rw [hlatch, hmet]
  cases clockSource with
  | internal =>
    refine read_cell _ (Triple.bind (Q := fun _ => At (FillingAt next d e) (Known { v with
      virtualMET := if e.clockFlyState = .isFly then reference.currentMET.seconds
        else v.virtualMET })) (Triple.ite (fun h => ?_) fun h => ?_) fun _ => ?_)
    · rw [if_pos (show e.clockFlyState = .isFly from h)]
      exact set_var_intr (fun v => { v with virtualMET := reference.currentMET.seconds })
        (fun _ _ => rfl) fun _ => rfl
    · rw [if_neg (show ¬ e.clockFlyState = .isFly from h)]
      exact Triple.pure fun _ hw => hw
    · exact seq write_virtualMET fun _ => hclear _ _
  | external =>
    rcases cfg.src with _ | _ | _ | _
    · exact hclear _ _
    · refine seq (write_time _ _) fun _ => seq (set_var_intr
        (fun w => { w with virtualMET := v.pending.met.seconds }) (fun _ _ => rfl) fun _ => rfl)
        fun _ => hclear _ _
    · exact seq write_virtualMET fun _ => seq (write_time _ _) fun _ => seq (write_cell _ _)
        fun _ => hclear _ _
    · exact seq write_virtualMET fun _ => seq (write_time _ _) fun _ => hclear _ _

theorem clientUpdate_fills (inp : Inputs) (hlatch : inp.toneLatch = e.atToneLatch)
    (pending : PendingData) :
    Main (withClocks C) (At (FillingAt next d e) (Known v)) (clientUpdate next pending)
      (fun _ => At (FillingAt next d (clientTone inp pending e)) (Known v)) := by
  have hclear : ∀ e, Main (withClocks C) (At (FillingAt next d e) (Known v)) (do
      let clockFlyState ← readCell next Cell.flyState
      when (clockFlyState = .isFly) (writeCell next Cell.flyState .noFly))
      (fun _ => At (FillingAt next d { e with clockFlyState := .noFly }) (Known v)) :=
    fun e => clear_fly (p := pure ()) fun _ => Triple.pure fun _ hw => hw
  refine seq (write_time _ _) fun _ => seq (write_time _ _) fun _ =>
    seq (write_cell _ _) fun _ => ?_
  unfold clientTone
  rw [hlatch]
  cases pending.state with
  | invalid | flywheel | valid =>
    exact seq (write_cell _ _) fun _ => seq (set_other_task fun _ _ => rfl) fun _ => hclear _

theorem toneUpdate_performed : Main (withClocks C) (At (QuietAt d) (Known v)) (toneUpdate cfg)
      (fun _ => AtNow C fun clock => toneUpdated cfg clock d v) := by
  refine read_known (fun _ hv => congrArg (·.clockSource) hv.1)
    (read_known (fun _ hv => congrArg (·.pending) hv.1) ?_)
  refine Triple.bind (get_reference clocks_known cfg) fun reference =>
    Triple.of_pure fun ⟨k, hk, hreference⟩ => ?_
  subst hreference
  refine Triple.bind start fun next => read_tone_latch ?_
  refine Triple.bind (Q := fun _ => At (FillingAt next d d) (Known { v with
      toneUses := v.toneUses ++
        [⟨v.toneEvents, v.toneSignalLatch, v.dataEvents, v.toneDataLatch⟩] })) ?_ fun _ => ?_
  · refine Triple.write fun s hs => ⟨⟨Ring.Grows.refl s.ref, List.prefix_append _ _⟩, hs.1, ?_⟩
    obtain ⟨-, hv, hclocks⟩ := hs
    refine ⟨?_, hclocks⟩
    rw [← hv]
    rfl
  · refine seq (write_time _ _) fun _ => ?_
    unfold writeTone
    split
    next hserver =>
      refine seq (serverUpdate_fills ⟨k.localClock, v.toneSignalLatch, _⟩ hserver rfl rfl
        rfl rfl) fun _ => finish_now hk ?_
      rw [toneUpdated, Update.apply, if_pos hserver]
      rfl
    next hserver =>
      refine seq (clientUpdate_fills ⟨k.localClock, v.toneSignalLatch, default⟩ rfl _)
        fun _ => finish_now hk ?_
      rw [toneUpdated, Update.apply, if_neg hserver, toneMET, if_neg hserver]
      rfl

theorem toneVerify_performed (time1 time2 : SysTime) :
    Main (withClocks C) (At (QuietAt d) (Known v)) (toneVerify cfg time1 time2)
      (fun _ => AtNow C fun clock => toneVerified cfg clock time1 time2 d v) := by
  -- the static variables are set at the end, whatever the verification said
  refine Triple.bind (Q := fun _ => AtNow C fun clock =>
    if ToneAccepted cfg time1 time2 v then toneUpdated cfg clock d v else (d, v)) ?_ fun _ =>
    Triple.exists_pre fun k => Triple.of_pure fun hk => Triple.conseq
      (set_var_task (fun v => { v with prevTime1 := time1, prevTime2 := time2 }) (fun _ _ => rfl)
        fun _ => rfl) (fun _ hw => hw) fun _ _ hw => ⟨k, hk, hw⟩
  have hrefused : ¬ ToneAccepted cfg time1 time2 v → ∀ w, At (QuietAt d) (Known v) w → ∀ k, C k →
      AtNow C (fun clock =>
        if ToneAccepted cfg time1 time2 v then toneUpdated cfg clock d v else (d, v)) w := by
    intro hno w hw k hk
    refine ⟨k, hk, ?_⟩
    dsimp only
    rw [if_neg hno]
    exact hw
  have hmismatch : ¬ ToneAccepted cfg time1 time2 v → Main (withClocks C)
      (At (QuietAt d) (Known v)) toneMismatch (fun _ => AtNow C fun clock =>
        if ToneAccepted cfg time1 time2 v then toneUpdated cfg clock d v else (d, v)) :=
    fun hno => exists_clocks fun k hk => Triple.conseq (set_other_task fun _ _ => rfl)
      (fun _ hw => hw) fun _ w hw => hrefused hno w hw k hk
  refine read_known (fun _ hv => congrArg (·.prevTime1) hv.1)
    (Triple.ite (fun h => hmismatch fun hok => hok.1 ((compare_eq_equal_iff _ _).mp h)) fun h₁ => ?_)
  refine read_known (fun _ hv => congrArg (·.prevTime2) hv.1)
    (Triple.ite (fun h => hmismatch fun hok => hok.2.1 ((compare_eq_equal_iff _ _).mp h)) fun h₂ => ?_)
  refine Triple.ite (fun h₃ => ?_) fun h => hmismatch fun hok => h hok.2.2.1
  refine seq (set_other_task fun _ _ => rfl) fun _ =>
    read_known (fun _ hv => congrArg (·.forced2Fly) hv.1) (Triple.ite (fun h₄ => ?_) fun h => ?_)
  · have hok : ToneAccepted cfg time1 time2 v :=
      ⟨fun h => h₁ ((compare_eq_equal_iff _ _).mpr h), fun h => h₂ ((compare_eq_equal_iff _ _).mpr h), h₃,
        Bool.eq_false_iff.mpr h₄⟩
    simp only [if_pos hok]
    exact toneUpdate_performed
  · exact exists_clocks fun k hk => Triple.pure fun w hw =>
      hrefused (fun hok => h (Bool.eq_false_iff.mp hok.2.2.2)) w hw k hk

/-- The interrupt, also when the main task runs it as a fake one. -/
theorem tone1HzISR_performed : Main (withClocks C) (At A (Known v)) (tone1HzISR cfg) (fun _ w =>
      ∃ latch hardware, (C latch ∧ C hardware) ∧
        At A (Known (v.tone cfg latch.localClock hardware.localMET)) w) := by
  refine Triple.bind (read_clock clocks_known (·.localClock)) fun clock =>
    Triple.of_pure fun ⟨k, hk, hclock⟩ => ?_
  subst hclock
  refine read_tone_latch ?_
  refine Triple.bind (Q := fun _ w => ∃ h, C h ∧ At A (Known { v with virtualMET :=
    (v.tone cfg k.localClock h.localMET).virtualMET }) w) ?_ fun _ =>
    Triple.exists_pre fun h => Triple.of_pure fun hh => ?_
  · have hother : ∀ g : InterruptData → InterruptData, (∀ t i, timeVars t (g i) = timeVars t i) →
        (∀ i, clocks (g i) = clocks i) →
        Main (withClocks C) (At A (Known v)) (setIntr g) (fun _ => At A (Known v)) :=
      fun g => set_var_intr id
    refine Triple.ite (fun htime => ?_) fun htime => exists_clocks fun h hh => ?_
    · refine seq (hother _ (fun _ _ => rfl) fun _ => rfl) fun _ =>
        Triple.ite (fun hvirtual => ?_) fun hvirtual => ?_
      · refine read_known (fun _ hv => congrArg (·.virtualMET) hv.1) (exists_clocks fun h hh => ?_)
        refine Triple.conseq (set_var_intr (fun w => { w with virtualMET := v.virtualMET + 1#32 })
          (fun _ _ => rfl) fun _ => rfl) (fun _ hw => hw) fun _ w hw => ⟨h, hh, ?_⟩
        rw [TimeVars.tone, if_pos htime, if_pos hvirtual]
        exact hw
      · refine Triple.bind (read_clock clocks_known (·.localMET)) fun met =>
          Triple.of_pure fun ⟨h, hh, hmet⟩ => ?_
        subst hmet
        refine Triple.conseq (set_var_intr (fun w => { w with virtualMET := h.localMET })
          (fun _ _ => rfl) fun _ => rfl) (fun _ hw => hw) fun _ w hw => ⟨h, hh, ?_⟩
        rw [TimeVars.tone, if_pos htime, if_neg hvirtual]
        exact hw
    · refine Triple.conseq (hother _ (fun _ _ => rfl) fun _ => rfl) (fun _ hw => hw)
        fun _ w hw => ⟨h, hh, ?_⟩
      rw [TimeVars.tone, if_neg htime]
      exact hw
  -- the two words of the latch are written one after the other
  · refine seq (set_var_intr (fun w => { w with
      toneSignalLatch := ⟨k.localClock.seconds, w.toneSignalLatch.subseconds⟩
      toneEvents := w.toneEvents + 1 }) (fun _ _ => rfl) fun _ => rfl) fun _ => ?_
    exact Triple.conseq (set_var_intr (fun w => { w with
      toneSignalLatch := ⟨w.toneSignalLatch.seconds, k.localClock.subseconds⟩ })
      (fun _ _ => rfl) fun _ => rfl) (fun _ hw => hw) fun _ _ hw => ⟨k, h, ⟨hk, hh⟩, hw⟩

/-! ### The local 1Hz state machine -/

theorem adjust1Hz_fills (adjust : SysTime) (direction : AdjustDirection) :
    Main (withClocks C) (At (QuietAt d) (Known v))
      (when (cfg.server ∧ (adjust.seconds ≠ 0#32 ∨ adjust.subseconds ≠ 0#32))
        (adjust1Hz adjust direction))
      (fun _ => At (QuietAt (adjusted1Hz cfg adjust direction d)) (Known v)) := by
  unfold adjusted1Hz
  refine Triple.ite (fun hadj => ?_) fun hadj => ?_
  · rw [if_pos hadj]
    exact Triple.bind start fun _ => read_time _ (seq (write_time _ _) fun _ => finish)
  · rw [if_neg hadj]
    exact Triple.pure fun _ hw => hw

theorem local1Hz_performed :
    Main (withClocks C) (At (QuietAt d) (Known v)) (local1HzStateMachine cfg) (fun _ =>
      AtNow C fun clock => ((Update.local1Hz v.oneHzAdjust v.oneHzDirection).apply cfg
        ⟨clock, v.toneSignalLatch, v.virtualMET⟩ d, v)) := by
  refine read_known (fun _ hv => congrArg (·.oneHzAdjust) hv.1)
    (read_known (fun _ hv => congrArg (·.oneHzDirection) hv.1) ?_)
  refine seq (adjust1Hz_fills v.oneHzAdjust v.oneHzDirection) fun _ => ?_
  simp only [Update.apply]
  generalize adjusted1Hz cfg v.oneHzAdjust v.oneHzDirection d = d'
  refine Triple.bind (get_reference clocks_known cfg) fun reference =>
    Triple.of_pure fun ⟨k, hk, hreference⟩ => ?_
  subst hreference
  have hdone : ∀ e, e = flywheel1Hz cfg ⟨k.localClock, v.toneSignalLatch, v.virtualMET⟩ d' → ∀ w,
      At (QuietAt e) (Known v) w → AtNow C (fun clock =>
        (flywheel1Hz cfg ⟨clock, v.toneSignalLatch, v.virtualMET⟩ d', v)) w := by
    rintro e rfl w hw
    exact ⟨k, hk, hw⟩
  -- only one of the two flywheel updates is made, by the state before either
  by_cases hfly : d'.clockFlyState = .noFly
  · have hlatch : ¬ ((computeReference cfg k.localClock d').clockFlyState = .isFly ∧
        cfg.latchFly ≤ (computeReference cfg k.localClock d').timeSinceTone.seconds) :=
      fun h => absurd (hfly.symm.trans h.1) nofun
    by_cases hstart : cfg.startFly ≤ (computeReference cfg k.localClock d').timeSinceTone.seconds
    · rw [when_pos ⟨hfly, hstart⟩, when_neg hlatch]
      refine Triple.bind (Q := fun _ => At (QuietAt { d' with clockFlyState := .isFly })
        (Known v)) ?_ fun _ => Triple.pure (hdone _ ?_)
      · exact Triple.bind start fun _ => seq (write_cell _ _) fun _ =>
          seq (when_keeps fun _ => set_other_task fun _ _ => rfl) fun _ =>
          seq (set_var_intr id (fun _ _ => rfl) fun _ => rfl) fun _ => finish
      · rw [flywheel1Hz, if_pos hfly, if_pos hstart]
    · rw [when_neg fun h => hstart h.2, when_neg hlatch]
      refine Triple.pure (hdone _ ?_)
      rw [flywheel1Hz, if_pos hfly, if_neg hstart]
  · have hisFly : d'.clockFlyState = .isFly := by
      cases h : d'.clockFlyState with
      | noFly => exact absurd h hfly
      | isFly => rfl
    rw [when_neg fun h => hfly h.1]
    refine Triple.ite (fun h => ?_) fun h => ?_
    · refine Triple.bind start fun _ => seq (write_time _ _) fun _ => seq (write_time _ _) fun _ =>
        Triple.conseq finish (fun _ hw => hw) fun _ => hdone _ ?_
      rw [flywheel1Hz, if_neg hfly, if_pos h.2]
      rfl
    · refine Triple.pure (hdone _ ?_)
      rw [flywheel1Hz, if_neg hfly, if_neg fun hlatch => h ⟨hisFly, hlatch⟩]

/-! ### Messages -/

theorem setState_now (newState : ClockState) {k : Clocks} (hk : C k) :
    Main (withClocks C) (At (QuietAt d) (Known v)) (setState cfg newState) (fun _ =>
      AtNow C fun clock => ((Update.setState newState).apply cfg
        ⟨clock, v.toneSignalLatch, v.virtualMET⟩ d,
        { v with forced2Fly := decide (newState = .flywheel) })) := by
  refine Triple.bind start fun next => ?_
  cases newState with
  | flywheel =>
    exact seq (set_var_task (fun v => { v with forced2Fly := true }) (fun _ _ => rfl) fun _ => rfl)
      fun _ => seq (write_cell _ _) fun _ =>
      seq (when_keeps fun _ => set_other_task fun _ _ => rfl) fun _ => finish_now hk rfl
  | valid | invalid =>
    exact seq (set_var_task (fun v => { v with forced2Fly := false }) (fun _ _ => rfl) fun _ => rfl)
      fun _ => seq (write_cell _ _) fun _ => finish_now hk rfl

theorem setMET_processes (newMET : SysTime) (hserver : cfg.server = true) :
    Processes cfg C (.setMET newMET) d v (setMET cfg newMET) := by
  refine Triple.bind start fun next => seq (write_time _ _) fun _ => seq (set_var_intr
    (fun v => { v with virtualMET := newMET.seconds }) (fun _ _ => rfl) fun _ => rfl) fun _ => ?_
  refine Triple.bind (read_clock clocks_known (·.localClock)) fun clock =>
    Triple.of_pure fun ⟨k, hk, hclock⟩ => seq (write_time _ _) fun _ => ?_
  subst hclock
  -- the clocks may have been set, so that nothing is known of them any more
  refine seq (R := At _ fun x => x.1 = { v with virtualMET := newMET.seconds })
    (Triple.ite (fun _ => set_intr fun _ _ h => h.1) fun _ => Triple.pure fun _ hw =>
    ⟨hw.1, hw.2.1⟩) fun _ => Triple.conseq finish (fun _ hw => hw) fun _ w hw =>
    ⟨⟨k, k, k⟩, ⟨hk, hk, hk⟩, ?_⟩
  rw [Event.apply, Msg.apply, if_pos hserver]
  exact hw

theorem toneSignal_processes : Processes cfg C .toneSignal d v (toneSignal cfg) := by
  refine seq (Triple.ite (fun hwas => ?_) fun hwas => exists_clocks fun k hk => ?_) fun _ =>
    set_other_performed fun _ _ => rfl
  · refine read_known (fun _ hv => congrArg (·.toneDataLatch) hv.1) (read_tone_latch ?_)
    exact Triple.conseq (toneVerify_performed _ _) (fun _ hw => hw) fun _ w hw =>
      hw.performed fun r => if_pos hwas
  · exact Triple.pure fun w hw =>
      AtNow.performed (f := fun _ => (d, v)) ⟨k, hk, hw⟩ fun r => if_neg hwas

theorem toneData_processes (payload : PendingData) :
    Processes cfg C (.toneData payload) d v (toneData cfg payload) := by
  refine Triple.bind (read_clock clocks_known (·.localClock)) fun clock =>
    Triple.of_pure fun ⟨l, hl, hclock⟩ => ?_
  subst hclock
  refine seq (set_var_task (fun v => { v with
    toneDataLatch := l.localClock, pending := payload, dataEvents := v.dataEvents + 1 })
    (fun _ _ => rfl) fun _ => rfl) fun _ => ?_
  refine seq (Triple.ite (fun hwas => ?_) fun hwas => ?_) fun _ =>
    set_other_performed fun _ _ => rfl
  · refine read_tone_latch (read_known (fun _ hv => congrArg (·.toneDataLatch) hv.1) ?_)
    refine Triple.conseq (toneVerify_performed _ _) (fun _ hw => hw) fun _ w ⟨k, hk, hw⟩ =>
      ⟨⟨l, k, k⟩, ⟨hl, hk, hk⟩, ?_⟩
    rw [Event.apply, Msg.apply, if_pos hwas]
    exact ⟨hw.1, hw.2.1⟩
  · refine Triple.pure fun w hw => ⟨⟨l, l, l⟩, ⟨hl, hl, hl⟩, ?_⟩
    rw [Event.apply, Msg.apply, if_neg hwas]
    exact ⟨hw.1, hw.2.1⟩

theorem oneHz_processes : Processes cfg C .oneHz d v (handle cfg .oneHz) := by
  refine Triple.bind local1Hz_performed fun _ => Triple.exists_pre fun k =>
    Triple.of_pure fun hk => Triple.ite (fun hfake => ?_) fun hfake => ?_
  · refine Triple.conseq tone1HzISR_performed (fun _ hw => hw)
      fun _ w ⟨l, h, ⟨hl, hh⟩, hw⟩ => ⟨⟨l, k, h⟩, ⟨hl, hk, hh⟩, ?_⟩
    rw [Event.apply, Msg.apply, if_pos hfake]
    exact ⟨hw.1, hw.2.1⟩
  · refine Triple.pure fun w hw => ⟨⟨k, k, k⟩, ⟨hk, hk, hk⟩, ?_⟩
    rw [Event.apply, Msg.apply, if_neg hfake]
    exact ⟨hw.1, hw.2.1⟩

/-- Every handler does what its message is for. -/
theorem handle_processes (msg : Msg) : Processes cfg C msg d v (handle cfg msg) := by
  cases msg with
  | setState newState =>
    exact command_now _ (fun _ => rfl) fun _ hk => setState_now newState hk
  | setSource newSource =>
    exact command_now (fun _ => (d, { v with clockSource := newSource })) (fun _ => rfl) fun k hk =>
      Triple.conseq (set_var_task (fun v => { v with clockSource := newSource }) (fun _ _ => rfl)
        fun _ => rfl) (fun _ hw => hw) fun _ _ hw => ⟨k, hk, hw⟩
  | set1HzAdj newAdjust direction =>
    exact command_now
      (fun _ => (d, { v with oneHzAdjust := newAdjust, oneHzDirection := direction }))
      (fun _ => rfl) fun k hk =>
      Triple.conseq (set_var_task (fun v => { v with
        oneHzAdjust := newAdjust, oneHzDirection := direction }) (fun _ _ => rfl) fun _ => rfl)
        (fun _ hw => hw) fun _ _ hw => ⟨k, hk, hw⟩
  | setDelay newDelay direction =>
    exact command_update (.setDelay newDelay direction) (fun _ => rfl) fun _ hk => Triple.bind start fun _ =>
      seq (write_time _ _) fun _ => seq (write_cell _ _) fun _ => finish_now hk rfl
  | setTime newTime =>
    refine command_update (.setTime newTime) (fun _ => rfl) fun _ _ =>
      Triple.bind (get_reference clocks_known cfg) fun reference => Triple.of_pure fun ⟨k, hk, hreference⟩ => ?_
    subst hreference
    exact Triple.bind start fun _ => seq (write_time _ _) fun _ => finish_now hk rfl
  | setMET newMET =>
    exact command_processes (setMET_processes newMET) fun hserver r => if_neg hserver
  | setSTCF newSTCF =>
    exact command_update (.setSTCF newSTCF) (fun _ => rfl) fun _ hk => Triple.bind start fun _ =>
      seq (write_time _ _) fun _ => finish_now hk rfl
  | setLeapSeconds newLeaps =>
    exact command_update (.setLeapSeconds newLeaps) (fun _ => rfl) fun _ hk => Triple.bind start fun _ =>
      seq (write_cell _ _) fun _ => finish_now hk rfl
  | setAdjust newAdjust direction =>
    exact command_update (.setAdjust newAdjust direction) (fun _ => rfl) fun _ hk => Triple.bind start fun _ =>
      seq (set_other_task fun _ _ => rfl) fun _ => read_time _ (seq (write_time _ _) fun _ =>
      finish_now hk rfl)
  | toneSignal => exact toneSignal_processes
  | toneData payload => exact toneData_processes payload
  | oneHz => exact oneHz_processes

end CfsEds.Time
