import CfsEds.Time.Handlers

/-!
# Runs of time services

In a run the main task, the tone interrupt and a reader take their accesses in any order.
Each of them is described by a weakest precondition of the program it still has to execute,
and every step of another context is one that it allows for (`SystemInv`):

* the main task relies on nobody else writing the reference, and does to the ring only what
  `Ring.Grows` allows;
* the interrupt does not write the reference;
* the reader relies on `Ring.Grows`, and writes nothing.

It follows for every run that a read that is accepted has all its fields from one published
reference (`accepted_read_published`). What the references are that are published is the subject
of `CfsEds.Time.CalmRun`.
-/

namespace CfsEds.Time

open CfsEds.Lib.Interleave CfsEds.Lib.VersionedRing Prog List

/-! ## The reader -/

/-- A reader relies on updates being made by the protocol of the ring. -/
def readerRely : Rely TimeState where
  rel s t := s.ref.Grows bufIndex t.ref
  refl s := Ring.Grows.refl s.ref
  trans := Ring.Grows.trans

/-- A reader writes nothing. -/
def ReaderGuarantee (s t : TimeState) : Prop := t = s

section Reader

variable {v : BitVec 32} {d : ReferenceData} {P : Prop} {s t : TimeState} {β : Type}

/-- A reader that took the version `v` of the published reference `d` knows `P` about the
values it has read, unless the version changes. -/
structure Copied (v : BitVec 32) (d : ReferenceData) (P : Prop) (s : TimeState) : Prop where
  current : ∃ d, s.ref.Current bufIndex d
  copied : s.ref.stamped < 2 ^ 32 →
    s.ref.Reading bufIndex v d ∧ ((s.ref.slots (bufIndex v)).version = v → P)

theorem Copied.stable (h : Copied v d P s) (hst : readerRely.rel s t) : Copied v d P t := by
  refine ⟨hst.current h.current, fun hlt => ?_⟩
  obtain ⟨hreading, hP⟩ := h.copied (Nat.lt_of_le_of_lt hst.stamped hlt)
  exact ⟨hreading.grows hst hlt, fun hver => hP (hst.version_of_reading hreading hlt hver)⟩

theorem Copied.imp {P' : Prop} (h : Copied v d P s) (hP : P → P') : Copied v d P' s :=
  ⟨h.current, fun hlt => ⟨(h.copied hlt).1, fun hver => hP ((h.copied hlt).2 hver)⟩⟩

theorem copied_cell (h : Copied v d P s) (c : Cell β) :
    wp readerRely ReaderGuarantee (readCell (bufIndex v) c)
      (fun b t => Copied v d (P ∧ b = c.get d) t) s := by
  refine wp_read (fun _ => rfl) fun t ht u hu => ⟨hu.current (ht.current h.current), fun hlt => ?_⟩
  obtain ⟨hreading, hP⟩ := (h.stable ht).copied (Nat.lt_of_le_of_lt hu.stamped hlt)
  refine ⟨hreading.grows hu hlt, fun hver => ?_⟩
  -- the slot still has the version, so it held `d` when the word was read
  have hver' := hu.version_of_reading hreading hlt hver
  obtain ⟨-, -, -, hdata⟩ := hreading
  exact ⟨hP hver', congrArg c.get (hdata hver')⟩

theorem copied_time (h : Copied v d P s) (c : TimeCell) :
    wp readerRely ReaderGuarantee (readTime (bufIndex v) c)
      (fun b t => Copied v d (P ∧ b = ⟨c.seconds.get d, c.subseconds.get d⟩) t) s := by
  refine wp_bind (wp_mono (copied_cell h c.seconds) fun seconds t ht => ?_)
  refine wp_bind (wp_mono (copied_cell ht c.subseconds) fun subseconds u hu => ?_)
  refine wp_pure fun w hw => (hu.stable hw).imp ?_
  rintro ⟨⟨hp, rfl⟩, rfl⟩
  exact ⟨hp, rfl⟩

/-- What was copied with a version that matched is a published reference. -/
def CopyOk (valid : Bool) (data : ReferenceData) (s : TimeState) : Prop :=
  s.ref.stamped < 2 ^ 32 → valid = true → data ∈ s.ref.published

theorem CopyOk.stable {valid : Bool} {data : ReferenceData} (h : CopyOk valid data s)
    (hst : readerRely.rel s t) : CopyOk valid data t := by
  intro hlt hvalid
  obtain ⟨l, hl, -⟩ := hst.news
  rw [hl]
  exact mem_append_right l (h (Nat.lt_of_le_of_lt hst.stamped hlt) hvalid)

/-- One pass of the loop: the fields are read in turn, and the version of the slot last. -/
theorem copyReference_ok (h : ∃ d, s.ref.Current bufIndex d) :
    wp readerRely ReaderGuarantee copyReference
      (fun copy t => (∃ d, t.ref.Current bufIndex d) ∧ CopyOk copy.1 copy.2.2 t) s := by
  refine wp_bind (wp_read (fun _ => rfl) fun s₁ h₁ s₂ h₂ => ?_)
  obtain ⟨d, hd⟩ := h₁.current h
  have hstart : Copied s₁.ref.last d True s₂ :=
    ⟨h₂.current ⟨d, hd⟩, fun hlt => ⟨hd.reading.grows h₂ hlt, fun _ => trivial⟩⟩
  generalize s₁.ref.last = v at hstart ⊢
  refine wp_bind (wp_read (fun _ => rfl) fun s₃ h₃ s₄ h₄ => ?_)
  refine wp_bind (wp_mono (copied_time ((hstart.stable h₃).stable h₄) _) fun met _ hc => ?_)
  refine wp_bind (wp_mono (copied_time hc _) fun stcf _ hc => ?_)
  refine wp_bind (wp_mono (copied_cell hc _) fun leaps _ hc => ?_)
  refine wp_bind (wp_mono (copied_time hc _) fun delay _ hc => ?_)
  refine wp_bind (wp_mono (copied_time hc _) fun latch _ hc => ?_)
  refine wp_bind (wp_mono (copied_cell hc _) fun setState _ hc => ?_)
  refine wp_bind (wp_mono (copied_cell hc _) fun flyState _ hc => ?_)
  refine wp_bind (wp_mono (copied_cell hc _) fun direction _ hc => ?_)
  refine wp_bind (wp_read (fun _ => rfl) fun t ht u hu => wp_pure fun w hw => ?_)
  have hct := hc.stable ht
  have htw := readerRely.trans hu hw
  refine ⟨htw.current hct.current, CopyOk.stable (fun hlt hvalid => ?_) htw⟩
  obtain ⟨hreading, hcopied⟩ := hct.copied hlt
  have hver := of_decide_eq_true hvalid
  obtain ⟨⟨⟨⟨⟨⟨⟨⟨-, hmet⟩, hstcf⟩, hleaps⟩, hdelay⟩, hlatch⟩, hset⟩, hfly⟩, hdir⟩ := hcopied hver.symm
  have hdata : (⟨leaps, setState, flyState, direction, met, stcf, delay, latch⟩ : ReferenceData)
      = d := by
    rw [hmet, hstcf, hleaps, hdelay, hlatch, hset, hfly, hdir]
    rfl
  rw [hdata]
  exact hreading.mem

theorem readReference_ok (retryCount : Nat) (h : ∃ d, s.ref.Current bufIndex d) :
    wp readerRely ReaderGuarantee (readReference retryCount)
      (fun r t => CopyOk r.accepted r.data t) s := by
  induction retryCount generalizing s with
  | zero =>
    refine wp_bind (wp_mono (copyReference_ok h) fun copy t ht => ?_)
    obtain ⟨-, hok⟩ := ht
    split
    next hvalid => exact wp_pure fun u hu => hvalid ▸ hok.stable hu
    next => exact wp_pure fun u hu _ haccepted => absurd haccepted (by simp)
  | succ n ih =>
    refine wp_bind (wp_mono (copyReference_ok h) fun copy t ht => ?_)
    obtain ⟨hcurrent, hok⟩ := ht
    split
    next hvalid => exact wp_pure fun u hu => hvalid ▸ hok.stable hu
    next => exact ih hcurrent

end Reader

/-! ## The interrupt -/

/-- The interrupt does not write the reference. -/
def IsrGuarantee (s t : TimeState) : Prop := t.ref = s.ref

/-- A context that owns nothing. -/
def nothing (_ : TimeState) : Unit := ()

theorem tone1HzISR_ok (cfg : TimeConfig) :
    Triple nothing IsrGuarantee (fun _ => True) (tone1HzISR cfg) (fun _ _ => True) := by
  have hread : ∀ {β : Type} (f : TimeState → β),
      Triple nothing IsrGuarantee (fun _ => True) (read f) (fun _ _ => True) :=
    fun f => Triple.read (fun _ => rfl) fun _ _ => trivial
  have hset : ∀ g, Triple nothing IsrGuarantee (fun _ => True) (setIntr g) (fun _ _ => True) :=
    fun g => Triple.write fun _ _ => ⟨rfl, trivial⟩
  have hgood : Triple nothing IsrGuarantee (fun _ => True) (goodTone cfg) (fun _ _ => True) := by
    refine Triple.bind (hset _) fun _ => Triple.ite (fun _ => ?_) fun _ => ?_
    · exact Triple.bind (hread _) fun _ => hset _
    · exact Triple.bind (hread _) fun _ => hset _
  refine Triple.bind (hread _) fun _ => Triple.bind (Q := fun _ _ => True) ?_ fun _ =>
    Triple.bind (Q := fun _ _ => True) (Triple.ite (fun _ => hgood) fun _ => hset _) fun _ =>
    Triple.bind (hset _) fun _ => hset _
  exact Triple.bind (hread _) fun _ => Triple.bind (hread _) fun _ => Triple.pure fun _ hw => hw

/-! ## Runs -/

/-- Time services after initialisation: the reference is `d`, the main task and the
interrupt are idle, and the reader is about to start. -/
structure Started (c : System) (d : ReferenceData) : Prop where
  quiet : c.mem.ref.Quiet bufIndex d
  fresh : c.mem.ref.stamped = 0
  main : c.main = .done ()
  isr : c.isr = .done ()
  reader : c.reader = readReference 4

/-- What holds of the contexts at every point of a run. -/
structure SystemInv (c : System) : Prop where
  main : wp (keeps (mainPart ringOnly)) mainGuarantee.rel c.main
    (fun _ s => Idle (mainPart ringOnly s)) c.mem
  isr : wp (keeps nothing) IsrGuarantee c.isr (fun _ _ => True) c.mem
  reader : wp readerRely ReaderGuarantee c.reader (fun r t => CopyOk r.accepted r.data t) c.mem

section Runs

variable {cfg : TimeConfig} {c c' : System} {d₀ : ReferenceData} {event : Option Event}

theorem Started.inv (h : Started c d₀) : SystemInv c where
  main := by
    rw [h.main]
    refine wp_pure fun t ht => ⟨d₀, ?_⟩
    rw [show mainPart ringOnly t = mainPart ringOnly c.mem from ht]
    exact h.quiet
  isr := by
    rw [h.isr]
    exact fun _ _ => trivial
  reader := by
    rw [h.reader]
    exact readReference_ok 4 ⟨d₀, h.quiet.current⟩

/-- Another context only changed what the interrupt or the clock may. -/
theorem SystemInv.interfere {s : TimeState} (h : SystemInv c) (hs : IsrGuarantee c.mem s) :
    wp (keeps (mainPart ringOnly)) mainGuarantee.rel c.main
        (fun _ s => Idle (mainPart ringOnly s)) s ∧
      wp readerRely ReaderGuarantee c.reader (fun r t => CopyOk r.accepted r.data t) s := by
  refine ⟨wp_stable h.main (congrArg (·, ()) hs), wp_stable h.reader ?_⟩
  show c.mem.ref.Grows bufIndex s.ref
  rw [show s.ref = c.mem.ref from hs]
  exact Ring.Grows.refl _

theorem SystemInv.step (h : SystemInv c) (hstep : Step cfg c event c') : SystemInv c' := by
  cases hstep with
  | send => exact ⟨h.main, h.isr, h.reader⟩
  | dispatch msg rest hidle =>
    have hmain := h.main
    rw [hidle] at hmain
    have hquiet := wp_done hmain
    exact ⟨Abides.handle_msg msg c.mem hquiet, h.isr, h.reader⟩
  | main p s hp =>
    obtain ⟨hgrows, hmain⟩ := wp_step h.main hp
    exact ⟨hmain, wp_stable h.isr rfl, wp_stable h.reader hgrows.1⟩
  | tone => exact ⟨h.main, tone1HzISR_ok cfg c.mem trivial, h.reader⟩
  | isr p s hp =>
    obtain ⟨hkeeps, hisr⟩ := wp_step h.isr hp
    obtain ⟨hmain, hreader⟩ := h.interfere hkeeps
    exact ⟨hmain, hisr, hreader⟩
  | reader p s hp =>
    obtain ⟨rfl, hreader⟩ := wp_step h.reader hp
    exact ⟨h.main, h.isr, hreader⟩
  | clock t met =>
    obtain ⟨hmain, hreader⟩ := h.interfere (s := { c.mem with
      intr := { c.mem.intr with localClock := t, localMET := met } }) rfl
    exact ⟨hmain, wp_stable h.isr rfl, hreader⟩

theorem Run.inv (hrun : Run cfg c c') (h : SystemInv c) : SystemInv c' := by
  induction hrun with
  | refl => exact h
  | step _ hs ih => exact ih.step hs

/-! ### Schedules -/

/-- A context to run next. -/
inductive Choice where
  | send (msg : Msg)
  | dispatch
  | main
  | tone
  | isr
  | reader
  | clock (t : SysTime) (met : BitVec 32)

/-- Let a context take a step, if it has one. -/
def System.exec (cfg : TimeConfig) (c : System) : Choice → System
  | .send msg => { c with pipe := c.pipe ++ [msg] }
  | .dispatch =>
    match c.main, c.pipe with
    | .done (), msg :: rest => { c with main := handle cfg msg, pipe := rest }
    | _, _ => c
  | .main => (c.main.step c.mem).elim c fun (p, s) => { c with main := p, mem := s }
  | .tone =>
    match c.isr with
    | .done () => { c with isr := tone1HzISR cfg }
    | _ => c
  | .isr => (c.isr.step c.mem).elim c fun (p, s) => { c with isr := p, mem := s }
  | .reader => (c.reader.step c.mem).elim c fun (p, s) => { c with reader := p, mem := s }
  | .clock t met =>
    { c with mem := { c.mem with intr := { c.mem.intr with localClock := t, localMET := met } } }

/-- What begins with a choice. -/
def System.begins (c : System) : Choice → Option Event
  | .dispatch =>
    match c.main, c.pipe with
    | .done (), msg :: _ => some (.message msg)
    | _, _ => none
  | .tone =>
    match c.isr with
    | .done () => some .tone
    | _ => none
  | _ => none

theorem System.exec_cases (cfg : TimeConfig) (c : System) (choice : Choice) :
    (c.exec cfg choice = c ∧ c.begins choice = none) ∨
      Step cfg c (c.begins choice) (c.exec cfg choice) := by
  cases choice with
  | send msg => exact .inr (.send c msg)
  | dispatch =>
    rw [System.exec, System.begins]
    split
    next msg rest hmain hpipe => exact .inr (.dispatch c msg rest hmain hpipe)
    next => exact .inl ⟨rfl, rfl⟩
  | main =>
    rw [System.exec]
    cases hp : c.main.step c.mem with
    | none => exact .inl ⟨rfl, rfl⟩
    | some next => exact .inr (.main c next.1 next.2 hp)
  | tone =>
    rw [System.exec, System.begins]
    split
    next hisr => exact .inr (.tone c hisr)
    next => exact .inl ⟨rfl, rfl⟩
  | isr =>
    rw [System.exec]
    cases hp : c.isr.step c.mem with
    | none => exact .inl ⟨rfl, rfl⟩
    | some next => exact .inr (.isr c next.1 next.2 hp)
  | reader =>
    rw [System.exec]
    cases hp : c.reader.step c.mem with
    | none => exact .inl ⟨rfl, rfl⟩
    | some next => exact .inr (.reader c next.1 next.2 hp)
  | clock t met => exact .inr (.clock c t met)

/-- A schedule is a run. -/
theorem Run.exec (h : Run cfg c c') (choices : List Choice) :
    Run cfg c (choices.foldl (System.exec cfg) c') := by
  induction choices generalizing c' with
  | nil => exact h
  | cons choice choices ih =>
    rcases c'.exec_cases cfg choice with ⟨hsame, -⟩ | hstep
    · rw [foldl_cons, hsame]
      exact ih h
    · exact ih (h.step hstep)

/-! ### Results -/

/-- The fields that `CFE_TIME_GetReference` copied are all from one published reference
whenever it accepts them, however its reads fall between the accesses of the updates. -/
theorem accepted_read_published (h₀ : Started c d₀) (hrun : Run cfg c c')
    (hupdates : c'.mem.ref.stamped < 2 ^ 32) {r : ReadResult} (hdone : c'.reader = .done r)
    (haccepted : r.accepted = true) : r.data ∈ c'.mem.ref.published := by
  have hread := (hrun.inv h₀.inv).reader
  rw [hdone] at hread
  exact wp_done hread hupdates haccepted

end Runs

/-! ### A sample run -/

/-- A time server with an internal source. -/
def sampleConfig : TimeConfig where
  server := true
  src := none
  virtualMET := true
  defaultUTC := false
  atToneWas := true
  fakeTone := false
  startFly := 2#32
  latchFly := 8#32
  maxLocalClock := ⟨27#32, 0#32⟩
  minElapsed := 0#32
  maxElapsed := 0x40000000#32
  toneOverLimit := 0x10000000#32
  toneUnderLimit := 0xF0000000#32

/-- Its state after initialisation, with a reader about to start. -/
def sampleSystem : System where
  mem :=
    { ref := ⟨fun _ => ⟨0#32, default⟩, 0#32, [default], 0⟩
      task := default
      intr := default
      getReferenceFail := false }
  pipe := []
  main := .done ()
  isr := .done ()
  reader := readReference 4

theorem sampleSystem_started : Started sampleSystem default :=
  ⟨⟨⟨rfl, rfl⟩, rfl⟩, rfl, rfl, rfl, rfl⟩

/-- A new correlation factor is set while the reader copies the old one. -/
def sampleSchedule : List Choice :=
  [.send (.setSTCF ⟨7#32, 5#32⟩), .dispatch] ++ List.replicate 29 .main ++
    List.replicate 8 .reader ++ [.main] ++ List.replicate 7 .reader

theorem sample_read_published :
    (default : ReferenceData) ∈ (sampleSchedule.foldl (System.exec sampleConfig) sampleSystem).mem.ref.published := by
  refine accepted_read_published (r := ⟨true, 4, default, default⟩) sampleSystem_started
    ((Run.refl sampleSystem).exec sampleSchedule) (by decide +kernel) ?_ rfl
  rfl

/-! ## Retries

Whether a read failed is told from the number of retries that are left, and with none left the
last attempt may have matched all the same. -/

section Retries

variable {cfg : TimeConfig}

/-- What an attempt copied, and whether its version matched. -/
abbrev Attempt := Bool × SysTime × ReferenceData

/-- The loop of `CFE_TIME_GetReference` with a record of its attempts: those that were caught
mid-update, and the last one. -/
def readAttempts (retryCount : Nat) : Prog TimeState (List Attempt × Attempt) := do
  let copy ← copyReference
  if copy.1 then return ([], copy)
  else
    match retryCount with
    | 0 => return ([], copy)
    | n + 1 =>
      let attempts ← readAttempts n
      return (copy :: attempts.1, attempts.2)

/-- How the loop ended. -/
def resultOf (retryCount : Nat) (attempts : List Attempt × Attempt) : ReadResult :=
  ⟨attempts.2.1, retryCount - attempts.1.length, attempts.2.2.1, attempts.2.2.2⟩

/-- What `CFE_TIME_GetReference` does when it takes the read for failed. -/
def failRead : Prog TimeState Reference := do
  write fun s => { s with getReferenceFail := true }
  return default

/-- `CFE_TIME_GetReference` after its loop. -/
def conclude (cfg : TimeConfig) (result : ReadResult) : Prog TimeState Reference :=
  if result.retryCount = 0 then failRead
  else return computeReference cfg result.currentLatch result.data

/-- The record is of the loop as it is. -/
theorem readReference_eq (n : Nat) :
    readReference n = readAttempts n >>= fun attempts => pure (resultOf n attempts) := by
  induction n with
  | zero =>
    rw [readReference, readAttempts, bind_bind]
    congr 1
    funext copy
    rcases copy with ⟨_ | _, copy⟩ <;> rfl
  | succ n ih =>
    rw [readReference, readAttempts, bind_bind]
    congr 1
    funext copy
    rcases copy with ⟨_ | _, copy⟩
    · change readReference n = (readAttempts n >>= _) >>= _
      rw [ih, bind_bind]
      congr 1
      funext attempts
      exact congrArg Prog.done (by simp [resultOf])
    · rfl

/-- The loop goes on after a mismatch as long as it has retries left. -/
theorem readAttempts_returns {n : Nat} {attempts : List Attempt × Attempt}
    (h : (readAttempts n).Returns attempts) :
    attempts.1.length ≤ n ∧ (∀ a ∈ attempts.1, a.1 = false) ∧
      (attempts.2.1 = false → attempts.1.length = n) := by
  induction n generalizing attempts with
  | zero =>
    obtain ⟨⟨_ | _, copy⟩, -, rfl⟩ := returns_bind h
    · exact ⟨le_rfl, nofun, fun _ => rfl⟩
    · exact ⟨le_rfl, nofun, fun _ => rfl⟩
  | succ n ih =>
    obtain ⟨⟨_ | _, copy⟩, -, hcopy⟩ := returns_bind h
    · obtain ⟨rest, hrest, rfl⟩ := returns_bind hcopy
      obtain ⟨hle, hall, hlast⟩ := ih hrest
      exact ⟨Nat.succ_le_succ hle, forall_mem_cons.mpr ⟨rfl, hall⟩,
        fun h => congrArg (· + 1) (hlast h)⟩
    · cases hcopy
      exact ⟨Nat.zero_le _, nofun, nofun⟩

/-- A read fails only if all of its attempts were caught mid-update, and returns what an attempt
that matched has copied. -/
def ReadGenuine (cfg : TimeConfig) (attempts : List Attempt × Attempt) : Prop :=
  ∀ a ∈ attempts.1 ++ [attempts.2],
    (conclude cfg (resultOf 4 attempts) = failRead → a.1 = false) ∧
    (a.1 = true → conclude cfg (resultOf 4 attempts) = pure (computeReference cfg a.2.1 a.2.2))

/-- Whatever others do between its accesses, `CFE_TIME_GetReference` fails for a reason, unless
it needed its last retry. -/
theorem read_failure_genuine_iff (cfg : TimeConfig) : (getReference cfg =
      readAttempts 4 >>= fun attempts => conclude cfg (resultOf 4 attempts)) ∧
    ∀ attempts, (readAttempts 4).Returns attempts →
      (ReadGenuine cfg attempts ↔ ¬ (attempts.1.length = 4 ∧ attempts.2.1 = true)) := by
  constructor
  · change readReference 4 >>= conclude cfg = _
    rw [readReference_eq, bind_bind]
    rfl
  · intro attempts h
    obtain ⟨hle, hall, hlast⟩ := readAttempts_returns h
    have hmem : attempts.2 ∈ attempts.1 ++ [attempts.2] := by simp
    constructor
    · rintro hgenuine ⟨hlength, hmatch⟩
      have hfail : conclude cfg (resultOf 4 attempts) = failRead :=
        if_pos (by simp [resultOf, hlength])
      rw [(hgenuine _ hmem).1 hfail] at hmatch
      cases hmatch
    · intro hretry a ha
      by_cases hlength : attempts.1.length = 4
      · -- then no attempt matched
        have hmiss : a.1 = false := by
          rcases mem_append.mp ha with ha | ha
          · exact hall a ha
          · rw [mem_singleton.mp ha]
            exact Bool.eq_false_iff.mpr fun hmatch => hretry ⟨hlength, hmatch⟩
        exact ⟨fun _ => hmiss, fun hmatch => absurd hmatch (by rw [hmiss]; nofun)⟩
      have hdone : conclude cfg (resultOf 4 attempts) =
          pure (computeReference cfg attempts.2.2.1 attempts.2.2.2) :=
        if_neg (Nat.sub_ne_zero_of_lt (lt_of_le_of_ne hle hlength))
      rw [hdone]
      refine ⟨nofun, fun hmatch => ?_⟩
      rcases mem_append.mp ha with ha | ha
      · exact absurd hmatch (by rw [hall a ha]; nofun)
      · rw [mem_singleton.mp ha]

/-- Four updates in the middle of an attempt. -/
def lappedAttempt : List Choice :=
  let update := [.send (.setSTCF ⟨7#32, 5#32⟩), .dispatch] ++ List.replicate 31 .main
  [.reader] ++ update ++ update ++ update ++ update ++ List.replicate 14 .reader

/-- Four attempts are overtaken by updates, the fifth is not: it is accepted, and the read is
taken for failed. -/
theorem last_retry_fails :
    ∃ c r, Run sampleConfig sampleSystem c ∧ c.reader.result? = some r ∧ r.accepted = true ∧
      conclude sampleConfig r = failRead := by
  let schedule := lappedAttempt ++ lappedAttempt ++ lappedAttempt ++ lappedAttempt ++
    List.replicate 15 .reader
  refine ⟨schedule.foldl (System.exec sampleConfig) sampleSystem,
    ⟨true, 0, default, { (default : ReferenceData) with atToneSTCF := ⟨7#32, 5#32⟩ }⟩,
    (Run.refl sampleSystem).exec schedule, ?_, rfl, rfl⟩
  decide +kernel

/-- A reference with a correlation factor. -/
def correlated : ReferenceData := { (default : ReferenceData) with atToneSTCF := ⟨7#32, 5#32⟩ }

/-- A state in which it has been published last, and the slot of the first version is taken. -/
def updatedState : TimeState :=
  { sampleSystem.mem with ref := ⟨fun _ => ⟨4#32, correlated⟩, 4#32, [correlated, default], 4⟩ }

/-- The first attempt is overtaken by updates, and the second one copies the new correlation
factor. -/
theorem second_attempt_genuine :
    ReadGenuine sampleConfig ([(false, default, default)], true, default, correlated) := by
  let s := sampleSystem.mem
  have hmiss : copyReference.Returns (false, default, default) :=
    ⟨s, s, s, s, s, s, s, s, s, s, s, s, s, s, updatedState, rfl⟩
  have hmatch : copyReference.Returns (true, default, correlated) :=
    returns_run copyReference updatedState
  have hattempts : (readAttempts 4).Returns
      ([(false, default, default)], true, default, correlated) :=
    bind_returns hmiss (bind_returns (bind_returns hmatch rfl) rfl)
  exact ((read_failure_genuine_iff sampleConfig).2 _ hattempts).mpr nofun

end Retries

end CfsEds.Time
