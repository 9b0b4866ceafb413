import CfsEds.Tbl.Ownership

/-!
# Only validated images become active

A table with a validation function is loaded by the ground in three steps: the load
fills the working buffer and clears its `Validated` flag, the function is called on it
and sets the flag, the activation wants the flag to be set. `ValidInv` says that the flag
(and `LoadPending`) of a working buffer can be trusted: the last thing in the history of
the buffer that wrote it is older than a successful call of the function on what is in it
now. In the runs that keep it, every image that becomes active has been validated.

A ground load that stops half way does not keep it: it has written into the buffer and
leaves the flag as it was, which does no harm if the flag is clear. The load of an
application validates what it has loaded within the same call. Distinct loads have distinct working buffers (`LoadBuffInv`), so that what
is done for one table leaves the others alone (`Unaffected`).
-/

namespace CfsEds.Tbl

open CfsEds.Lib.Faults CfsEds.Lib.Ownership List Function

variable {calledByApp : Bool} {b : BufRef} {vf : Bytes → Int} {es : List Event} {i t : Nat}
  {o : Obs} {r r' : RegistryRec} {status status' : Status} {s₁ s₂ : TblState}

/-! ## The history of a buffer -/

/-- The validation function has found `image` in `b` valid, and `b` was not written since. -/
def ValidatedSince (history : List Obs) (b : BufRef) (image : Bytes) : Prop :=
  ∃ newer older, history = newer ++ .validation b image 0 :: older ∧ .wrote b ∉ newer

theorem ValidatedSince.extend {history l : List Obs} {image : Bytes}
    (h : ValidatedSince history b image) (hl : .wrote b ∉ l) :
    ValidatedSince (l ++ history) b image := by
  obtain ⟨newer, older, rfl, hnewer⟩ := h
  refine ⟨l ++ newer, older, (append_assoc _ _ _).symm, ?_⟩
  simp [hl, hnewer]

/-- What became the active contents of a table with a validation function had been
validated. -/
def AllValidated (history : List Obs) : Prop :=
  ∀ newer older t b image, history = newer ++ .activated t b image true :: older →
    ValidatedSince older b image

theorem AllValidated.cons {history : List Obs} (h : AllValidated history)
    (ho : ∀ t b image, o = .activated t b image true → ValidatedSince history b image) :
    AllValidated (o :: history) := by
  intro newer older t b image heq
  cases newer with
  | nil =>
    obtain ⟨rfl, rfl⟩ := List.cons.inj heq
    exact ho t b image rfl
  | cons _ newer =>
    obtain ⟨-, hrest⟩ := List.cons.inj heq
    exact h newer older t b image hrest

/-- The history has grown, but nothing became active. -/
def Quiet (s s' : TblState) : Prop :=
  ∃ l, s'.history = l ++ s.history ∧ ∀ o ∈ l, ∀ t b image, o ≠ .activated t b image true

namespace Quiet

variable {s s' s'' : TblState}

theorem of_eq (h : s'.history = s.history) : Quiet s s' := ⟨[], h, by simp⟩

theorem trans (h : Quiet s s') (h' : Quiet s' s'') : Quiet s s'' := by
  obtain ⟨l, hl, hq⟩ := h
  obtain ⟨l', hl', hq'⟩ := h'
  refine ⟨l' ++ l, by rw [hl', hl, append_assoc], fun o ho => ?_⟩
  rcases mem_append.1 ho with ho | ho
  · exact hq' o ho
  · exact hq o ho

theorem of_touched {B : Set BufRef} (h : Touched B s s') : Quiet s s' := by
  obtain ⟨l, hl, hwrote⟩ := h.history
  refine ⟨l, hl, fun o ho => ?_⟩
  obtain ⟨b, -, rfl⟩ := hwrote o ho
  simp

theorem note (ho : ∀ t b image, o ≠ .activated t b image true) (h : s'.history = o :: s.history) :
    Quiet s s' :=
  ⟨[o], h, fun _ ho' => mem_singleton.1 ho' ▸ ho⟩

theorem allValidated (h : Quiet s s') (hs : AllValidated s.history) : AllValidated s'.history := by
  obtain ⟨l, hl, hq⟩ := h
  rw [hl]
  clear hl
  induction l with
  | nil => exact hs
  | cons o l ih =>
    refine (ih fun o' ho' => hq o' (mem_cons_of_mem o ho')).cons fun t b image heq => ?_
    exact absurd heq (hq o mem_cons_self t b image)

end Quiet

/-! ## Working buffers of loads in progress -/

/-- The working buffer of the load in progress of table `t`. -/
def RegistryRec.workBuffer (r : RegistryRec) (t : Nat) : Option BufRef :=
  r.loadInProgress.map fun k => if r.doubleBuffered then .own t k else .shared k

/-- The records agree on what a load goes by. -/
structure SameWork (r r' : RegistryRec) : Prop where
  func : r'.validationFunc = r.validationFunc
  size : r'.size = r.size
  load : r'.loadInProgress = r.loadInProgress
  double : r'.doubleBuffered = r.doubleBuffered
  pending : r'.loadPending = r.loadPending
  dumpOnly : r'.dumpOnly = r.dumpOnly

namespace SameWork

theorem refl (r : RegistryRec) : SameWork r r := ⟨rfl, rfl, rfl, rfl, rfl, rfl⟩

theorem trans {r'' : RegistryRec} (h : SameWork r r') (h' : SameWork r' r'') : SameWork r r'' :=
  ⟨h'.func.trans h.func, h'.size.trans h.size, h'.load.trans h.load, h'.double.trans h.double,
    h'.pending.trans h.pending, h'.dumpOnly.trans h.dumpOnly⟩

theorem workBuffer (h : SameWork r r') (t : Nat) : r'.workBuffer t = r.workBuffer t := by
  rw [RegistryRec.workBuffer, RegistryRec.workBuffer, h.load, h.double]

theorem of_eq (h : r' = r) : SameWork r r' := h ▸ refl r

end SameWork

section Work

variable {cfg : TblConfig} {s s' : TblState} {t u : Nat} {b : BufRef}

theorem eq_of_workBuffer_own {k : Nat} (h : r.workBuffer u = some (.own t k)) : u = t := by
  obtain ⟨j, -, hj⟩ := Option.map_eq_some_iff.1 h
  split at hj
  · exact (BufRef.own.inj hj).1
  · cases hj

theorem sharedBuffer_of_workBuffer (h : r.workBuffer u = some (.shared i)) :
    r.sharedBuffer = some i := by
  obtain ⟨j, hj, heq⟩ := Option.map_eq_some_iff.1 h
  split at heq
  · cases heq
  · rename_i hsingle
    obtain rfl := BufRef.shared.inj heq
    rw [RegistryRec.sharedBuffer, if_neg hsingle, hj]

/-- Two loads have two working buffers. -/
theorem LoadBuffInv.eq_of_workBuffer (hinv : LoadBuffInv cfg s)
    (ht : (s.registry t).workBuffer t = some b) (hu : (s.registry u).workBuffer u = some b) :
    u = t := by
  cases b with
  | own => rw [eq_of_workBuffer_own hu, eq_of_workBuffer_own ht]
  | shared i =>
    have hheld := hinv.owned.unique (.table u) (.table t) i (sharedBuffer_of_workBuffer hu)
      (sharedBuffer_of_workBuffer ht)
    exact Holder.table.inj hheld

theorem LoadBuffInv.not_workBuffer_of_free (hinv : LoadBuffInv cfg s) (hb : b ∈ freeBuffs s) :
    (s.registry u).workBuffer u ≠ some b := by
  obtain ⟨i, rfl, hfree⟩ := hb
  intro hwork
  have htaken : taken s i = true :=
    (hinv.owned.taken_iff i).2 ⟨.table u, sharedBuffer_of_workBuffer hwork⟩
  simp [taken, hfree] at htaken

end Work

/-! ## Tables that are left alone -/

/-- Nothing has happened to the load of table `u`. -/
structure Unaffected (u : Nat) (s s' : TblState) : Prop where
  work : SameWork (s.registry u) (s'.registry u)
  bytes : ∀ b, (s.registry u).workBuffer u = some b → (s'.buffers b).bytes = (s.buffers b).bytes
  validated : ∀ b, (s.registry u).workBuffer u = some b →
    (s'.buffers b).validated = (s.buffers b).validated
  history : ∃ l, s'.history = l ++ s.history ∧
    ∀ b, (s.registry u).workBuffer u = some b → .wrote b ∉ l

namespace Unaffected

variable {cfg : TblConfig} {u : Nat} {s s' s'' : TblState}

theorem of_eq (hwork : SameWork (s.registry u) (s'.registry u))
    (hbuffers : ∀ b, (s.registry u).workBuffer u = some b →
      (s'.buffers b).bytes = (s.buffers b).bytes ∧
        (s'.buffers b).validated = (s.buffers b).validated)
    (hhistory : s'.history = s.history) : Unaffected u s s' where
  work := hwork
  bytes b hb := (hbuffers b hb).1
  validated b hb := (hbuffers b hb).2
  history := ⟨[], hhistory, by simp⟩

theorem trans (h : Unaffected u s s') (h' : Unaffected u s' s'') : Unaffected u s s'' := by
  have hsame : ∀ b, (s.registry u).workBuffer u = some b →
      (s'.registry u).workBuffer u = some b := by
    intro b hb
    rw [h.work.workBuffer, hb]
  refine ⟨h.work.trans h'.work, fun b hb => ?_, fun b hb => ?_, ?_⟩
  · rw [h'.bytes b (hsame b hb), h.bytes b hb]
  · rw [h'.validated b (hsame b hb), h.validated b hb]
  · obtain ⟨l, hl, hwrote⟩ := h.history
    obtain ⟨l', hl', hwrote'⟩ := h'.history
    refine ⟨l' ++ l, by rw [hl', hl, append_assoc], fun b hb => ?_⟩
    simp [hwrote b hb, hwrote' b (hsame b hb)]

/-- Other buffers are filled. -/
theorem of_touched {B : Set BufRef} (h : Touched B s s')
    (hB : ∀ b, (s.registry u).workBuffer u = some b → b ∉ B) : Unaffected u s s' := by
  refine ⟨.of_eq (by rw [h.registry]), fun b hb => ?_, fun b hb => ?_, ?_⟩
  · rw [h.frame b (hB b hb)]
  · rw [h.frame b (hB b hb)]
  · obtain ⟨l, hl, hwrote⟩ := h.history
    refine ⟨l, hl, fun b hb hmem => ?_⟩
    obtain ⟨c, hc, heq⟩ := hwrote _ hmem
    obtain rfl := Obs.wrote.inj heq
    exact hB b hb hc

theorem note (ho : ∀ b, o ≠ .wrote b) : Unaffected u s (s.note o) where
  work := .refl _
  bytes _ _ := rfl
  validated _ _ := rfl
  history := ⟨[o], rfl, fun b _ hmem => ho b (mem_singleton.1 hmem).symm⟩

/-- The record of another table changes. -/
theorem setReg (hu : u ≠ t) : Unaffected u s (s.setReg t r) :=
  .of_eq (.of_eq (by simp [hu])) (fun _ _ => ⟨rfl, rfl⟩) rfl

/-- The description of a buffer changes. -/
theorem setBuff {v : LoadBuff} (hv : (s.registry u).workBuffer u = some b →
      v.bytes = (s.buffers b).bytes ∧ v.validated = (s.buffers b).validated) :
    Unaffected u s (s.setBuff b v) := by
  refine .of_eq (.refl _) (fun c hc => ?_) rfl
  by_cases hcb : c = b
  · subst hcb
    simpa using hv hc
  · simp [hcb]

end Unaffected

/-! ## The invariant -/

/-- The flags of the load of table `t` can be trusted. -/
structure TableValid (s : TblState) (t : Nat) : Prop where
  vouched : ∀ b, (s.registry t).validationFunc = true → (s.registry t).workBuffer t = some b →
    ((s.registry t).loadPending = true ∨ (s.buffers b).validated = true) →
    ValidatedSince s.history b (image s t b)
  pending : (s.registry t).loadPending = true → (s.registry t).loadInProgress ≠ none
  dumpOnly : (s.registry t).dumpOnly = true → (s.registry t).loadInProgress = none

namespace TableValid

variable {s s' : TblState} {t : Nat}

theorem idle (hlip : (s.registry t).loadInProgress = none)
    (hpending : (s.registry t).loadPending = false) : TableValid s t where
  vouched b _ hb := by simp [RegistryRec.workBuffer, hlip] at hb
  pending h := by simp [hpending] at h
  dumpOnly _ := hlip

theorem frame (h : TableValid s t) (hframe : Unaffected t s s') : TableValid s' t := by
  have hw := hframe.work
  refine ⟨fun b hfunc hb hflag => ?_, ?_, ?_⟩
  · rw [hw.func] at hfunc
    rw [hw.workBuffer] at hb
    rw [hw.pending, hframe.validated b hb] at hflag
    obtain ⟨l, hl, hwrote⟩ := hframe.history
    have himage : image s' t b = image s t b := by rw [image, image, hframe.bytes b hb, hw.size]
    rw [hl, himage]
    exact (h.vouched b hfunc hb hflag).extend (hwrote b hb)
  · rw [hw.pending, hw.load]
    exact h.pending
  · rw [hw.dumpOnly, hw.load]
    exact h.dumpOnly

end TableValid

/-- The flags of all loads can be trusted, and always could. -/
structure ValidInv (s : TblState) : Prop where
  tables : ∀ t, TableValid s t
  activated : AllValidated s.history

namespace ValidInv

variable {s s' : TblState}

theorem of_unaffected (hinv : ValidInv s) (h : ∀ u, Unaffected u s s') (hquiet : Quiet s s') :
    ValidInv s' :=
  ⟨fun u => (hinv.tables u).frame (h u), hquiet.allValidated hinv.activated⟩

/-- One table is dealt with, the others are left alone. -/
theorem except (hinv : ValidInv s) (h : ∀ u, u ≠ t → Unaffected u s s') (ht : TableValid s' t)
    (hquiet : Quiet s s') : ValidInv s' := by
  refine ⟨fun u => ?_, hquiet.allValidated hinv.activated⟩
  by_cases hu : u = t
  · exact hu ▸ ht
  · exact (hinv.tables u).frame (h u hu)

end ValidInv

/-! ## Loads -/

section Loads

variable {cfg : TblConfig} {s s' : TblState} {t u : Nat} {b work : BufRef}

theorem workBuffer_of_double {k : Nat} (hlip : r.loadInProgress = some k)
    (hdouble : r.doubleBuffered = true) : r.workBuffer t = some (.own t k) := by
  simp [RegistryRec.workBuffer, hlip, hdouble]

theorem workBuffer_of_single (hlip : r.loadInProgress = some i) (hsingle : r.doubleBuffered = false)
    : r.workBuffer t = some (.shared i) := by
  simp [RegistryRec.workBuffer, hlip, hsingle]

/-- The inactive buffer is the one of the load, if there is one. -/
theorem IsInactive.workBuffer (hb : IsInactive cfg s t b) (huse : UseInv s)
    (hlip : (s.registry t).loadInProgress ≠ none) : (s.registry t).workBuffer t = some b := by
  obtain ⟨k, hk⟩ := Option.ne_none_iff_exists'.1 hlip
  cases hb with
  | own hdouble =>
    rw [workBuffer_of_double hk hdouble, (huse.table t).inactive k hdouble hk]
  | shared hsingle hi => exact workBuffer_of_single hi hsingle

/-- A load works on the buffer it was given, or on the active one. -/
theorem Working.workBuffer (h : Working cfg s t calledByApp (.ok work) s') (huse : UseInv s) :
    (s'.registry t).workBuffer t = some work ∨
      (s' = s ∧ (s.registry t).tableLoadedOnce = false ∧ calledByApp = true ∧
        ∃ k, work = .own t k) := by
  cases h with
  | again hlip hdouble =>
    have hinactive : IsInactive cfg s t (.own t (1 - (s.registry t).activeBufferIndex)) :=
      .own hdouble
    exact .inl (hinactive.workBuffer huse (by simp [hlip]))
  | againShared hlip hsingle => exact .inl (workBuffer_of_single hlip hsingle)
  | direct hlip honce happ => exact .inr ⟨rfl, honce, happ, _, rfl⟩
  | inactive hlip hdouble hfree htouched =>
    rw [htouched.registry]
    refine .inl (workBuffer_of_double ?_ ?_)
    · simp
    · simpa using hdouble
  | shared hlip hsingle hfree htouched =>
    rw [htouched.registry]
    refine .inl (workBuffer_of_single ?_ ?_)
    · simp
    · simpa using hsingle

/-- No other load works on it. -/
theorem Working.not_workBuffer (h : Working cfg s t calledByApp (.ok work) s') (huse : UseInv s)
    (hinv : LoadBuffInv cfg s') (hu : u ≠ t) : (s'.registry u).workBuffer u ≠ some work := by
  intro hwork
  rcases h.workBuffer huse with hmine | ⟨-, -, -, k, rfl⟩
  · exact hu (hinv.eq_of_workBuffer hmine hwork)
  · exact hu (eq_of_workBuffer_own hwork)

theorem Working.unaffected {r : Except Status BufRef} (h : Working cfg s t calledByApp r s')
    (hinv : LoadBuffInv cfg s) (hu : u ≠ t) : Unaffected u s s' := by
  have hrefl : Unaffected u s s := .of_eq (.refl _) (fun _ _ => ⟨rfl, rfl⟩) rfl
  cases h with
  | refused | again | againShared | direct => exact hrefl
  | inactive hlip hdouble hfree htouched =>
    have htake : Unaffected u s (takeOwn s t) := .setReg hu
    refine htake.trans (.of_touched htouched fun c hc => ?_)
    rintro rfl
    exact hu (eq_of_workBuffer_own hc)
  | @shared i _ hlip hsingle hfree htouched =>
    have hmark : Unaffected u s
        (s.setBuff (.shared i) { s.buffers (.shared i) with taken := true }) :=
      .setBuff fun _ => ⟨rfl, rfl⟩
    have htake : Unaffected u s (takeShared s t i) := hmark.trans (.setReg hu)
    refine htake.trans (.of_touched htouched fun c hc => ?_)
    rintro rfl
    rw [htake.work.workBuffer] at hc
    exact hinv.not_workBuffer_of_free ⟨i, rfl, (not_taken_of_findFree cfg hfree).2⟩ hc

theorem Working.quiet {r : Except Status BufRef} (h : Working cfg s t calledByApp r s') :
    Quiet s s' := by
  cases h with
  | refused | again | againShared | direct => exact .of_eq rfl
  | inactive hlip hdouble hfree htouched =>
    have htake : Quiet s (takeOwn s t) := .of_eq rfl
    exact htake.trans (.of_touched htouched)
  | @shared i _ hlip hsingle hfree htouched =>
    have htake : Quiet s (takeShared s t i) := .of_eq rfl
    exact htake.trans (.of_touched htouched)

theorem Unaffected.notified (hu : u ≠ t) : Unaffected u s (notified s t) :=
  .of_eq (.of_eq (by simp [Tbl.notified, hu])) (fun _ _ => ⟨rfl, rfl⟩) rfl

theorem TableValid.notified : TableValid (notified s t) t := by
  refine .idle ?_ ?_ <;> simp [Tbl.notified]

theorem Updated.unaffected (h : Updated cfg s t status s') (hu : u ≠ t) : Unaffected u s s' := by
  cases h with
  | idle => exact .of_eq (.refl _) (fun _ _ => ⟨rfl, rfl⟩) rfl
  | @swapped k =>
    have hset : Unaffected u s (s.setReg t { s.registry t with activeBufferIndex := k }) :=
      .setReg hu
    exact (hset.trans (.note (by simp))).trans (.notified hu)
  | @copied i s₁ s₂ hlip hlt hpending hsingle hunlocked htouched hs₂ =>
    subst hs₂
    have htouch : Unaffected u s s₁ := by
      refine .of_touched htouched fun c hc => ?_
      rintro rfl
      exact hu (eq_of_workBuffer_own hc)
    have hfreed : Unaffected u s (freed (s₁.note
        (.activated t (.shared i) (image s t (.shared i)) (s.registry t).validationFunc)) i) :=
      (htouch.trans (.note (by simp))).trans (.setBuff fun _ => ⟨rfl, rfl⟩)
    exact hfreed.trans (.notified hu)

theorem Updated.tableValid (h : Updated cfg s t status s') (ht : TableValid s t) :
    TableValid s' t := by
  cases h with
  | idle => exact ht
  | swapped | copied => exact .notified

theorem Updated.allValidated (h : Updated cfg s t status s') (ht : TableValid s t)
    (hact : AllValidated s.history) : AllValidated s'.history := by
  cases h with
  | idle => exact hact
  | swapped hlip hpending hdouble =>
    refine hact.cons fun u c im heq => ?_
    obtain ⟨rfl, rfl, rfl, hfunc⟩ := Obs.activated.inj heq
    exact ht.vouched _ hfunc (workBuffer_of_double hlip hdouble) (.inl hpending)
  | @copied i s₁ s₂ hlip hlt hpending hsingle hunlocked htouched hs₂ =>
    subst hs₂
    refine ((Quiet.of_touched htouched).allValidated hact).cons fun u c im heq => ?_
    obtain ⟨rfl, rfl, rfl, hfunc⟩ := Obs.activated.inj heq
    have hvouched := ht.vouched _ hfunc (workBuffer_of_single hlip hsingle) (.inl hpending)
    -- the copy goes to the buffer of the table and not to the working buffer
    obtain ⟨l, hl, hwrote⟩ := htouched.history
    rw [hl]
    refine hvouched.extend fun hmem => ?_
    obtain ⟨d, hd, heq'⟩ := hwrote _ hmem
    obtain rfl := Obs.wrote.inj heq'
    cases hd

theorem Checked.unaffected (h : Checked s vf work t status status' s')
    (hwork : (s.registry u).workBuffer u ≠ some work) : Unaffected u s s' := by
  cases h with
  | skipped => exact .of_eq (.refl _) (fun _ _ => ⟨rfl, rfl⟩) rfl
  | passed => exact .note (by simp)
  | failed hbad htouched =>
    have hnote : Unaffected u s
        (s.note (.validation work (image s t work) (vf (image s t work)))) := .note (by simp)
    refine hnote.trans (.of_touched htouched fun c hc => ?_)
    rintro rfl
    exact hwork hc

theorem Checked.quiet (h : Checked s vf work t status status' s') : Quiet s s' := by
  cases h with
  | skipped => exact .of_eq rfl
  | passed => exact .note (by simp) rfl
  | failed hbad htouched =>
    have hnote : Quiet s
        (s.note (.validation work (image s t work) (vf (image s t work)))) := .note (by simp) rfl
    exact hnote.trans (.of_touched htouched)

/-- An image that goes on to the update has just been validated. -/
theorem Checked.vouched (h : Checked s vf work t status status' s') (hgood : status'.isGood = true)
    (hfunc : (s.registry t).validationFunc = true) :
    ValidatedSince s'.history work (image s' t work) := by
  cases h with
  | skipped hskip =>
    rcases hskip with hbad | hnone
    · exact absurd hgood (by simp [hbad])
    · exact absurd hfunc (by simp [hnone])
  | passed => exact ⟨[], _, rfl, by simp⟩
  | failed hbad => exact absurd hgood (by simp [hbad])

theorem Finished.unaffected (h : Finished cfg s t status status' s') (hu : u ≠ t) :
    Unaffected u s s' := by
  cases h with
  | @freed i =>
    have hfreed : Unaffected u s (Tbl.freed s i) := .setBuff fun _ => ⟨rfl, rfl⟩
    exact hfreed.trans (.setReg hu)
  | dropped => exact .setReg hu
  | updated hgood honce h => exact (Unaffected.setReg hu).trans (h.unaffected hu)
  | first => exact .notified hu

/-- The load of an application, as seen by the other tables. -/
theorem Unaffected.load {s₃ s₄ : TblState} {status'' : Status} (huse : UseInv s)
    (hinv : LoadBuffInv cfg s) (hinv₁ : LoadBuffInv cfg s₁)
    (h₁ : Working cfg s t true (.ok work) s₁) (h₂ : Touched (insert work (freeBuffs s₁)) s₁ s₂)
    (h₃ : Checked s₂ vf work t status status' s₃) (h₄ : Finished cfg s₃ t status' status'' s₄)
    (hu : u ≠ t) : Unaffected u s s₄ := by
  have hwork := h₁.not_workBuffer huse hinv₁ hu
  have hdata : Unaffected u s₁ s₂ := by
    refine .of_touched h₂ fun c hc hmem => ?_
    rcases hmem with rfl | hfree
    · exact hwork hc
    · exact hinv₁.not_workBuffer_of_free hfree hc
  have hcheck : Unaffected u s₂ s₃ := by
    refine h₃.unaffected ?_
    rw [hdata.work.workBuffer]
    exact hwork
  exact (((h₁.unaffected hinv hu).trans hdata).trans hcheck).trans (h₄.unaffected hu)

/-- The load of an application. When the table is locked it stays in progress, with an
image that has just been validated. -/
theorem ValidInv.load {s₃ s₄ : TblState} {status'' : Status} (hvalid : ValidInv s) (huse : UseInv s)
    (hinv : LoadBuffInv cfg s) (hinv₁ : LoadBuffInv cfg s₁)
    (hlip : (s.registry t).loadInProgress = none) (hdump : (s.registry t).dumpOnly = false)
    (h₁ : Working cfg s t true (.ok work) s₁) (h₂ : Touched (insert work (freeBuffs s₁)) s₁ s₂)
    (h₃ : Checked s₂ vf work t status status' s₃) (h₄ : Finished cfg s₃ t status' status'' s₄) :
    ValidInv s₄ := by
  have hothers : ∀ u, u ≠ t → Unaffected u s s₄ := fun u hu =>
    .load huse hinv hinv₁ h₁ h₂ h₃ h₄ hu
  have hquiet : Quiet s s₃ := (h₁.quiet.trans (.of_touched h₂)).trans h₃.quiet
  have hact : AllValidated s₃.history := hquiet.allValidated hvalid.activated
  have hregistry : s₃.registry = s₁.registry := by
    rw [← h₂.registry]
    cases h₃ with
    | skipped | passed => rfl
    | failed _ htouched => exact htouched.registry
  -- of the record of the table only `LoadInProgress` has changed so far
  obtain ⟨lip, hlip₁⟩ := h₁.registry
  have hpending : (s₃.registry t).loadPending = false := by
    rw [hregistry, hlip₁, update_self]
    by_contra hpending
    exact (hvalid.tables t).pending (by simpa using hpending) hlip
  have hfinal : TableValid s₄ t ∧ AllValidated s₄.history := by
    cases h₄ with
    | freed | dropped =>
      refine ⟨.idle ?_ ?_, hact⟩
      · simp
      · simpa using hpending
    | first => exact ⟨.notified, hact⟩
    | updated hgood honce h =>
      have hwork : (s₃.registry t).workBuffer t = some work := by
        rw [hregistry]
        rcases h₁.workBuffer huse with hwork | ⟨rfl, hnever, -, -⟩
        · exact hwork
        · rw [hregistry] at honce
          exact absurd honce (by simp [hnever])
      have hvalid₃ : TableValid (s₃.setReg t { s₃.registry t with loadPending := true }) t := by
        have hreg : (s₃.setReg t { s₃.registry t with loadPending := true }).registry t =
            { s₃.registry t with loadPending := true } := by simp
        refine ⟨fun c hfunc hc _ => ?_, fun _ => ?_, fun hd => ?_⟩
        · rw [hreg] at hfunc hc
          obtain rfl : work = c := Option.some.inj (hwork.symm.trans hc)
          have himage : image (s₃.setReg t { s₃.registry t with loadPending := true }) t work =
              image s₃ t work := by simp [image, hreg]
          rw [himage]
          refine h₃.vouched hgood ?_
          rw [h₂.registry, ← hregistry]
          exact hfunc
        · rw [hreg]
          intro hnone
          have hnone : (s₃.registry t).loadInProgress = none := hnone
          simp [RegistryRec.workBuffer, hnone] at hwork
        · rw [hreg, hregistry, hlip₁, update_self] at hd
          simp [hdump] at hd
      exact ⟨h.tableValid hvalid₃, h.allValidated hvalid₃ hact⟩
  refine ⟨fun u => ?_, hfinal.2⟩
  by_cases hu : u = t
  · exact hu ▸ hfinal.1
  · exact (hvalid.tables u).frame (hothers u hu)

/-- A ground load after which the `Validated` flag is clear, if the table has a function. -/
theorem ValidInv.groundLoad {v : LoadBuff} (hvalid : ValidInv s) (huse : UseInv s)
    (hinv : LoadBuffInv cfg s) (hinv₁ : LoadBuffInv cfg s₁)
    (hdump : (s.registry t).dumpOnly = false) (hpending : (s.registry t).loadPending = false)
    (h₁ : Working cfg s t false (.ok b) s₁) (h₂ : Touched {b} s₁ s₂)
    (hv : (s.registry t).validationFunc = true → v.validated = false) :
    ValidInv (s₂.setBuff b v) := by
  have hothers : ∀ u, u ≠ t → Unaffected u s (s₂.setBuff b v) := by
    intro u hu
    have hwork : (s₁.registry u).workBuffer u ≠ some b := h₁.not_workBuffer huse hinv₁ hu
    have hdata : Unaffected u s₁ s₂ := by
      refine .of_touched h₂ fun c hc => ?_
      rintro rfl
      exact hwork hc
    refine ((h₁.unaffected hinv hu).trans hdata).trans (.setBuff fun hc => ?_)
    rw [hdata.work.workBuffer] at hc
    exact absurd hc hwork
  have hquiet : Quiet s (s₂.setBuff b v) := (h₁.quiet.trans (.of_touched h₂)).trans (.of_eq rfl)
  obtain ⟨lip, hlip₁⟩ := h₁.registry
  have hreg : (s₂.setBuff b v).registry t = { s.registry t with loadInProgress := lip } := by
    simp [h₂.registry, hlip₁]
  refine hvalid.except hothers ⟨fun c hfunc hc hflag => ?_, fun hp => ?_, fun hd => ?_⟩ hquiet
  · have hwork : (s₁.registry t).workBuffer t = some b := by
      rcases h₁.workBuffer huse with hwork | ⟨-, -, happ, -⟩
      · exact hwork
      · cases happ
    rw [TblState.setBuff_registry, h₂.registry] at hc
    obtain rfl : b = c := Option.some.inj (hwork.symm.trans hc)
    rw [hreg] at hfunc hflag
    have hfunc : (s.registry t).validationFunc = true := hfunc
    rcases hflag with hflag | hflag
    · simp [hpending] at hflag
    · simp only [TblState.setBuff, update_self, hv hfunc] at hflag
      cases hflag
  · rw [hreg] at hp
    simp [hpending] at hp
  · rw [hreg] at hd
    simp [hdump] at hd

end Loads

/-! ## Moves -/

section Moves

variable {cfg : TblConfig} {s s' : TblState}

/-- A table's record is overwritten, with its buffers; the table has no load then. -/
theorem ValidInv.initialized (hvalid : ValidInv s) (bufs : Nat → LoadBuff)
    (hlip : r.loadInProgress = none) (hpending : r.loadPending = false) :
    ValidInv (initialized s t r bufs) := by
  have hreg : (Tbl.initialized s t r bufs).registry t = r := by
    simp
  refine hvalid.except (t := t) (fun u hu => .of_eq (.of_eq ?_) (fun b hb => ?_) rfl)
    (.idle ?_ ?_) (.of_eq rfl)
  · simp [hu]
  · cases b with
    | own =>
      obtain rfl := eq_of_workBuffer_own hb
      simp [hu]
    | shared => exact ⟨rfl, rfl⟩
  · rw [hreg, hlip]
  · rw [hreg, hpending]

/-- A free shared buffer is filled for a dump. -/
theorem ValidInv.dump (hvalid : ValidInv s) (hinv : LoadBuffInv cfg s)
    (hfree : findFreeLoadBuff cfg s = some i) (hregistry : s₁.registry = s.registry)
    (hbuffers : ∀ b, (s₁.buffers b).bytes = (s.buffers b).bytes ∧
      (s₁.buffers b).validated = (s.buffers b).validated) (hhistory : s₁.history = s.history)
    (htouched : Touched {.shared i} s₁ s') : ValidInv s' := by
  have hstart : ∀ u, Unaffected u s s₁ := fun u =>
    .of_eq (.of_eq (by rw [hregistry])) (fun b _ => hbuffers b) hhistory
  have hquiet : Quiet s s₁ := .of_eq hhistory
  refine hvalid.of_unaffected (fun u => (hstart u).trans (.of_touched htouched fun b hb => ?_))
    (hquiet.trans (.of_touched htouched))
  rintro rfl
  rw [(hstart u).work.workBuffer] at hb
  exact hinv.not_workBuffer_of_free ⟨i, rfl, (not_taken_of_findFree cfg hfree).2⟩ hb

/-- The validation function finds the inactive buffer valid. -/
theorem ValidInv.passed (hvalid : ValidInv s) (huse : UseInv s) (hinv : LoadBuffInv cfg s)
    {t : Nat} {b : BufRef} (hb : IsInactive cfg s t b) :
    ValidInv ((s.note (.validation b (image s t b) 0)).setBuff b
      { s.buffers b with validated := true }) := by
  refine hvalid.except (t := t) (fun u hu => ?_) ⟨fun c _ hc _ => ?_, ?_, ?_⟩
    (.note (o := .validation b (image s t b) 0) (by simp) rfl)
  · have hnote : Unaffected u s (s.note (.validation b (image s t b) 0)) := .note (by simp)
    refine hnote.trans (.setBuff fun hwork => absurd ?_ hu)
    cases hb with
    | own => exact eq_of_workBuffer_own hwork
    | shared hsingle hlip =>
      exact hinv.eq_of_workBuffer (workBuffer_of_single hlip hsingle) hwork
  · have hlip : (s.registry t).loadInProgress ≠ none := by
      intro hnone
      simp [RegistryRec.workBuffer, hnone] at hc
    obtain rfl : b = c := Option.some.inj ((hb.workBuffer huse hlip).symm.trans hc)
    refine ⟨[], s.history, ?_, by simp⟩
    simp [image]
  · exact (hvalid.tables t).pending
  · exact (hvalid.tables t).dumpOnly

/-- A load is given up, or activated. -/
theorem ValidInv.setReg (hvalid : ValidInv s) (ht : TableValid (s.setReg t r) t) :
    ValidInv (s.setReg t r) :=
  hvalid.except (fun _ hu => .setReg hu) ht (.of_eq rfl)

/-- A field of a record changes that loads do not go by. -/
theorem ValidInv.setReg_same (hvalid : ValidInv s) (hr : SameWork (s.registry t) r) :
    ValidInv (s.setReg t r) := by
  refine hvalid.of_unaffected (fun u => .of_eq ?_ (fun _ _ => ⟨rfl, rfl⟩) rfl) (.of_eq rfl)
  by_cases hu : u = t
  · subst hu
    simpa using hr
  · exact .of_eq (by simp [hu])

/-- The flags can be trusted after every move, but for a ground load that stops half way
and the end of tables and dumps. -/
theorem Move.valid {l : Option Label} (h : Move cfg l s s') (huse : UseInv s)
    (hinv : LoadBuffInv cfg s) (hvalid : ValidInv s)
    (hl : l ≠ some .partialLoad ∧ l ≠ some .dumpClosed ∧ l ≠ some .dumpDropped ∧
      ∀ a, l ≠ some (.unlink a)) : ValidInv s' := by
  have hsame : ∀ {s₁ : TblState}, s₁.registry = s.registry → s₁.buffers = s.buffers →
      s₁.history = s.history → ValidInv s₁ := by
    intro s₁ hregistry hbuffers hhistory
    refine hvalid.of_unaffected (fun u => .of_eq (.of_eq (by rw [hregistry])) (fun b _ => ?_)
      hhistory) (.of_eq hhistory)
    rw [hbuffers]
    exact ⟨rfl, rfl⟩
  cases h with
  | result | forgotten => exact hsame rfl rfl rfl
  | requested | disowned => exact hvalid.setReg_same ⟨rfl, rfl, rfl, rfl, rfl, rfl⟩
  | blank double bufs => exact hvalid.initialized bufs rfl rfl
  | @registered _ t h app name size opts func =>
    have hinit : ValidInv (initialized s t (newRecord app h name size opts func)
        (newBuffers size opts true true)) := hvalid.initialized _ rfl rfl
    exact hinit.of_unaffected (fun u => .of_eq (.refl _) (fun _ _ => ⟨rfl, rfl⟩) rfl) (.of_eq rfl)
  | @shared _ t h app =>
    have hhandle : ValidInv
        (s.setHandle h (newHandle (s.handles h) app t (s.registry t).tableLoadedOnce)) :=
      hsame rfl rfl rfl
    exact hhandle.setReg_same ⟨rfl, rfl, rfl, rfl, rfl, rfl⟩
  | unlinked | emptied | emptiedShared => exact absurd rfl (hl.2.2.2 _)
  | dumpDropped => exact absurd rfl hl.2.2.1
  | locked hused | relocked hused hindex | released h => exact hsame rfl rfl rfl
  | @updated _ _ t status h =>
    refine ⟨fun u => ?_, h.allValidated (hvalid.tables t) hvalid.activated⟩
    by_cases hu : u = t
    · exact hu ▸ h.tableValid (hvalid.tables t)
    · exact (hvalid.tables u).frame (h.unaffected hu)
  | loaded hused hlip hdump hwork hdata hcheck hfinish =>
    refine hvalid.load huse hinv (hwork.keeps hinv (.inr ?_) hdump) hlip hdump hwork hdata hcheck
      hfinish
    exact ne_nil_of_mem (huse.listed _ hused)
  | @userDefined _ t src honce hdump =>
    have hset : ValidInv (s.setReg t { s.registry t with tableLoadedOnce := true }) :=
      hvalid.setReg_same ⟨rfl, rfl, rfl, rfl, rfl, rfl⟩
    refine hset.of_unaffected (fun u => .setBuff fun hwork => ?_) (.of_eq rfl)
    -- such a table is never loaded, so its buffer is not a working buffer
    obtain rfl := eq_of_workBuffer_own hwork
    have hnone := (hvalid.tables u).dumpOnly hdump
    simp [RegistryRec.workBuffer, hnone] at hwork
  | checked =>
    exact hvalid.of_unaffected (fun u => .note (by simp)) (.note (by simp) rfl)
  | passed hb => exact hvalid.passed huse hinv hb
  | groundPartial => exact absurd rfl hl.1
  | groundLoaded howner hdump hpending hwork hdata htaken hbytes hvalidated =>
    exact hvalid.groundLoad huse hinv (hwork.keeps hinv (.inl howner) hdump) hdump hpending hwork
      hdata hvalidated
  | groundRefused hwork =>
    cases hwork with
    | refused => exact hvalid
  | dumpFailed hfree hd hc htouched =>
    refine hvalid.dump hinv hfree ?_ (fun _ => ?_) ?_ htouched
    · rfl
    · exact ⟨rfl, rfl⟩
    · rfl
  | @dumped _ _ i d c hfree hd hc hbuffer htouched =>
    refine hvalid.dump hinv hfree ?_ (fun b => ?_) ?_ htouched
    · rfl
    · by_cases hb : b = .shared i
      · subst hb
        simp
      · simp [hb]
    · rfl
  | @activate _ t b hlip hb hvalidated =>
    have ht := hvalid.tables t
    refine hvalid.setReg ⟨fun c hfunc hc _ => ?_, fun _ => ?_, fun hd => ?_⟩
    · simp only [TblState.setReg, update_self] at hfunc hc
      have hwork := hb.workBuffer huse hlip
      obtain rfl : b = c := Option.some.inj (hwork.symm.trans hc)
      have hvouched := ht.vouched b hfunc hwork (.inr hvalidated)
      simpa [image] using hvouched
    · simpa using hlip
    · simp only [TblState.setReg, update_self] at hd ⊢
      exact ht.dumpOnly hd
  | aborted => exact hvalid.setReg (.idle (by simp) (by simp))
  | @abortedShared _ t i =>
    have hfreed : ValidInv (freed s i) :=
      hvalid.of_unaffected (fun u => .setBuff fun _ => ⟨rfl, rfl⟩) (.of_eq rfl)
    exact hfreed.setReg (.idle (by simp) (by simp))
  | dumpClosed => exact absurd rfl hl.2.1

end Moves

/-- What the flags need of the labels of moves. -/
def Label.Harmless : Label → Prop
  | .partialLoad => False
  | .dumpClosed => False
  | .dumpDropped => False
  | .unlink _ => False
  | _ => True

theorem Moves.valid {cfg : TblConfig} {P : Label → Prop} {s s' : TblState} (h : Moves cfg P s s')
    (huse : UseInv s) (hinv : LoadBuffInv cfg s) (hvalid : ValidInv s)
    (hP : ∀ l, P l → l.Harmless) : ValidInv s' := by
  induction h with
  | refl => exact hvalid
  | tail hfirst hlast ih =>
    obtain ⟨l, hl, hmove⟩ := hlast
    refine hmove.valid (Moves.calm hfirst huse).inv
      (Moves.keeps hfirst huse hinv ⟨hP .dumpClosed, hP .dumpDropped⟩) ih ⟨?_, ?_, ?_, fun a => ?_⟩
    -- a label of the last move is one that `P` allows, so a harmless one
    all_goals
      rintro rfl
      exact hP _ (hl _ rfl)

/-! ## Runs -/

section Runs

variable {cfg : TblConfig} {eds : EdsLib} {s s' : TblState}

/-- What the flags need of the events. A file that the ground loads is not refused after part
of it has been read into a buffer that counts as validated; no dump waits to be closed;
tables are not removed. -/
def Event.Orderly (cfg : TblConfig) (s : TblState) : Event → Prop
  | .loadCmd f => ∀ std hdr t b s₁, readHeaders f = .ok (std, hdr) →
    f.complete hdr.numBytes = false ∨ f.hasExtraByte hdr.numBytes = true →
    findTableInRegistry cfg s hdr.tableName = some t →
    (getWorkingBuffer cfg t false).run s = .ok (.ok b, s₁) → (s₁.buffers b).validated = false
  | .housekeepingCmd =>
    ∀ d < cfg.maxSimultaneousLoads, (s.dumpControlBlocks d).state ≠ .performed
  | .unregister _ _ => False
  | .cleanUpApp _ => False
  | _ => True

theorem Event.Orderly.harmless {e : Event} (h : e.Orderly cfg s) {l : Label}
    (hl : e.Allows cfg s l) : l.Harmless := by
  cases e with
  | loadCmd =>
    cases l with
    | partialLoad =>
      obtain ⟨std, hdr, t, b, s₁, hread, hstop, hfound, hget, hflag⟩ := hl
      rw [h std hdr t b s₁ hread hstop hfound hget] at hflag
      cases hflag
    | _ => exact hl.elim
  | housekeepingCmd =>
    cases l with
    | dumpClosed =>
      obtain ⟨d, hd, hperformed⟩ := hl
      exact absurd hperformed (h d hd)
    | badIndex => trivial
    | _ => exact hl.elim
  | unregister | cleanUpApp => exact h.elim
  | getAddress | releaseAddress | validate | manage => cases l <;> trivial
  | _ => exact hl.elim

/-- Runs in which every event is orderly. -/
inductive OrderlyRun (cfg : TblConfig) (eds : EdsLib) : List Event → TblState → Prop where
  | start : OrderlyRun cfg eds [] (TblState.earlyInit cfg)
  | next {es : List Event} {s s' : TblState} {e : Event} (hrun : OrderlyRun cfg eds es s)
      (horderly : e.Orderly cfg s) (hstep : (e.run cfg eds).run s = .ok ((), s')) :
      OrderlyRun cfg eds (es ++ [e]) s'

theorem OrderlyRun.exec {es' : List Event} (hrun : OrderlyRun cfg eds es s)
    (horderly : ∀ e ∈ es', ∀ s, e.Orderly cfg s) (h : exec cfg eds s es' = .ok s') :
    OrderlyRun cfg eds (es ++ es') s' :=
  exec_append (fun e he _ s _ hrun hstep => hrun.next (horderly e he s) hstep) hrun h

theorem OrderlyRun.run (h : OrderlyRun cfg eds es s) : Run cfg eds es s := by
  induction h with
  | start => exact .start
  | next hrun horderly hstep ih => exact ih.next hstep

theorem validInv_earlyInit : ValidInv (TblState.earlyInit cfg) where
  tables t := .idle rfl rfl
  activated newer older t b image h := absurd h (by simp [TblState.earlyInit])

theorem OrderlyRun.inv (h : OrderlyRun cfg eds es s) : LoadBuffInv cfg s ∧ ValidInv s := by
  induction h with
  | start => exact ⟨loadBuffInv_earlyInit, validInv_earlyInit⟩
  | @next es s s' e hrun horderly hstep ih =>
    obtain ⟨hinv, hvalid⟩ := ih
    have hdoes : Does cfg (e.Allows cfg s) (e.run cfg eds) s := e.does
    have hmoves := wp_ok hdoes hstep
    have hharmless : ∀ l, e.Allows cfg s l → l.Harmless := fun _ hl => horderly.harmless hl
    have huse := hrun.run.useInv
    exact ⟨hmoves.keeps huse hinv ⟨hharmless .dumpClosed, hharmless .dumpDropped⟩,
      hmoves.valid huse hinv hvalid hharmless⟩

/-- In every orderly run, an image that became the active contents of a table with a
validation function had been found valid by it, and was not written after that. -/
theorem activated_validated {es : List Event} (hrun : OrderlyRun cfg eds es s)
    {newer older : List Obs} {t : Nat} {b : BufRef} {image : Bytes}
    (hactivated : s.history = newer ++ .activated t b image true :: older) :
    ∃ later earlier, older = later ++ .validation b image 0 :: earlier ∧ .wrote b ∉ later :=
  hrun.inv.2.activated newer older t b image hactivated

end Runs

/-- A table of two bytes with a validation function. The ground loads it, and has it
validated. -/
def validatedLoad : List Event :=
  [.register 1 ['T'] 2 ⟨false, false, false, false⟩ true true true,
    .loadCmd (tableFile 1 0 [1, 2]), .validateCmd ['A', '.', 'T'] .inactive,
    .manage 1 0 fun _ _ => 0]

/-- The ground activates what it has loaded. -/
def activation : List Event := [.activateCmd ['A', '.', 'T'], .manage 1 0 fun _ _ => 0]

/-- A file for the two bytes of the table that ends after the first. -/
def shortFile : TableFile := { tableFile 1 0 [9, 9] with data := [9] }

/-- The file of this load is read to its end. -/
theorem orderly_validatedLoad : ∀ e ∈ validatedLoad ++ activation, ∀ s, e.Orderly smallTbl s := by
  have hfile : ∀ s, (Event.loadCmd (tableFile 1 0 [1, 2])).Orderly smallTbl s := by
    intro s std hdr t b s₁ hread hstop
    obtain ⟨rfl, rfl⟩ : (⟨fileContentId, subTypeTblImg, 0, 0⟩ : FsHeader) = std ∧
        (⟨0, 2, ['A', '.', 'T'], 1⟩ : FileHdr) = hdr := by
      exact Prod.mk.inj (Except.ok.inj hread)
    rcases hstop with hstop | hstop <;> cases hstop
  intro e he s
  simp only [validatedLoad, activation, cons_append, nil_append, mem_cons,
    not_mem_nil, or_false] at he
  rcases he with rfl | rfl | rfl | rfl | rfl | rfl
  · trivial
  · exact hfile s
  all_goals trivial

theorem activated_validated_load : ∃ s, OrderlyRun smallTbl smallEds (validatedLoad ++ activation) s ∧
    ∃ newer older, s.history = newer ++ .activated 0 (.shared 0) [1, 2] true :: older ∧
      ∃ later earlier, older = later ++ .validation (.shared 0) [1, 2] 0 :: earlier ∧
        .wrote (.shared 0) ∉ later := by
  have hexec : exec smallTbl smallEds (TblState.earlyInit smallTbl) (validatedLoad ++ activation) =
      .ok (stateAfter smallTbl smallEds (TblState.earlyInit smallTbl)
        (validatedLoad ++ activation)) := exec_stateAfter (by decide +kernel)
  have hrun := OrderlyRun.start.exec orderly_validatedLoad hexec
  have hhistory : (stateAfter smallTbl smallEds (TblState.earlyInit smallTbl)
      (validatedLoad ++ activation)).history = [] ++ .activated 0 (.shared 0) [1, 2] true ::
        [.wrote (.own 0 0), .validation (.shared 0) [1, 2] 0, .wrote (.shared 0),
          .wrote (.shared 0)] := by decide +kernel
  exact ⟨_, hrun, _, _, hhistory, activated_validated hrun hhistory⟩

/-- After the image `01 02` has been found valid, a file that ends too early is loaded into
the same buffer. The load is refused, but the buffer counts as validated and holds `09 02`,
which the activation makes the active contents. -/
theorem short_load_activated : ∃ s, Run smallTbl smallEds
      (validatedLoad ++ [.loadCmd shortFile] ++ activation) s ∧
    (s.registry 0).validationFunc = true ∧ (s.buffers (.own 0 0)).bytes = [9, 2] ∧
    s.history = .activated 0 (.shared 0) [9, 2] true :: [.wrote (.own 0 0), .wrote (.shared 0),
      .validation (.shared 0) [1, 2] 0, .wrote (.shared 0), .wrote (.shared 0)] := by
  have hexec : exec smallTbl smallEds (TblState.earlyInit smallTbl)
      (validatedLoad ++ [.loadCmd shortFile] ++ activation) = .ok _ :=
    exec_stateAfter (by decide +kernel)
  exact ⟨_, Run.start.exec hexec, by decide +kernel, by decide +kernel, by decide +kernel⟩

end CfsEds.Tbl
