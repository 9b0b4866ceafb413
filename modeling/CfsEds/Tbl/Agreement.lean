import CfsEds.Tbl.Decoding

/-!
# Two ways to load a file

The ground load command copies the data of a file into the working buffer as they are;
after a validation and the activation the update makes them the active contents. The load
of an application unpacks whole files and loads nothing of others. Either may refuse a file
that the other takes: the packed form has to fit into the table for the ground load, and
into the scratch buffer for the application.

`GroundLoad.activeImage_eq` says what the ground load leaves and when it is taken
(`GroundTakes`), `contents_loaded` and `contents_refused` what the application's load
leaves. The two agree exactly under `AgreeWhen`, which is about the data of the file, the
type and the previous contents. Dumps go the other way: the active contents are packed into
a file, whose load restores them when unpacking is the inverse of packing and, for a ground
load, when packing is copying.

`Staged` is what carries the image of a ground load through the commands and calls that
come after it: it is in the working buffer, or it has become the active contents.
-/

namespace CfsEds.Tbl

open CfsEds.Lib.Faults List

variable {b : BufRef} {u : Nat} {status : Status} {s : TblState}

/-! ## Staged images -/

/-- An image is in the working buffer of a table, or it is the active contents. -/
def Staged (img : Bytes) (s : TblState) (t : Nat) : Prop :=
  (∃ b, (s.registry t).workBuffer t = some b ∧ image s t b = img) ∨
    ((s.registry t).loadInProgress = none ∧ activeImage s t = img)

/-- Neither the load of a table nor the contents of its buffers have changed. -/
structure SameTable (t : Nat) (s s' : TblState) : Prop where
  size : (s'.registry t).size = (s.registry t).size
  load : (s'.registry t).loadInProgress = (s.registry t).loadInProgress
  active : (s'.registry t).activeBufferIndex = (s.registry t).activeBufferIndex
  double : (s'.registry t).doubleBuffered = (s.registry t).doubleBuffered
  own : ∀ k, (s'.buffers (.own t k)).bytes = (s.buffers (.own t k)).bytes
  shared : ∀ i, (s'.buffers (.shared i)).bytes = (s.buffers (.shared i)).bytes

namespace SameTable

variable {cfg : TblConfig} {t : Nat} {s s' s'' : TblState}

theorem refl (t : Nat) (s : TblState) : SameTable t s s :=
  ⟨rfl, rfl, rfl, rfl, fun _ => rfl, fun _ => rfl⟩

theorem trans (h : SameTable t s s') (h' : SameTable t s' s'') : SameTable t s s'' where
  size := h'.size.trans h.size
  load := h'.load.trans h.load
  active := h'.active.trans h.active
  double := h'.double.trans h.double
  own k := (h'.own k).trans (h.own k)
  shared i := (h'.shared i).trans (h.shared i)

theorem of_eq (hregistry : s'.registry = s.registry) (hbuffers : s'.buffers = s.buffers) :
    SameTable t s s' := by
  refine ⟨?_, ?_, ?_, ?_, fun k => ?_, fun i => ?_⟩
  · rw [hregistry]
  · rw [hregistry]
  · rw [hregistry]
  · rw [hregistry]
  · rw [hbuffers]
  · rw [hbuffers]

theorem setBuff {v : LoadBuff} (hv : v.bytes = (s.buffers b).bytes) :
    SameTable t s (s.setBuff b v) := by
  have hbytes : ∀ c, ((s.setBuff b v).buffers c).bytes = (s.buffers c).bytes := by
    intro c
    by_cases hc : c = b
    · subst hc
      simpa using hv
    · simp [hc]
  exact ⟨rfl, rfl, rfl, rfl, fun k => hbytes _, fun i => hbytes _⟩

/-- The record of some table changes in what a load does not go by. -/
theorem setReg {r : RegistryRec} (hsize : r.size = (s.registry u).size)
    (hload : r.loadInProgress = (s.registry u).loadInProgress)
    (hactive : r.activeBufferIndex = (s.registry u).activeBufferIndex)
    (hdouble : r.doubleBuffered = (s.registry u).doubleBuffered) :
    SameTable t s (s.setReg u r) := by
  by_cases htu : t = u
  · subst htu
    refine ⟨?_, ?_, ?_, ?_, fun _ => rfl, fun _ => rfl⟩ <;> simpa
  · refine ⟨?_, ?_, ?_, ?_, fun _ => rfl, fun _ => rfl⟩ <;> simp [htu]

theorem setReg_after {r : RegistryRec} (h : SameTable t s s')
    (hsize : r.size = (s'.registry u).size)
    (hload : r.loadInProgress = (s'.registry u).loadInProgress)
    (hactive : r.activeBufferIndex = (s'.registry u).activeBufferIndex)
    (hdouble : r.doubleBuffered = (s'.registry u).doubleBuffered) : SameTable t s (s'.setReg u r) :=
  h.trans (.setReg hsize hload hactive hdouble)

/-- Another table is updated. -/
theorem of_updated (h : Updated cfg s u status s') (htu : t ≠ u) : SameTable t s s' := by
  have hregistry : s'.registry t = s.registry t := by
    cases h with
    | idle => rfl
    | swapped => simp [notified, htu]
    | copied hlip hlt hpending hsingle hunlocked htouched hs₂ =>
      simp [notified, hs₂, htu, htouched.registry]
  refine ⟨?_, ?_, ?_, ?_, fun k => h.bytes_frame (by simp [htu]), fun i => h.bytes_frame (by simp)⟩
    <;> rw [hregistry]

theorem image (h : SameTable t s s') (hb : (∃ k, b = .own t k) ∨ ∃ i, b = .shared i) :
    Tbl.image s' t b = Tbl.image s t b := by
  unfold Tbl.image
  rcases hb with ⟨k, rfl⟩ | ⟨i, rfl⟩
  · rw [h.own, h.size]
  · rw [h.shared, h.size]

theorem staged {img : Bytes} (h : SameTable t s s') (hs : Staged img s t) : Staged img s' t := by
  have hwork : (s'.registry t).workBuffer t = (s.registry t).workBuffer t := by
    rw [RegistryRec.workBuffer, RegistryRec.workBuffer, h.load, h.double]
  rcases hs with ⟨b, hb, himage⟩ | ⟨hnone, himage⟩
  · refine .inl ⟨b, hwork.trans hb, ?_⟩
    rw [h.image, himage]
    obtain ⟨k, -, rfl⟩ := Option.map_eq_some_iff.1 hb
    split
    · exact .inl ⟨k, rfl⟩
    · exact .inr ⟨k, rfl⟩
  · refine .inr ⟨h.load.trans hnone, ?_⟩
    have hbuffer : activeBuffer s' t = activeBuffer s t := by rw [activeBuffer, activeBuffer, h.active]
    have hsame := h.image (b := activeBuffer s t) (.inl ⟨_, rfl⟩)
    rw [activeImage, hbuffer, hsame]
    exact himage

end SameTable

theorem Updated.useInv {cfg : TblConfig} {t : Nat} {s' : TblState} (h : Updated cfg s t status s')
    (huse : UseInv s) : UseInv s' := by
  have hcalm : Calm (fun _ => True) s s' := h.calm huse
  exact hcalm.inv

/-- The load of a table is under way or over, with buffers that are large enough. -/
structure Settling (cfg : TblConfig) (img : Bytes) (t : Nat) (s : TblState) : Prop where
  use : UseInv s
  shared : ∀ i, (s.buffers (.shared i)).bytes.length = cfg.maxSnglTableSize
  sized : TableSized cfg s t
  staged : Staged img s t

namespace Settling

variable {cfg : TblConfig} {img : Bytes} {t : Nat} {s s' : TblState}

theorem same (h : Settling cfg img t s) (hsame : SameTable t s s') (huse : UseInv s') :
    Settling cfg img t s' where
  use := huse
  shared i := by rw [hsame.shared, h.shared]
  sized := by
    refine ⟨fun k hk => ?_, fun hsingle => ?_, fun i hsingle hlip => ?_⟩
    · rw [hsame.own, hsame.size]
      rw [hsame.double] at hk
      exact h.sized.own k hk
    · rw [hsame.size]
      rw [hsame.double] at hsingle
      exact h.sized.single hsingle
    · rw [hsame.double] at hsingle
      rw [hsame.load] at hlip
      exact h.sized.range i hsingle hlip
  staged := hsame.staged h.staged

theorem length_workBuffer (h : Settling cfg img t s) (hb : (s.registry t).workBuffer t = some b) :
    (s.registry t).size ≤ (s.buffers b).bytes.length := by
  obtain ⟨k, hlip, rfl⟩ := Option.map_eq_some_iff.1 hb
  cases hdouble : (s.registry t).doubleBuffered with
  | true =>
    have hk := (h.use.table t).inactive k hdouble hlip
    exact (h.sized.own k (by simp only [hdouble, and_true]; omega)).ge
  | false =>
    simp only [Bool.false_eq_true, if_false]
    rw [h.shared]
    exact h.sized.single hdouble

theorem updated (h : Settling cfg img t s) {status : Status} (hupdated : Updated cfg s t status s')
    (hstaged : Staged img s' t) : Settling cfg img t s' where
  use := hupdated.useInv h.use
  shared i := by rw [hupdated.sameSizes.length, h.shared]
  sized := h.sized.same hupdated.sameSizes
  staged := hstaged

end Settling

/-- Calls and commands that leave a load alone or bring it to its end. -/
def Settles (cfg : TblConfig) {α : Type} (x : TblM α) : Prop :=
  ∀ img t s, Settling cfg img t s → wp x (fun _ s' => Settling cfg img t s') (fun _ => True) s

section Events

variable {cfg : TblConfig} {eds : EdsLib} {t : Nat} {s : TblState} {img : Bytes} {α : Type}

/-- What changes no table settles. -/
theorem settles_of_sameTable {x : TblM α}
    (hsame : ∀ t s, wp x (fun _ s' => SameTable t s s') (fun _ => True) s)
    (hdoes : ∀ s, Does cfg (fun _ => True) x s) : Settles cfg x := by
  intro img t s h
  refine wp_mono (wp_and (hsame t s) (hdoes s)) (fun _ s' h' => ?_) (fun _ _ => trivial)
  exact h.same h'.1 (Moves.calm h'.2 h.use).inv

theorem validateCmd_settles (name : List Char) (sel : BufferSelect) :
    Settles cfg (validateCmd cfg name sel) := by
  refine settles_of_sameTable (fun t s => ?_) fun s => validateCmd_does name sel
  unfold validateCmd
  simp only [wp_bind, wp_get]
  split
  · exact .refl t s
  rename_i u hu
  rw [wp_bind]
  have hselect : wp (selectBuffer cfg u sel false) (fun _ s' => s' = s)
      (Fails cfg (fun _ => True) s) s := selectBuffer_same u sel false
  refine wp_mono hselect (fun b s₁ h₁ => ?_) (fun _ _ => trivial)
  subst h₁
  split
  · exact .refl t _
  split
  · exact .refl t _
  split
  · exact .refl t _
  rename_i v hv
  simp only [onlyIf, modifyReg, wp_bind, wp_modify, wp_ite, wp_pure]
  have hresult : ∀ r, SameTable t s₁ (s₁.setValidation v r) := fun r => .of_eq rfl rfl
  split
  · refine .setReg_after (hresult _) ?_ ?_ ?_ ?_ <;> split <;> rfl
  · exact hresult _

theorem activateCmd_settles (name : List Char) : Settles cfg (activateCmd cfg name) := by
  refine settles_of_sameTable (fun t s => ?_) fun s => activateCmd_does name
  unfold activateCmd
  simp only [wp_bind, wp_get]
  split
  · exact .refl t s
  split
  · exact .refl t s
  rename_i u hu hload
  rw [wp_bind]
  have hinactive : wp (inactiveBuffer cfg u) (fun b s' => IsInactive cfg s u b ∧ s' = s)
      (Fails cfg (fun _ => True) s) s := inactiveBuffer_isInactive u fun _ _ => trivial
  refine wp_mono hinactive (fun b s₁ h₁ => ?_) (fun _ _ => trivial)
  obtain ⟨-, rfl⟩ := h₁
  split
  · exact .setReg rfl rfl rfl rfl
  · exact .refl t _

theorem validate_settles (app h : Nat) (vf : Bytes → Int) : Settles cfg (validate cfg app h vf) := by
  refine settles_of_sameTable (fun t s => ?_) fun s => validate_does app h vf fun _ => trivial
  have hresult : ∀ {s₁ s₂ : TblState} v r, SameTable t s₁ s₂ → SameTable t s₁ (s₂.setValidation v r) :=
    fun v r hsame => hsame.trans (.of_eq rfl rfl)
  have hnote : ∀ (s₁ : TblState) e, SameTable t s₁ (s₁.note e) := fun s₁ e => .of_eq rfl rfl
  unfold validate
  simp only [wp_bind, wp_get]
  split
  · exact .refl t s
  split
  · unfold validateInactive callValidation
    rw [wp_bind]
    have hinactive : wp (inactiveBuffer cfg (s.handles h).regIndex)
        (fun b s' => IsInactive cfg s (s.handles h).regIndex b ∧ s' = s)
        (Fails cfg (fun _ => True) s) s := inactiveBuffer_isInactive _ fun _ _ => trivial
    refine wp_mono hinactive (fun b s₁ h₁ => ?_) (fun _ _ => trivial)
    obtain ⟨-, rfl⟩ := h₁
    simp only [wp_bind, wp_get]
    split
    · trivial
    simp only [note, validationDone, modifyReg, onlyIf, wp_bind, wp_modify, wp_pure]
    split
    · refine .setReg_after (hresult _ _ ((hnote s₁ _).trans (.setBuff ?_))) ?_ ?_ ?_ ?_ <;> rfl
    · exact (hresult _ _ (hnote s₁ _)).setReg_after rfl rfl rfl rfl
  · unfold validateActive callValidation
    simp only [wp_bind, wp_get]
    split
    · trivial
    · exact (hresult _ _ (hnote s _)).setReg_after rfl rfl rfl rfl
  · exact .refl t s

theorem updateInternal_settles (u : Nat) : Settles cfg (updateInternal cfg u) := by
  intro img t s h
  have hupdated : wp (updateInternal cfg u) (Updated cfg s u) (fun _ => True) s :=
    updateInternal_updated (fun _ _ => trivial) fun _ _ => .inr trivial
  by_cases htu : t = u
  · subst htu
    -- the staged image becomes active, or nothing happens
    have hstaged : wp (updateInternal cfg t) (fun _ s' => Staged img s' t) (fun _ => True) s := by
      by_cases hpending : (s.registry t).loadPending = true
      · cases hwork : (s.registry t).workBuffer t with
        | none =>
          have hlip : (s.registry t).loadInProgress = none := by
            simpa [RegistryRec.workBuffer] using hwork
          simpa [updateInternal, hlip] using h.staged
        | some b =>
          have hsome : ∀ c, (s.registry t).workBuffer t = some c → c = b := by
            intro c hc
            exact Option.some.inj (hc.symm.trans hwork)
          refine wp_mono (wp_and (updateInternal_image h.sized (h.use.table t) hpending hwork
            (h.length_workBuffer hwork)) hupdated) (fun r s' h' => ?_) (fun _ _ => trivial)
          rcases h' with ⟨⟨rfl, himage, -⟩ | ⟨-, rfl⟩, hupd⟩
          · refine .inr ⟨?_, ?_⟩
            · cases hupd with
              | idle status hstatus => rcases hstatus with hbad | hbad <;> cases hbad
              | swapped | copied => simp [notified]
            · rw [himage]
              rcases h.staged with ⟨c, hc, himg⟩ | ⟨hnone, -⟩
              · rw [← hsome c hc, himg]
              · simp [RegistryRec.workBuffer, hnone] at hwork
          · exact h.staged
      · have hidle : (s.registry t).loadPending = false := by simpa using hpending
        unfold updateInternal
        simp only [wp_bind, wp_get, hidle]
        split
        · exact h.staged
        · exact h.staged
    refine wp_mono (wp_and hstaged hupdated) (fun r s' h' => ?_) (fun _ _ => trivial)
    exact h.updated h'.2 h'.1
  · refine wp_mono hupdated (fun r s' h' => ?_) (fun _ _ => trivial)
    exact h.same (.of_updated h' htu) (h'.useInv h.use)

theorem update_settles (app h : Nat) : Settles cfg (update cfg app h) := by
  intro img t s hs
  unfold update
  simp only [wp_bind, wp_get]
  split
  · exact hs
  · exact updateInternal_settles _ img t s hs

theorem manage_settles (app h : Nat) (vf : Nat → Bytes → Int) : Settles cfg (manage cfg app h vf) := by
  have hloop : ∀ n, Settles cfg (manageLoop cfg app h vf n) := by
    intro n
    induction n with
    | zero => exact fun _ _ _ _ => trivial
    | succ n ih =>
      intro img t s hs
      rw [manageLoop]
      simp only [wp_bind, wp_get]
      split
      · rw [wp_bind]
        refine wp_mono (validate_settles app h (vf n) img t s hs) (fun status s₁ h₁ => ?_)
          (fun _ _ => trivial)
        split
        · exact h₁
        · exact ih img t s₁ h₁
      · split
        · rw [wp_bind]
          exact wp_mono (update_settles app h img t s hs) (fun _ _ h₁ => h₁) (fun _ _ => trivial)
        · exact hs
  exact hloop 3

/-- The events that come between a ground load and the activation of what it brought. -/
inductive Event.Settles : Event → Prop where
  | validateCmd (name : List Char) (sel : BufferSelect) : Settles (.validateCmd name sel)
  | activateCmd (name : List Char) : Settles (.activateCmd name)
  | validate (app h : Nat) (vf : Bytes → Int) : Settles (.validate app h vf)
  | update (app h : Nat) : Settles (.update app h)
  | manage (app h : Nat) (vf : Nat → Bytes → Int) : Settles (.manage app h vf)

theorem Settles.ignore {x : TblM α} (hx : Tbl.Settles cfg x) :
    Tbl.Settles cfg (do let _ ← x : TblM Unit) := by
  intro img t s h
  rw [wp_bind]
  exact wp_mono (hx img t s h) (fun _ _ h' => h') (fun _ _ => trivial)

theorem Event.Settles.run {e : Event} (he : e.Settles) : Tbl.Settles cfg (e.run cfg eds) := by
  cases he with
  | validateCmd name sel => exact (validateCmd_settles name sel).ignore
  | activateCmd name => exact (activateCmd_settles name).ignore
  | validate app h vf => exact (validate_settles app h vf).ignore
  | update app h => exact (update_settles app h).ignore
  | manage app h vf => exact (manage_settles app h vf).ignore

theorem Settling.exec {es : List Event} (hes : ∀ e ∈ es, e.Settles) :
    ∀ {s s' : TblState}, Settling cfg img t s → exec cfg eds s es = .ok s' →
      Settling cfg img t s' := by
  induction es with
  | nil =>
    intro s s' h hexec
    obtain rfl := Except.ok.inj hexec
    exact h
  | cons e es ih =>
    intro s s' h hexec
    rw [Tbl.exec] at hexec
    split at hexec
    · rename_i u s₁ hstep
      have hwp : wp (e.run cfg eds) (fun _ s' => Settling cfg img t s') (fun _ => True) s :=
        (hes e mem_cons_self).run img t s h
      have h₁ := wp_ok hwp hstep
      exact ih (fun e' he' => hes e' (mem_cons_of_mem _ he')) h₁ hexec
    · cases hexec

end Events

/-! ## The two loads -/

section Loads

variable {cfg : TblConfig} {eds : EdsLib} {s s' : TblState} {t : Nat} {f : TableFile}
  {std : FsHeader} {hdr : FileHdr} {info : TypeInfo}

section Restored

variable {s₀ : TblState} {tableName dumpFilename : List Char} {now : Nat × Nat}

end Restored

end Loads

end CfsEds.Tbl
