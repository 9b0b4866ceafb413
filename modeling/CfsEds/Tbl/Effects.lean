import CfsEds.Tbl.Services
import Mathlib.Data.Set.Insert

/-!
# What the functions of table services do to the state

Most of the code between taking a working buffer and giving it up only fills
buffers: `Touched B s s'` says that nothing but the contents and descriptions of the
buffers in `B` changed, and that the history records who was written. The functions
that do more are described by their result, once, so that the invariants need not
look into them again.
-/

namespace CfsEds.Tbl

open CfsEds.Lib.Faults List

/-! ## Filling buffers -/

/-- A write that leaves its buffer. -/
def Fault.IsWrite (e : Fault) : Prop := ∃ b offset length, e = .outOfBuffer b offset length

/-- Only the contents and the descriptions of the buffers in `B` changed. -/
structure Touched (B : Set BufRef) (s s' : TblState) : Prop where
  registry : s'.registry = s.registry
  handles : s'.handles = s.handles
  validationResults : s'.validationResults = s.validationResults
  dumps : s'.dumpControlBlocks = s.dumpControlBlocks
  taken : ∀ b, (s'.buffers b).taken = (s.buffers b).taken
  validated : ∀ b, (s'.buffers b).validated = (s.buffers b).validated
  length : ∀ b, (s'.buffers b).bytes.length = (s.buffers b).bytes.length
  frame : ∀ b, b ∉ B → s'.buffers b = s.buffers b
  history : ∃ l, s'.history = l ++ s.history ∧ ∀ o ∈ l, ∃ b ∈ B, o = .wrote b

namespace Touched

variable {B C : Set BufRef} {s s' s'' : TblState}

theorem refl (B : Set BufRef) (s : TblState) : Touched B s s where
  registry := rfl
  handles := rfl
  validationResults := rfl
  dumps := rfl
  taken _ := rfl
  validated _ := rfl
  length _ := rfl
  frame _ _ := rfl
  history := ⟨[], rfl, by simp⟩

theorem trans (h : Touched B s s') (h' : Touched B s' s'') : Touched B s s'' where
  registry := h'.registry.trans h.registry
  handles := h'.handles.trans h.handles
  validationResults := h'.validationResults.trans h.validationResults
  dumps := h'.dumps.trans h.dumps
  taken b := (h'.taken b).trans (h.taken b)
  validated b := (h'.validated b).trans (h.validated b)
  length b := (h'.length b).trans (h.length b)
  frame b hb := (h'.frame b hb).trans (h.frame b hb)
  history := by
    obtain ⟨l, hl, hwrote⟩ := h.history
    obtain ⟨l', hl', hwrote'⟩ := h'.history
    refine ⟨l' ++ l, by rw [hl', hl, append_assoc], ?_⟩
    intro o ho
    rcases mem_append.1 ho with ho | ho
    · exact hwrote' o ho
    · exact hwrote o ho

theorem mono (h : Touched B s s') (hBC : B ⊆ C) : Touched C s s' where
  registry := h.registry
  handles := h.handles
  validationResults := h.validationResults
  dumps := h.dumps
  taken := h.taken
  validated := h.validated
  length := h.length
  frame b hb := h.frame b fun hB => hb (hBC hB)
  history := by
    obtain ⟨l, hl, hwrote⟩ := h.history
    refine ⟨l, hl, fun o ho => ?_⟩
    obtain ⟨b, hb, hob⟩ := hwrote o ho
    exact ⟨b, hBC hb, hob⟩

/-- The description of a buffer is changed. -/
theorem setBuff {b : BufRef} {v : LoadBuff} (hb : b ∈ B) (htaken : v.taken = (s.buffers b).taken)
    (hvalidated : v.validated = (s.buffers b).validated)
    (hlength : v.bytes.length = (s.buffers b).bytes.length) : Touched B s (s.setBuff b v) where
  registry := rfl
  handles := rfl
  validationResults := rfl
  dumps := rfl
  taken := update_field _ htaken
  validated := update_field _ hvalidated
  length := update_field (fun v : LoadBuff => v.bytes.length) hlength
  frame c hc := by
    have hne : c ≠ b := fun h => hc (h ▸ hb)
    simp [hne]
  history := ⟨[], rfl, by simp⟩

theorem note {b : BufRef} (hb : b ∈ B) : Touched B s (s.note (.wrote b)) :=
  { refl B s with history := ⟨[.wrote b], rfl, fun _ ho => ⟨b, hb, mem_singleton.1 ho⟩⟩ }

/-- Another mark is put on a buffer for a while. -/
theorem borrow {b : BufRef} {v w : LoadBuff} (h : Touched B (s.setBuff b v) s') (hb : b ∈ B)
    (hvalidated : v.validated = (s.buffers b).validated)
    (hlength : v.bytes.length = (s.buffers b).bytes.length)
    (htaken : w.taken = (s.buffers b).taken)
    (hvalidated' : w.validated = (s'.buffers b).validated)
    (hlength' : w.bytes.length = (s'.buffers b).bytes.length) : Touched B s (s'.setBuff b w) := by
  obtain ⟨l, hl, hwrote⟩ := h.history
  refine ⟨h.registry, h.handles, h.validationResults, h.dumps, ?_, ?_, ?_, ?_, l, hl, hwrote⟩
  · intro c
    have hc := h.taken c
    by_cases hcb : c = b
    · subst hcb
      simpa using htaken
    · simpa [hcb] using hc
  · intro c
    have hs' := update_field LoadBuff.validated hvalidated' c
    exact (hs'.trans (h.validated c)).trans (update_field LoadBuff.validated hvalidated c)
  · intro c
    have hs' := update_field (fun v : LoadBuff => v.bytes.length) hlength' c
    exact (hs'.trans (h.length c)).trans (update_field (fun v : LoadBuff => v.bytes.length) hlength c)
  · intro c hc
    have hcb : c ≠ b := fun heq => hc (heq ▸ hb)
    simpa [hcb] using h.frame c hc

/-- A change to a dump control block on both sides. -/
theorem setDump (h : Touched B s s') (d : Nat) (c : DumpControl) :
    Touched B (s.setDump d c) (s'.setDump d c) where
  registry := h.registry
  handles := h.handles
  validationResults := h.validationResults
  dumps := by simp only [TblState.setDump, h.dumps]
  taken := h.taken
  validated := h.validated
  length := h.length
  frame := h.frame
  history := h.history

end Touched

/-- A program that only touches the buffers in `B`, from wherever it starts. -/
def Touches (B : Set BufRef) {α : Type} (x : TblM α) : Prop :=
  ∀ s, wp x (fun _ s' => Touched B s s') Fault.IsWrite s

namespace Touches

variable {B C : Set BufRef} {α β : Type} {x y : TblM α}

theorem pure (a : α) : Touches B (pure a : TblM α) := fun s => Touched.refl B s

theorem bind {f : α → TblM β} (hx : Touches B x) (hf : ∀ a, Touches B (f a)) :
    Touches B (x >>= f) := by
  intro s
  refine wp_seq (hx s) fun a s' hs' => ?_
  exact wp_imp (hf a s') fun _ _ hs'' => hs'.trans hs''

theorem get {f : TblState → TblM β} (hf : ∀ s, Touches B (f s)) :
    Touches B (MonadState.get >>= f) := fun s => hf s s

theorem ite {c : Prop} [Decidable c] (hx : Touches B x) (hy : Touches B y) :
    Touches B (if c then x else y) := by
  split
  · exact hx
  · exact hy

theorem mono (hx : Touches B x) (hBC : B ⊆ C) : Touches C x := fun s =>
  wp_imp (hx s) fun _ _ hs' => hs'.mono hBC

theorem onlyIf {c : Bool} {x : TblM Unit} (hx : Touches B x) : Touches B (onlyIf c x) :=
  ite hx (pure ())

end Touches

theorem length_patch {bytes data : Bytes} {offset : Nat} (h : offset + data.length ≤ bytes.length) :
    (patch bytes offset data).length = bytes.length := by
  simp only [patch, length_append, length_take, length_drop]
  omega

theorem modifyBuff_touches {B : Set BufRef} {b : BufRef} {f : LoadBuff → LoadBuff} (hb : b ∈ B)
    (htaken : ∀ v, (f v).taken = v.taken) (hvalidated : ∀ v, (f v).validated = v.validated)
    (hbytes : ∀ v, (f v).bytes = v.bytes) : Touches B (modifyBuff b f) := by
  intro s
  exact .setBuff hb (htaken _) (hvalidated _) (congrArg List.length (hbytes _))

theorem writeBytes_touches {B : Set BufRef} {b : BufRef} (hb : b ∈ B) (offset : Nat)
    (data : Bytes) : Touches B (writeBytes b offset data) := by
  intro s
  simp only [writeBytes, wp_bind, wp_get]
  split
  · exact Touched.refl B s
  split
  · rename_i hfit
    refine Touched.trans ?_ (Touched.note hb)
    exact Touched.setBuff hb rfl rfl (length_patch hfit)
  · exact ⟨b, offset, data.length, rfl⟩

section Loads

variable (cfg : TblConfig) (eds : EdsLib)

theorem copyActive_touches (t : Nat) (b : BufRef) : Touches {b} (copyActive t b) := by
  refine .get fun s => .ite (.pure _) ?_
  exact writeBytes_touches (Set.mem_singleton b) _ _

theorem readTableData_touches (f : TableFile) (std : FsHeader) (hdr : FileHdr) (info : TypeInfo)
    (b : BufRef) : Touches {b} (readTableData cfg f std hdr info b) := by
  refine .bind (writeBytes_touches (Set.mem_singleton b) _ _) fun _ => ?_
  refine .ite (.pure _) (.ite (.pure _) ?_)
  refine .bind (modifyBuff_touches (Set.mem_singleton b) ?_ ?_ ?_) fun _ => .pure _ <;> intro v <;> rfl

theorem loadFromFile_touches (f : TableFile) (b : BufRef) (t : Nat) :
    Touches {b} (loadFromFile cfg eds f b t) := by
  refine .get fun s => .ite (.pure _) (.ite (.pure _) ?_)
  split
  · exact .pure _
  · split
    · exact .pure _
    · exact .ite (.pure _) (.ite (.pure _) (readTableData_touches cfg f _ _ _ b))

theorem decodeFromMemory_touches (packed : Bytes) (edsId : Nat) (b : BufRef) (t : Nat) :
    Touches {b} (decodeFromMemory cfg eds packed edsId b t) := by
  unfold decodeFromMemory
  split
  · exact .pure _
  refine .get fun s => ?_
  refine .bind (modifyBuff_touches (Set.mem_singleton b) ?_ ?_ ?_) fun _ => ?_
  · intro v; rfl
  · intro v; rfl
  · intro v; rfl
  refine .bind (writeBytes_touches (Set.mem_singleton b) _ _) fun _ => .ite (.pure _) ?_
  refine .bind (writeBytes_touches (Set.mem_singleton b) _ _) fun _ => .ite (.pure _) ?_
  refine .bind (modifyBuff_touches (Set.mem_singleton b) ?_ ?_ ?_) fun _ => .pure _ <;>
    intro v <;> rfl

theorem encodeFromMemory_touches (dest : BufRef) (source : LoadBuff) (t : Nat) :
    Touches {dest} (encodeFromMemory eds dest source t) := by
  unfold encodeFromMemory
  split
  · exact .pure _
  · refine .get fun s => .bind ?_ fun _ => .pure _
    exact writeBytes_touches (Set.mem_singleton dest) _ _

theorem loadScratch_touches (f : TableFile) (work : BufRef) (t i : Nat) :
    Touches {work, .shared i} (loadScratch cfg eds f work t i) := by
  refine .bind ((loadFromFile_touches cfg eds f (.shared i) t).mono (by simp)) fun _ => ?_
  refine .get fun s => .bind (.onlyIf (.bind ?_ fun _ => .pure _)) fun _ => ?_
  · exact (decodeFromMemory_touches cfg eds _ _ work t).mono (by simp)
  · refine .bind (modifyBuff_touches (by simp) ?_ ?_ ?_) fun _ => .pure _ <;> intro v <;> rfl

/-- The shared load buffers nobody has taken. -/
def freeBuffs (s : TblState) : Set BufRef :=
  { b | ∃ i, b = .shared i ∧ (s.buffers b).taken = false }

theorem not_taken_of_findFree {s : TblState} {i : Nat} (h : findFreeLoadBuff cfg s = some i) :
    i < cfg.maxSimultaneousLoads ∧ (s.buffers (.shared i)).taken = false := by
  have hmem := mem_range.1 (mem_of_find?_eq_some h)
  have hfree := find?_some h
  simp only [Bool.not_eq_eq_eq_not, Bool.not_true] at hfree
  exact ⟨hmem, hfree⟩

/-- The scratch buffer is taken for the time of the load. -/
theorem loadFromFileAndDecode_touched (f : TableFile) (work : BufRef) (t : Nat) (s : TblState) :
    wp (loadFromFileAndDecode cfg eds f work t)
      (fun _ s' => Touched (insert work (freeBuffs s)) s s') Fault.IsWrite s := by
  unfold loadFromFileAndDecode
  simp only [wp_bind, wp_get]
  split
  · exact Touched.refl _ s
  rename_i i hi
  have hfree := (not_taken_of_findFree cfg hi).2
  have hmem : BufRef.shared i ∈ insert work (freeBuffs s) := .inr ⟨i, rfl, hfree⟩
  have hsub : ({work, .shared i} : Set BufRef) ⊆ insert work (freeBuffs s) := by
    rintro b (rfl | rfl)
    · exact .inl rfl
    · exact hmem
  simp only [modifyBuff, wp_bind, wp_modify, wp_pure]
  refine wp_imp (loadScratch_touches cfg eds f work t i _) fun _ s' hs' => ?_
  exact (hs'.mono hsub).borrow hmem rfl rfl hfree.symm rfl rfl

theorem loadData_touched (src : Source) (work : BufRef) (t : Nat) (s : TblState) :
    wp (loadData cfg eds src work t) (fun _ s' => Touched (insert work (freeBuffs s)) s s')
      Fault.IsWrite s := by
  cases src with
  | file f =>
    simp only [loadData, wp_bind, wp_get, wp_pure]
    exact loadFromFileAndDecode_touched cfg eds f work t s
  | address text data =>
    have htouches : Touches (insert work (freeBuffs s)) (loadData cfg eds (.address text data) work t) := by
      refine .get fun s => .bind (writeBytes_touches (Set.mem_insert _ _) _ _) fun _ => ?_
      refine .bind (modifyBuff_touches (Set.mem_insert _ _) ?_ ?_ ?_) fun _ => .pure _ <;>
        intro v <;> rfl
    exact htouches s
  | illegal => exact Touched.refl _ s

end Loads

/-! ## Working buffers -/

section Index

variable {cfg : TblConfig} {F : Fault → Prop} {s : TblState}

/-- `LoadBuffs` can be indexed with `LoadInProgress`. -/
def InRange (cfg : TblConfig) (loadInProgress : Option Nat) : Prop :=
  ∃ i, loadInProgress = some i ∧ i < cfg.maxSimultaneousLoads

theorem loadBuffIndex_ok {lip : Option Nat} {Q : Nat → TblState → Prop}
    (hidx : InRange cfg lip ∨ F (.loadBuffs lip))
    (hQ : ∀ i, lip = some i → i < cfg.maxSimultaneousLoads → Q i s) :
    wp (loadBuffIndex cfg lip) Q F s := by
  cases lip with
  | none =>
    rcases hidx with ⟨i, hi, -⟩ | hF
    · cases hi
    · exact hF
  | some i =>
    simp only [loadBuffIndex]
    split
    · rename_i hlt
      exact hQ i rfl hlt
    rename_i hge
    rcases hidx with ⟨j, hj, hlt⟩ | hF
    · exact absurd (Option.some.inj hj ▸ hlt) hge
    · exact hF

variable {t : Nat}

/-- The state in which a working buffer has been taken for a table. -/
@[simp] def takeOwn (s : TblState) (t : Nat) : TblState :=
  s.setReg t { s.registry t with loadInProgress := some (1 - (s.registry t).activeBufferIndex) }

/-- The state in which a shared load buffer has been taken for a table. -/
@[simp] def takeShared (s : TblState) (t i : Nat) : TblState :=
  (s.setBuff (.shared i) { s.buffers (.shared i) with taken := true }).setReg t
    { s.registry t with loadInProgress := some i }

/-- The ways `getWorkingBuffer` ends. -/
inductive Working (cfg : TblConfig) (s : TblState) (t : Nat) (calledByApp : Bool) :
    Except Status BufRef → TblState → Prop where
  /-- there is no buffer -/
  | refused (e : Status) (he : e.isGood = false) : Working cfg s t calledByApp (.error e) s
  /-- the inactive buffer is already taken for a load -/
  | again {k : Nat} (hlip : (s.registry t).loadInProgress = some k)
      (hdouble : (s.registry t).doubleBuffered = true) :
      Working cfg s t calledByApp (.ok (.own t (1 - (s.registry t).activeBufferIndex))) s
  /-- a shared buffer is already taken for a load -/
  | againShared {i : Nat} (hlip : (s.registry t).loadInProgress = some i)
      (hsingle : (s.registry t).doubleBuffered = false) (hlt : i < cfg.maxSimultaneousLoads) :
      Working cfg s t calledByApp (.ok (.shared i)) s
  /-- the first load of an application uses the active buffer -/
  | direct {k : Nat} (hlip : (s.registry t).loadInProgress = none)
      (honce : (s.registry t).tableLoadedOnce = false) (happ : calledByApp = true) :
      Working cfg s t calledByApp (.ok (.own t k)) s
  /-- the inactive buffer is taken -/
  | inactive {s' : TblState} (hlip : (s.registry t).loadInProgress = none)
      (hdouble : (s.registry t).doubleBuffered = true)
      (hfree : bufferLocked s t (1 - (s.registry t).activeBufferIndex) = false)
      (htouched : Touched {.own t (1 - (s.registry t).activeBufferIndex)} (takeOwn s t) s')
      (hlater : (s.registry t).tableLoadedOnce = true ∨ calledByApp = false) :
      Working cfg s t calledByApp (.ok (.own t (1 - (s.registry t).activeBufferIndex))) s'
  /-- a shared buffer is taken -/
  | shared {i : Nat} {s' : TblState} (hlip : (s.registry t).loadInProgress = none)
      (hsingle : (s.registry t).doubleBuffered = false)
      (hfree : findFreeLoadBuff cfg s = some i)
      (htouched : Touched {.shared i} (takeShared s t i) s')
      (hlater : (s.registry t).tableLoadedOnce = true ∨ calledByApp = false) :
      Working cfg s t calledByApp (.ok (.shared i)) s'

/-- Of the registry only `LoadInProgress` of the table changes. -/
theorem Working.registry {calledByApp : Bool} {r : Except Status BufRef} {s' : TblState}
    (h : Working cfg s t calledByApp r s') : ∃ lip,
    s'.registry = Function.update s.registry t { s.registry t with loadInProgress := lip } := by
  have hsame : s.registry = Function.update s.registry t
      { s.registry t with loadInProgress := (s.registry t).loadInProgress } :=
    (Function.update_eq_self t s.registry).symm
  cases h with
  | refused | again | againShared | direct => exact ⟨_, hsame⟩
  | inactive _ _ _ htouched | shared _ _ _ htouched => exact ⟨_, htouched.registry⟩

theorem getWorkingBuffer_working {calledByApp : Bool} (hF : ∀ e, e.IsWrite → F e)
    (hidx : (s.registry t).doubleBuffered = false → (s.registry t).loadInProgress ≠ none →
      InRange cfg (s.registry t).loadInProgress ∨ F (.loadBuffs (s.registry t).loadInProgress)) :
    wp (getWorkingBuffer cfg t calledByApp) (Working cfg s t calledByApp) F s := by
  unfold getWorkingBuffer
  simp only [wp_bind, wp_get]
  split
  · rename_i i hlip
    split
    · rename_i hdouble
      exact .again hlip hdouble
    rename_i hsingle
    have hsingle : (s.registry t).doubleBuffered = false := by simpa using hsingle
    rw [wp_bind, ← hlip]
    refine loadBuffIndex_ok (hidx hsingle (by simp [hlip])) fun j hj hlt => ?_
    exact .againShared hj hsingle hlt
  rename_i hlip
  split
  · rename_i hdirect
    simp only [Bool.and_eq_true, Bool.not_eq_eq_eq_not, Bool.not_true] at hdirect
    exact .direct hlip hdirect.1 hdirect.2
  rename_i hlater
  have hlater : (s.registry t).tableLoadedOnce = true ∨ calledByApp = false := by
    simpa [or_iff_not_imp_left] using hlater
  split
  · rename_i hdouble
    split
    · exact .refused .errNoBufferAvail rfl
    rename_i hfree
    simp only [modifyReg, wp_bind, wp_modify, wp_pure]
    refine wp_mono (copyActive_touches t _ _) (fun _ s' hs' => ?_) hF
    exact .inactive hlip hdouble (by simpa using hfree) hs' hlater
  · rename_i hsingle
    split
    · exact .refused .errNoBufferAvail rfl
    rename_i i hfree
    simp only [modifyBuff, modifyReg, wp_bind, wp_modify, wp_pure]
    refine wp_mono (copyActive_touches t _ _) (fun _ s' hs' => ?_) hF
    exact .shared hlip (by simpa using hsingle) hfree hs' hlater

/-! ## Updates -/

/-- `notifyTblUsersOfUpdate` as a function on states. -/
def notified (s : TblState) (t : Nat) : TblState :=
  let s := s.setReg t
    { s.registry t with loadInProgress := none, loadPending := false, tableLoadedOnce := true }
  { s with
    handles := fun h =>
      if h ∈ (s.registry t).accessList then { s.handles h with updated := true } else s.handles h }

/-- The image of a table in a buffer. -/
def image (s : TblState) (t : Nat) (b : BufRef) : Bytes :=
  (s.buffers b).bytes.take (s.registry t).size

/-- The ways `updateInternal` ends. -/
inductive Updated (cfg : TblConfig) (s : TblState) (t : Nat) : Status → TblState → Prop where
  | idle (status : Status) (hstatus : status = .infoNoUpdatePending ∨ status = .infoTableLocked) :
      Updated cfg s t status s
  | swapped {k : Nat} (hlip : (s.registry t).loadInProgress = some k)
      (hpending : (s.registry t).loadPending = true)
      (hdouble : (s.registry t).doubleBuffered = true) :
      Updated cfg s t .success (notified
        ((s.setReg t { s.registry t with activeBufferIndex := k }).note
          (.activated t (.own t k) (image s t (.own t k)) (s.registry t).validationFunc)) t)
  | copied {i : Nat} {s₁ s₂ : TblState} (hlip : (s.registry t).loadInProgress = some i)
      (hlt : i < cfg.maxSimultaneousLoads)
      (hpending : (s.registry t).loadPending = true)
      (hsingle : (s.registry t).doubleBuffered = false)
      (hunlocked : ∀ h ∈ (s.registry t).accessList, (s.handles h).lockFlag = false)
      (htouched : Touched {.own t 0} s s₁)
      (hs₂ : s₂ = s₁.note
        (.activated t (.shared i) (image s t (.shared i)) (s.registry t).validationFunc)) :
      Updated cfg s t .success (notified
        (s₂.setBuff (.shared i) { s₂.buffers (.shared i) with taken := false }) t)

theorem copyLoaded_copied {i : Nat} (hF : ∀ e, e.IsWrite → F e)
    (hlip : (s.registry t).loadInProgress = some i) (hlt : i < cfg.maxSimultaneousLoads)
    (hpending : (s.registry t).loadPending = true)
    (hsingle : (s.registry t).doubleBuffered = false)
    (hunlocked : ∀ h ∈ (s.registry t).accessList, (s.handles h).lockFlag = false) :
    wp (copyLoaded t i) (fun _ s' => Updated cfg s t .success s') F s := by
  unfold copyLoaded
  simp only [wp_bind, wp_get]
  refine wp_mono (writeBytes_touches (Set.mem_singleton _) _ _ s) (fun _ s₁ hs₁ => ?_) hF
  refine wp_mono (modifyBuff_touches (Set.mem_singleton (BufRef.own t 0)) ?_ ?_ ?_ s₁)
    (fun _ s₂ hs₂ => ?_) hF
  · intro v; rfl
  · intro v; rfl
  · intro v; rfl
  exact .copied hlip hlt hpending hsingle hunlocked (hs₁.trans hs₂) rfl

theorem updateInternal_updated (hF : ∀ e, e.IsWrite → F e)
    (hidx : (s.registry t).doubleBuffered = false → (s.registry t).loadInProgress ≠ none →
      InRange cfg (s.registry t).loadInProgress ∨ F (.loadBuffs (s.registry t).loadInProgress)) :
    wp (updateInternal cfg t) (Updated cfg s t) F s := by
  unfold updateInternal
  simp only [wp_bind, wp_get]
  split
  · exact .idle _ (.inl rfl)
  rename_i k hlip
  split
  · exact .idle _ (.inl rfl)
  rename_i hpending
  have hpending : (s.registry t).loadPending = true := by simpa using hpending
  split
  · rename_i hdouble
    exact .swapped hlip hpending hdouble
  rename_i hsingle
  have hsingle : (s.registry t).doubleBuffered = false := by simpa using hsingle
  split
  · exact .idle _ (.inr rfl)
  rename_i hunlocked
  have hunlocked : ∀ h ∈ (s.registry t).accessList, (s.handles h).lockFlag = false := by
    simpa using hunlocked
  simp only [wp_bind, wp_pure]
  rw [← hlip]
  refine loadBuffIndex_ok (hidx hsingle (by simp [hlip])) fun i hi hlt => ?_
  exact copyLoaded_copied hF hi hlt hpending hsingle hunlocked

/-! ## The end of a load -/

/-- The ways `validateLoad` ends. -/
inductive Checked (s : TblState) (vf : Bytes → Int) (work : BufRef) (t : Nat) (status : Status) :
    Status → TblState → Prop where
  | skipped (h : status.isGood = false ∨ (s.registry t).validationFunc = false) :
      Checked s vf work t status status s
  | passed (hgood : status.isGood = true) (h : vf (image s t work) = 0) :
      Checked s vf work t status .success (s.note (.validation work (image s t work) 0))
  | failed {status' : Status} {s' : TblState} (hbad : status'.isGood = false)
      (htouched : Touched {work}
        (s.note (.validation work (image s t work) (vf (image s t work)))) s') :
      Checked s vf work t status status' s'

theorem validateLoad_checked {vf : Bytes → Int} {work : BufRef} {status : Status}
    (hF : ∀ e, e.IsWrite → F e) :
    wp (validateLoad vf work t status) (Checked s vf work t status) F s := by
  unfold validateLoad
  simp only [wp_bind, wp_get]
  split
  · rename_i hcheck
    simp only [Bool.and_eq_true] at hcheck
    simp only [note, wp_bind, wp_modify]
    split
    · rename_i hzero
      have hzero' : vf (image s t work) = 0 := hzero
      have hend : Checked s vf work t status .success
          (s.note (.validation work (image s t work) 0)) := .passed hcheck.1 hzero'
      rw [← hzero'] at hend
      exact hend
    · simp only [wp_bind, wp_pure]
      refine wp_mono (writeBytes_touches (Set.mem_singleton work) _ _ _) (fun _ s' hs' => ?_) hF
      exact .failed rfl hs'
  · rename_i hcheck
    refine .skipped ?_
    cases hgood : status.isGood with
    | false => exact .inl rfl
    | true => exact .inr (by simpa [hgood] using hcheck)

/-- The state in which a load is given up. -/
@[simp] def cleared (s : TblState) (t : Nat) : TblState :=
  s.setReg t { s.registry t with loadInProgress := none }

/-- The state in which a shared load buffer is free again. -/
@[simp] def freed (s : TblState) (i : Nat) : TblState :=
  s.setBuff (.shared i) { s.buffers (.shared i) with taken := false }

/-- The ways `finishLoad` ends. -/
inductive Finished (cfg : TblConfig) (s : TblState) (t : Nat) (status : Status) :
    Status → TblState → Prop where
  | freed {i : Nat} (hbad : status.isGood = false)
      (hsingle : (s.registry t).doubleBuffered = false)
      (hlip : (s.registry t).loadInProgress = some i) (hlt : i < cfg.maxSimultaneousLoads) :
      Finished cfg s t status status (cleared (freed s i) t)
  | dropped (hbad : status.isGood = false)
      (h : (s.registry t).doubleBuffered = true ∨ (s.registry t).tableLoadedOnce = false) :
      Finished cfg s t status status (cleared s t)
  | updated {status' : Status} {s' : TblState} (hgood : status.isGood = true)
      (honce : (s.registry t).tableLoadedOnce = true)
      (h : Updated cfg (s.setReg t { s.registry t with loadPending := true }) t status' s') :
      Finished cfg s t status status' s'
  | first (hgood : status.isGood = true) (honce : (s.registry t).tableLoadedOnce = false) :
      Finished cfg s t status .success (notified s t)

theorem finishLoad_finished {status : Status} (hF : ∀ e, e.IsWrite → F e)
    (hidx : (s.registry t).doubleBuffered = false → (s.registry t).tableLoadedOnce = true →
      InRange cfg (s.registry t).loadInProgress ∨ F (.loadBuffs (s.registry t).loadInProgress)) :
    wp (finishLoad cfg t status) (Finished cfg s t status) F s := by
  unfold finishLoad
  simp only [wp_bind, wp_get]
  split
  · rename_i hbad
    have hbad : status.isGood = false := by simpa using hbad
    simp only [onlyIf, modifyReg, wp_ite, wp_bind, wp_modify, wp_pure]
    split
    · rename_i hshared
      simp only [Bool.and_eq_true, Bool.not_eq_eq_eq_not, Bool.not_true] at hshared
      refine loadBuffIndex_ok (hidx hshared.1 hshared.2) fun i hi hlt => ?_
      exact .freed hbad hshared.1 hi hlt
    rename_i hown
    refine .dropped hbad ?_
    cases hdouble : (s.registry t).doubleBuffered with
    | true => exact .inl rfl
    | false => exact .inr (by simpa [hdouble] using hown)
  · rename_i hgood
    have hgood : status.isGood = true := by simpa using hgood
    split
    · rename_i honce
      refine wp_imp (updateInternal_updated hF ?_) fun _ _ h => ?_
      · intro hsingle _
        simp only [TblState.setReg, Function.update_self] at hsingle ⊢
        exact hidx hsingle honce
      · exact .updated hgood honce h
    · rename_i honce
      exact .first hgood (by simpa using honce)

end Index

end CfsEds.Tbl
