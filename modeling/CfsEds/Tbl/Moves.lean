import CfsEds.Tbl.Effects
import Mathlib.Logic.Relation

/-!
# The moves of table services

Every call and every ground command changes the state by a sequence of moves, and there
are not many kinds of them: a validation result is filled in, a handle is put on a list
or taken off, a working buffer is taken and loaded, a table updated, and so on. `Move`
lists them, each with what the code has tested before it. `Event.does` says that an event
makes only moves, so that an invariant of table services has to be looked at once for
each move and not again in every call.

A move is not one assignment. The parts of a load or of an update leave the state in between
without the invariants that are proved later, so each is one move, and what it did is told by
the relations of `CfsEds.Tbl.Effects` (`Working`, `Touched`, `Checked`, `Finished`, `Updated`).
This takes for granted that a call is not interrupted by one of another task, as `Run` does.

The moves that some invariant does not survive carry a `Label`; `Moves cfg P` are
sequences in which only labels in `P` occur. `Event.Allows` says which labels an event can
have in a state: the lock of a handle, say, only changes by the two calls for it, and not by
`CFE_TBL_GetAddress` if the handle was obtained for the active buffer already. An invariant
that needs an assumption on events thus states it as the absence of a label.

The proofs follow the code with the rules of `Does`: what was tested becomes the hypotheses of
a move, and a `get` or a branch that returns an error makes none. A program may stop with a
fault. Writes beyond a buffer are left to `CfsEds.Tbl.Bounds`; a call that stops because of an
index of `LoadBuffs` either was allowed to (`badIndex`) or found a `LoadInProgress` out of range
(`Fails`), so that an invariant which keeps it in range excludes the fault as well.
-/

namespace CfsEds.Tbl

open CfsEds.Lib.Faults List

variable {name : List Char} {h size t : Nat} {opts : TblOptions}

/-! ## States after a move -/

/-- A registry record is overwritten, with its buffers. -/
@[simp] def initialized (s : TblState) (t : Nat) (r : RegistryRec) (bufs : Nat → LoadBuff) : TblState :=
  { s.setReg t r with
    buffers
      | .own t' k => if t' = t then bufs k else s.buffers (.own t' k)
      | .shared i => s.buffers (.shared i) }

/-- The state in which a handle is off the access list of its table. -/
@[simp] def unlinked (s : TblState) (h : Nat) : TblState :=
  (s.setReg (s.handles h).regIndex
    { s.registry (s.handles h).regIndex with
      accessList := (s.registry (s.handles h).regIndex).accessList.erase h }).setHandle h
    { s.handles h with usedFlag := false }

/-- The state in which the buffers of a table are given back. -/
def emptied (s : TblState) (t : Nat) : TblState :=
  let s₁ := s.setBuff (.own t 0) { s.buffers (.own t 0) with bytes := [] }
  if (s.registry t).doubleBuffered then
    s₁.setBuff (.own t 1) { s₁.buffers (.own t 1) with bytes := [] }
  else s₁

@[simp] theorem registry_emptied (s : TblState) (t : Nat) : (emptied s t).registry = s.registry := by
  unfold emptied
  split <;> rfl

@[simp] theorem handles_emptied (s : TblState) (t : Nat) : (emptied s t).handles = s.handles := by
  unfold emptied
  split <;> rfl

@[simp] theorem dumpControlBlocks_emptied (s : TblState) (t : Nat) :
    (emptied s t).dumpControlBlocks = s.dumpControlBlocks := by
  unfold emptied
  split <;> rfl

@[simp] theorem buffers_emptied_shared (s : TblState) (t i : Nat) :
    (emptied s t).buffers (.shared i) = s.buffers (.shared i) := by
  unfold emptied
  split <;> simp

/-- The state in which a handle is locked. -/
def lockedState (s : TblState) (h : Nat) : TblState :=
  s.setHandle h
    { s.handles h with
      lockFlag := true
      bufferIndex := (s.registry (s.handles h).regIndex).activeBufferIndex
      updated := false }

/-- The buffer that is not the active one: the second buffer of the table, or the shared
one of its load. -/
inductive IsInactive (cfg : TblConfig) (s : TblState) (t : Nat) : BufRef → Prop where
  | own (hdouble : (s.registry t).doubleBuffered = true) :
      IsInactive cfg s t (.own t (1 - (s.registry t).activeBufferIndex))
  | shared {i : Nat} (hsingle : (s.registry t).doubleBuffered = false)
      (hlip : (s.registry t).loadInProgress = some i) (hlt : i < cfg.maxSimultaneousLoads) :
      IsInactive cfg s t (.shared i)

/-! ## Moves -/

/-- What the moves that an invariant may not survive are called. -/
inductive Label where
  /-- the lock of a handle changes -/
  | lock (h : Nat)
  /-- a handle is taken off the list of its table -/
  | unlink (h : Nat)
  /-- a ground load stops half way, in a buffer that counts as validated -/
  | partialLoad
  /-- housekeeping closes a dump -/
  | dumpClosed
  /-- the clean-up of an application drops a dump -/
  | dumpDropped
  /-- `LoadBuffs` may be indexed without a load in progress; no move does this -/
  | badIndex

/-- One change of the state. -/
inductive Move (cfg : TblConfig) : Option Label → TblState → TblState → Prop where
  | result {s : TblState} (v : Nat) (r : ValidationResult) : Move cfg none s (s.setValidation v r)
  | requested {s : TblState} (t : Nat) (active inactive : Option Nat) :
      Move cfg none s (s.setReg t
        { s.registry t with validateActiveIndex := active, validateInactiveIndex := inactive })
  | blank {s : TblState} {t : Nat} (double : Bool) (bufs : Nat → LoadBuff)
      (howner : (s.registry t).ownerAppId = none) (hlist : (s.registry t).accessList = []) :
      Move cfg none s (initialized s t { RegistryRec.init with doubleBuffered := double } bufs)
  | registered {s : TblState} {t h : Nat} (app : Nat) (name : List Char) (size : Nat)
      {opts : TblOptions} (func : Bool)
      (howner : (s.registry t).ownerAppId = none) (hlist : (s.registry t).accessList = [])
      (hunused : (s.handles h).usedFlag = false) (hlt : h < cfg.maxNumHandles)
      (hopts : opts.usrDefAddr = true → opts.dumpOnly = true)
      (hsize : opts.dblBuffer = false → size ≤ cfg.maxSnglTableSize) :
      Move cfg none s ((initialized s t (newRecord app h name size opts func)
        (newBuffers size opts true true)).setHandle h (newHandle (s.handles h) app t false))
  | shared {s : TblState} {t h : Nat} (app : Nat) (howner : (s.registry t).ownerAppId ≠ none)
      (hunused : (s.handles h).usedFlag = false) (hlt : h < cfg.maxNumHandles) :
      Move cfg none s
        ((s.setHandle h (newHandle (s.handles h) app t (s.registry t).tableLoadedOnce)).setReg t
          { s.registry t with accessList := h :: (s.registry t).accessList })
  | disowned {s : TblState} {h : Nat} (hused : (s.handles h).usedFlag = true) :
      Move cfg none s (s.setReg (s.handles h).regIndex
        { s.registry (s.handles h).regIndex with ownerAppId := none, name := [] })
  | unlinked {s : TblState} {h : Nat} (hused : (s.handles h).usedFlag = true)
      (hkeep : (s.registry (s.handles h).regIndex).accessList.erase h ≠ [] ∨
        (s.registry (s.handles h).regIndex).userDefAddr = true) :
      Move cfg (some (.unlink h)) s (Tbl.unlinked s h)
  | emptied {s : TblState} {h : Nat} (hused : (s.handles h).usedFlag = true)
      (hlast : (s.registry (s.handles h).regIndex).accessList.erase h = [])
      (hnone : (s.registry (s.handles h).regIndex).doubleBuffered = true ∨
        (s.registry (s.handles h).regIndex).loadInProgress = none) :
      Move cfg (some (.unlink h)) s (Tbl.emptied (Tbl.unlinked s h) (s.handles h).regIndex)
  | emptiedShared {s : TblState} {h i : Nat} (hused : (s.handles h).usedFlag = true)
      (hlast : (s.registry (s.handles h).regIndex).accessList.erase h = [])
      (hsingle : (s.registry (s.handles h).regIndex).doubleBuffered = false)
      (hlip : (s.registry (s.handles h).regIndex).loadInProgress = some i)
      (hlt : i < cfg.maxSimultaneousLoads) :
      Move cfg (some (.unlink h)) s
        (cleared (freed (Tbl.emptied (Tbl.unlinked s h) (s.handles h).regIndex) i)
          (s.handles h).regIndex)
  | forgotten {s : TblState} {h : Nat} (hunused : (s.handles h).usedFlag = false) :
      Move cfg none s (s.setHandle h { s.handles h with appId := none })
  | dumpDropped {s : TblState} (d : Nat) :
      Move cfg (some .dumpDropped) s (s.setDump d { s.dumpControlBlocks d with state := .free })
  | locked {s : TblState} {h : Nat} (hused : (s.handles h).usedFlag = true) :
      Move cfg (some (.lock h)) s (lockedState s h)
  | relocked {s : TblState} {h : Nat} (hused : (s.handles h).usedFlag = true)
      (hindex : (s.handles h).bufferIndex =
        (s.registry (s.handles h).regIndex).activeBufferIndex) :
      Move cfg none s (lockedState s h)
  | released {s : TblState} (h : Nat) :
      Move cfg (some (.lock h)) s (s.setHandle h { s.handles h with lockFlag := false })
  | updated {s s' : TblState} {t : Nat} {status : Status} (h : Updated cfg s t status s') :
      Move cfg none s s'
  | loaded {s s₁ s₂ s₃ s₄ : TblState} {h : Nat} {vf : Bytes → Int} {work : BufRef}
      {status status' status'' : Status} (hused : (s.handles h).usedFlag = true)
      (hlip : (s.registry (s.handles h).regIndex).loadInProgress = none)
      (hdump : (s.registry (s.handles h).regIndex).dumpOnly = false)
      (hwork : Working cfg s (s.handles h).regIndex true (.ok work) s₁)
      (hdata : Touched (insert work (freeBuffs s₁)) s₁ s₂)
      (hcheck : Checked s₂ vf work (s.handles h).regIndex status status' s₃)
      (hfinish : Finished cfg s₃ (s.handles h).regIndex status' status'' s₄) : Move cfg none s s₄
  | userDefined {s : TblState} {t : Nat} (src : Source)
      (honce : (s.registry t).tableLoadedOnce = false)
      (hdump : (s.registry t).dumpOnly = true) :
      Move cfg none s
        ((s.setReg t { s.registry t with tableLoadedOnce := true }).setBuff (.own t 0)
          { s.buffers (.own t 0) with
            bytes := src.bytes
            dataSource := src.text
            fileCreateTimeSecs := 0
            fileCreateTimeSubSecs := 0 })
  | checked {s : TblState} (t : Nat) (b : BufRef) (result : Int) :
      Move cfg none s (s.note (.validation b (image s t b) result))
  | passed {s : TblState} {t : Nat} {b : BufRef} (hb : IsInactive cfg s t b) :
      Move cfg none s ((s.note (.validation b (image s t b) 0)).setBuff b
        { s.buffers b with validated := true })
  | groundPartial {s s₁ s₂ : TblState} {t : Nat} {b : BufRef}
      (howner : (s.registry t).ownerAppId ≠ none) (hdump : (s.registry t).dumpOnly = false)
      (hpending : (s.registry t).loadPending = false)
      (hwork : Working cfg s t false (.ok b) s₁) (hdata : Touched {b} s₁ s₂) :
      Move cfg (some .partialLoad) s s₂
  | groundLoaded {s s₁ s₂ : TblState} {t : Nat} {b : BufRef} {v : LoadBuff}
      (howner : (s.registry t).ownerAppId ≠ none) (hdump : (s.registry t).dumpOnly = false)
      (hpending : (s.registry t).loadPending = false)
      (hwork : Working cfg s t false (.ok b) s₁) (hdata : Touched {b} s₁ s₂)
      (htaken : v.taken = (s₂.buffers b).taken) (hbytes : v.bytes = (s₂.buffers b).bytes)
      (hvalidated : (s.registry t).validationFunc = true → v.validated = false) :
      Move cfg none s (s₂.setBuff b v)
  | groundRefused {s s₁ : TblState} {t : Nat} {e : Status}
      (hwork : Working cfg s t false (.error e) s₁) : Move cfg none s s₁
  | dumpFailed {s s' : TblState} {i d : Nat} {c : DumpControl}
      (hfree : findFreeLoadBuff cfg s = some i) (hd : findFreeDump cfg s = some d)
      (hc : c.state = .free) (htouched : Touched {.shared i} (s.setDump d c) s') :
      Move cfg none s s'
  | dumped {s s' : TblState} {i d : Nat} {c : DumpControl}
      (hfree : findFreeLoadBuff cfg s = some i) (hd : findFreeDump cfg s = some d)
      (hc : c.state = .performed) (hbuffer : c.dumpBuffer = i)
      (htouched : Touched {.shared i}
        ((s.setBuff (.shared i) { s.buffers (.shared i) with taken := true }).setDump d c) s') :
      Move cfg none s s'
  | activate {s : TblState} {t : Nat} {b : BufRef}
      (hlip : (s.registry t).loadInProgress ≠ none) (hb : IsInactive cfg s t b)
      (hvalidated : (s.buffers b).validated = true) :
      Move cfg none s (s.setReg t { s.registry t with loadPending := true })
  | aborted {s : TblState} {t : Nat} (hdouble : (s.registry t).doubleBuffered = true) :
      Move cfg none s (s.setReg t { s.registry t with loadInProgress := none, loadPending := false })
  | abortedShared {s : TblState} {t i : Nat} (hsingle : (s.registry t).doubleBuffered = false)
      (hlip : (s.registry t).loadInProgress = some i) (hlt : i < cfg.maxSimultaneousLoads) :
      Move cfg none s ((freed s i).setReg t
        { s.registry t with loadInProgress := none, loadPending := false })
  | dumpClosed {s : TblState} {d i : Nat}
      (hlip : (s.registry (s.dumpControlBlocks d).regIndex).loadInProgress = some i) :
      Move cfg (some .dumpClosed) s
        ((cleared (freed s i) (s.dumpControlBlocks d).regIndex).setDump d
          { s.dumpControlBlocks d with state := .free })

/-- Moves with labels in `P`. -/
def Moves (cfg : TblConfig) (P : Label → Prop) : TblState → TblState → Prop :=
  Relation.ReflTransGen fun s s' => ∃ l, (∀ x ∈ l, P x) ∧ Move cfg l s s'

namespace Moves

variable {cfg : TblConfig} {P Q : Label → Prop} {s s' s'' : TblState}

theorem refl : Moves cfg P s s := Relation.ReflTransGen.refl

theorem trans (h : Moves cfg P s s') (h' : Moves cfg P s' s'') : Moves cfg P s s'' :=
  Relation.ReflTransGen.trans h h'

theorem quiet (h : Move cfg none s s') : Moves cfg P s s' := .single ⟨none, by simp, h⟩

theorem labelled {l : Label} (h : Move cfg (some l) s s') (hl : P l) : Moves cfg P s s' :=
  .single ⟨some l, by simpa using hl, h⟩

end Moves

/-! ## Programs that make moves -/

/-- A fault is not an index of `LoadBuffs` that is out of range, unless that is allowed or
some table of a state on the way has one. -/
def Fails (cfg : TblConfig) (P : Label → Prop) (s : TblState) (e : Fault) : Prop :=
  ∀ i, e = .loadBuffs i → P .badIndex ∨ ∃ s₁ t, Moves cfg P s s₁ ∧
    (s₁.registry t).doubleBuffered = false ∧ (s₁.registry t).loadInProgress ≠ none ∧
    ¬InRange cfg (s₁.registry t).loadInProgress

/-- `x` run from `s` makes moves with labels in `P`. -/
abbrev Does (cfg : TblConfig) (P : Label → Prop) {α : Type} (x : TblM α) (s : TblState) : Prop :=
  wp x (fun _ s' => Moves cfg P s s') (Fails cfg P s) s

section Rules

variable {cfg : TblConfig} {P Q : Label → Prop} {s s₁ : TblState} {α β : Type}

theorem Fails.of_isWrite {e : Fault} (h : e.IsWrite) : Fails cfg P s e := by
  rintro i rfl
  obtain ⟨b, offset, length, heq⟩ := h
  cases heq

theorem Fails.after {e : Fault} (hm : Moves cfg P s s₁) (h : Fails cfg P s₁ e) :
    Fails cfg P s e := by
  intro i hi
  rcases h i hi with hbad | ⟨s₂, t, hm₂, hrest⟩
  · exact .inl hbad
  · exact .inr ⟨s₂, t, hm.trans hm₂, hrest⟩

/-- An index that the code has tested for being there is in range or it is the fault of the
record. -/
theorem Fails.index (hsingle : (s.registry t).doubleBuffered = false)
    (hlip : (s.registry t).loadInProgress ≠ none) :
    InRange cfg (s.registry t).loadInProgress ∨
      Fails cfg P s (.loadBuffs (s.registry t).loadInProgress) := by
  by_cases hrange : InRange cfg (s.registry t).loadInProgress
  · exact .inl hrange
  · exact .inr fun _ _ => .inr ⟨s, t, .refl, hsingle, hlip, hrange⟩

namespace Does

variable {x : TblM α} {f : α → TblM β}

/-- A program after moves that have been made already. -/
theorem after (hm : Moves cfg P s s₁) (h : Does cfg P x s₁) :
    wp x (fun _ s' => Moves cfg P s s') (Fails cfg P s) s₁ :=
  wp_mono h (fun _ _ hm' => hm.trans hm') (fun _ he => he.after hm)

theorem bind (hx : Does cfg P x s) (hf : ∀ a s', Does cfg P (f a) s') : Does cfg P (x >>= f) s := by
  rw [Does, wp_bind]
  exact wp_imp hx fun a s' hm => (hf a s').after hm

theorem pure (a : α) : Does cfg P (pure a : TblM α) s := Moves.refl

theorem get {f : TblState → TblM β} (hf : Does cfg P (f s) s) :
    Does cfg P (MonadState.get >>= f) s := hf

theorem ite {c : Prop} [Decidable c] {y : TblM α} (hx : c → Does cfg P x s)
    (hy : ¬c → Does cfg P y s) : Does cfg P (if c then x else y) s := by
  split
  · rename_i hc
    exact hx hc
  · rename_i hc
    exact hy hc

theorem onlyIf {c : Bool} {x : TblM Unit} (hx : c = true → Does cfg P x s) :
    Does cfg P (onlyIf c x) s := by
  exact .ite hx fun _ => .pure _

theorem ignore (h : Does cfg P x s) : Does cfg P (do let _ ← x) s := h.bind fun _ _ => .pure _

theorem forM {l : List α} {body : α → TblM PUnit}
    (hbody : ∀ a ∈ l, ∀ s', Does cfg P (body a) s') : Does cfg P (forM l body) s := by
  refine wp_forM (fun a ha s₁ hm => ?_) Moves.refl
  exact (hbody a ha s₁).after hm

end Does

end Rules

/-! ## Calls -/

section Calls

variable {cfg : TblConfig} {eds : EdsLib} {P : Label → Prop} {s : TblState}

theorem not_used_of_findFree (hfree : findFreeHandle cfg s = some h) :
    h < cfg.maxNumHandles ∧ (s.handles h).usedFlag = false := by
  have hlt := mem_range.1 (mem_of_find?_eq_some hfree)
  have hunused := find?_some hfree
  exact ⟨hlt, by simpa using hunused⟩

theorem owned_of_findTable (h : findTableInRegistry cfg s name = some t) :
    (s.registry t).ownerAppId ≠ none := by
  have hfound := find?_some h
  simp only [Bool.and_eq_true] at hfound
  exact Option.isSome_iff_ne_none.1 hfound.1

/-- Calls are refused on handles that are not in use. -/
theorem used_of_validateAccess {app : Nat} (hok : ¬validateAccess cfg s h app ≠ .success) :
    (s.handles h).usedFlag = true := by
  by_contra hunused
  simp only [Bool.not_eq_true] at hunused
  simp [validateAccess, validateHandle, hunused] at hok

theorem registerNew_does (howner : (s.registry t).ownerAppId = none)
    (hlist : (s.registry t).accessList = []) (hfree : findFreeHandle cfg s = some h)
    (hopts : opts.usrDefAddr = true → opts.dumpOnly = true)
    (hsize : opts.dblBuffer = false → size ≤ cfg.maxSnglTableSize) (app : Nat) (name : List Char)
    (func firstAlloc secondAlloc : Bool) :
    Does cfg P (registerNew app name size opts func firstAlloc secondAlloc t h) s := by
  obtain ⟨hlt, hunused⟩ := not_used_of_findFree hfree
  refine .ite (fun _ => ?_) fun _ => .ite (fun _ => ?_) fun _ => ?_
  · exact Moves.quiet (.blank false _ howner hlist)
  · exact Moves.quiet (.blank true _ howner hlist)
  · exact Moves.quiet (.registered app name size func howner hlist hunused hlt hopts hsize)

theorem registerStatus_userDef (h : registerStatus cfg name size opts = .success)
    (huser : opts.usrDefAddr = true) : opts.dumpOnly = true := by
  by_contra hdump
  simp only [Bool.not_eq_true] at hdump
  unfold registerStatus at h
  split at h
  · cases h
  · simp [huser, hdump] at h

theorem registerStatus_size (h : registerStatus cfg name size opts = .success)
    (hsingle : opts.dblBuffer = false) : size ≤ cfg.maxSnglTableSize := by
  by_contra hbig
  have hlt : cfg.maxSnglTableSize < size := by omega
  -- none of the earlier tests lets such a size through to `success`
  unfold registerStatus at h
  simp only [hlt, hsingle, Bool.not_false, and_self] at h
  split at h
  · cases h
  split at h
  · cases h
  · split at h
    · cases h
    · split at h <;> cases h

theorem register_does (app : Nat) (name : List Char) (size : Nat) (opts : TblOptions)
    (func firstAlloc secondAlloc : Bool) :
    Does cfg P (register cfg app name size opts func firstAlloc secondAlloc) s := by
  refine .get (.ite (fun _ => .pure _) fun hstatus => ?_)
  have hopts := registerStatus_userDef (not_not.1 hstatus)
  have hsize := registerStatus_size (not_not.1 hstatus)
  split
  · exact .ite (fun _ => .pure _) fun _ => .ite (fun _ => .pure _) fun _ =>
      .ite (fun _ => .pure _) fun _ => .pure _
  · exact .pure _
  rename_i h _ hh
  split
  · exact .pure _
  rename_i t ht
  have hfree := find?_some ht
  simp only [Bool.and_eq_true, List.isEmpty_iff, Option.isNone_iff_eq_none] at hfree
  exact registerNew_does hfree.1 hfree.2 hh hopts hsize _ _ _ _ _

theorem share_does (app : Nat) (name : List Char) : Does cfg P (share cfg app name) s := by
  refine .get ?_
  split
  · exact .pure _
  rename_i t ht
  split
  · exact .pure _
  · rename_i h hh
    obtain ⟨hlt, hunused⟩ := not_used_of_findFree hh
    exact Moves.quiet (.shared app (owned_of_findTable ht) hunused hlt)

/-- The buffers of a table are given back, and the shared one of its load. -/
theorem freeBuffers_emptied {F : Fault → Prop}
    (hidx : (s.registry t).doubleBuffered = false → (s.registry t).loadInProgress ≠ none →
      InRange cfg (s.registry t).loadInProgress ∨ F (.loadBuffs (s.registry t).loadInProgress)) :
    wp (freeBuffers cfg t) (fun _ s' =>
        (((s.registry t).doubleBuffered = true ∨ (s.registry t).loadInProgress = none) ∧
          s' = emptied s t) ∨
        ∃ i, (s.registry t).doubleBuffered = false ∧ (s.registry t).loadInProgress = some i ∧
          i < cfg.maxSimultaneousLoads ∧ s' = cleared (freed (emptied s t) i) t) F s := by
  unfold freeBuffers emptied
  cases hdouble : (s.registry t).doubleBuffered with
  | true =>
    simp only [modifyBuff, wp_bind, wp_get, wp_modify, TblState.setBuff_registry, hdouble, if_true]
    exact .inl ⟨.inl trivial, trivial⟩
  | false =>
    simp only [modifyBuff, wp_bind, wp_get, wp_modify, TblState.setBuff_registry, hdouble,
      Bool.false_eq_true, if_false]
    cases hlip : (s.registry t).loadInProgress with
    | none => exact .inl ⟨.inr rfl, rfl⟩
    | some =>
      rw [wp_bind, ← hlip]
      refine loadBuffIndex_ok (hidx hdouble (by simp [hlip])) fun j hj hlt => .inr ⟨j, trivial, ?_⟩
      exact ⟨hlip ▸ hj, hlt, rfl⟩

/-- A handle in use is taken off its list; the last one closes the table. -/
theorem removeAccessLink_does (hused : (s.handles h).usedFlag = true) (hP : P (.unlink h)) :
    Does cfg P (removeAccessLink cfg h) s := by
  -- of the record only the list has changed when the buffers are given back
  have hreg : (unlinked s h).registry (s.handles h).regIndex =
      { s.registry (s.handles h).regIndex with
        accessList := (s.registry (s.handles h).regIndex).accessList.erase h } := by
    simp
  unfold removeAccessLink
  change wp (onlyIf (((unlinked s h).registry (s.handles h).regIndex).accessList.isEmpty &&
    !((unlinked s h).registry (s.handles h).regIndex).userDefAddr)
      (freeBuffers cfg (s.handles h).regIndex)) _ _ (unlinked s h)
  unfold onlyIf
  split
  · rename_i hcond
    rw [hreg] at hcond
    simp only [Bool.and_eq_true, List.isEmpty_iff] at hcond
    refine wp_imp (freeBuffers_emptied ?_) fun _ s' h' => ?_
    · rw [hreg]
      exact Fails.index
    · rw [hreg] at h'
      rcases h' with ⟨hnone, rfl⟩ | ⟨i, hsingle, hlip, hlt, rfl⟩
      · exact Moves.labelled (.emptied hused hcond.1 hnone) hP
      · exact Moves.labelled (.emptiedShared hused hcond.1 hsingle hlip hlt) hP
  · rename_i hcond
    refine Moves.labelled (.unlinked hused ?_) hP
    rw [hreg] at hcond
    simp only [Bool.and_eq_true, List.isEmpty_iff, Bool.not_eq_eq_eq_not, Bool.not_true,
      not_and, Bool.not_eq_false] at hcond
    exact or_iff_not_imp_left.2 fun hne => hcond (not_not.1 hne)

theorem disown_does (app : Nat) (hused : (s.handles h).usedFlag = true) :
    wp (disown app (s.handles h).regIndex)
      (fun _ s' => Moves cfg P s s' ∧ s'.handles = s.handles) (Fails cfg P s) s := by
  unfold disown onlyIf
  simp only [wp_bind, wp_get]
  split
  · exact ⟨Moves.quiet (.disowned hused), rfl⟩
  · exact ⟨.refl, rfl⟩

theorem unregister_does (app h : Nat) (hP : P (.unlink h)) :
    Does cfg P (unregister cfg app h) s := by
  refine .get (.ite (fun _ => .pure _) fun haccess => ?_)
  have hused := used_of_validateAccess haccess
  -- the owner is gone before the handle is, which is still in use in between
  rw [Does, wp_bind]
  refine wp_imp (disown_does app hused) fun _ s₁ h₁ => ?_
  refine Does.after h₁.1 ((removeAccessLink_does ?_ hP).bind fun _ _ => .pure _)
  rw [h₁.2]
  exact hused

theorem getAddress_does (app h : Nat) (hP : (s.handles h).bufferIndex ≠
      (s.registry (s.handles h).regIndex).activeBufferIndex → P (.lock h)) :
    Does cfg P (getAddress cfg app h) s := by
  refine .get (.ite (fun _ => .pure _) fun haccess => .ite (fun _ => .pure _) fun _ => ?_)
  have hused := used_of_validateAccess haccess
  -- a handle that notes the active buffer goes on protecting it
  by_cases hindex : (s.handles h).bufferIndex =
      (s.registry (s.handles h).regIndex).activeBufferIndex
  · exact Moves.quiet (.relocked hused hindex)
  · exact Moves.labelled (.locked hused) (hP hindex)

theorem releaseAddress_does (app h : Nat) (hP : P (.lock h)) :
    Does cfg P (releaseAddress cfg app h) s := by
  refine .get (.ite (fun _ => .pure _) fun _ => ?_)
  exact Moves.labelled (.released h) hP

theorem updateInternal_does (t : Nat) : Does cfg P (updateInternal cfg t) s :=
  wp_imp (updateInternal_updated (fun _ => Fails.of_isWrite) Fails.index)
    fun _ _ h => Moves.quiet (.updated h)

theorem update_does (app h : Nat) : Does cfg P (update cfg app h) s := by
  exact .get (.ite (fun _ => .pure _) fun _ => updateInternal_does _)

theorem loadTable_does (src : Source) (vf : Bytes → Int) (hused : (s.handles h).usedFlag = true)
    (hlip : (s.registry (s.handles h).regIndex).loadInProgress = none)
    (hdump : (s.registry (s.handles h).regIndex).dumpOnly = false) :
    Does cfg P (loadTable cfg eds src vf (s.handles h).regIndex) s := by
  unfold loadTable
  rw [Does, wp_bind]
  refine wp_imp (getWorkingBuffer_working (fun _ => Fails.of_isWrite) fun _ hsome =>
    absurd hlip hsome) fun r s₁ h₁ => ?_
  cases r with
  | error =>
    cases h₁ with
    | refused => exact .refl
  | ok work =>
    simp only [wp_bind]
    refine wp_mono (loadData_touched cfg eds src work _ s₁) (fun status s₂ h₂ => ?_)
      (fun _ => Fails.of_isWrite)
    refine wp_imp (validateLoad_checked fun _ => Fails.of_isWrite) fun status' s₃ h₃ => ?_
    have hregistry : s₃.registry = s₂.registry := by
      cases h₃ with
      | skipped | passed => rfl
      | failed _ htouched => exact htouched.registry
    refine wp_imp (finishLoad_finished (fun _ => Fails.of_isWrite) fun hsingle honce => .inl ?_)
      fun _ s₄ h₄ => Moves.quiet (.loaded hused hlip hdump h₁ h₂ h₃ h₄)
    -- the load of a table that was loaded before has just taken a shared buffer
    rw [hregistry, h₂.registry] at hsingle honce ⊢
    cases h₁ with
    | again hsome | againShared hsome => exact absurd hsome (by simp [hlip])
    | direct _ hnever => exact absurd honce (by simp [hnever])
    | inactive _ hdouble _ htouched =>
      rw [htouched.registry] at hsingle
      simp [hdouble] at hsingle
    | @shared i _ _ _ hfree htouched =>
      rw [htouched.registry]
      exact ⟨i, by simp, (not_taken_of_findFree cfg hfree).1⟩

theorem loadUserDefined_does (src : Source) (hdump : (s.registry t).dumpOnly = true) :
    Does cfg P (loadUserDefined src t) s := by
  refine .get (.ite (fun _ => .pure _) fun hcond => ?_)
  simp only [Bool.or_eq_true, Bool.not_eq_eq_eq_not, Bool.not_true, not_or,
    Bool.not_eq_true, Bool.not_eq_false] at hcond
  exact Moves.quiet (.userDefined src hcond.2 hdump)

theorem load_does (app h : Nat) (src : Source) (vf : Bytes → Int) :
    Does cfg P (load cfg eds app h src vf) s := by
  refine .get (.ite (fun _ => .pure _) fun haccess => .ite (fun hdump => ?_) fun hdump =>
    .ite (fun _ => .pure _) fun hlip => ?_)
  · exact loadUserDefined_does src hdump
  · exact loadTable_does src vf (used_of_validateAccess haccess) (not_not.1 hlip) (by simpa using hdump)

/-! ### Validation -/

/-- What `inactiveBuffer` finds. -/
theorem inactiveBuffer_isInactive (t : Nat)
    (hP : (s.registry t).doubleBuffered = false → (s.registry t).loadInProgress = none →
      P .badIndex) :
    wp (inactiveBuffer cfg t) (fun b s' => IsInactive cfg s t b ∧ s' = s) (Fails cfg P s) s := by
  unfold inactiveBuffer
  simp only [wp_bind, wp_get]
  split
  · rename_i hdouble
    exact ⟨.own hdouble, rfl⟩
  rename_i hsingle
  have hsingle : (s.registry t).doubleBuffered = false := by simpa using hsingle
  rw [wp_bind]
  refine loadBuffIndex_ok ?_ fun i hi hlt => ⟨.shared hsingle hi hlt, rfl⟩
  by_cases hlip : (s.registry t).loadInProgress = none
  · exact .inr fun _ _ => .inl (hP hsingle hlip)
  · exact Fails.index hsingle hlip

theorem fails_nullFunction : Fails cfg P s .nullFunction := by
  intro i hi
  cases hi

theorem validateInactive_does (vf : Bytes → Int) (t v : Nat)
    (hP : (s.registry t).doubleBuffered = false → (s.registry t).loadInProgress = none →
      P .badIndex) : Does cfg P (validateInactive cfg vf t v) s := by
  unfold validateInactive callValidation
  rw [Does, wp_bind]
  refine wp_imp (inactiveBuffer_isInactive t hP) fun b s₁ h₁ => ?_
  obtain ⟨hb, rfl⟩ := h₁
  simp only [wp_bind, wp_get]
  split
  · exact fails_nullFunction
  simp only [note, validationDone, modifyReg, wp_bind, wp_modify, wp_pure]
  -- the result is kept and the request taken back, whatever the function returned
  have hrest : ∀ s₂, Moves cfg P s₁ s₂ → Moves cfg P s₁
      ((s₂.setValidation v { s₂.validationResults v with
        result := vf ((s₁.buffers b).bytes.take (s₁.registry t).size)
        state := .performed }).setReg t { s₂.registry t with validateInactiveIndex := none }) := by
    intro s₂ hm
    exact hm.trans ((Moves.quiet (.result v _)).trans (.quiet (.requested t _ none)))
  unfold onlyIf
  split
  · rename_i hzero
    have hzero : vf ((s₁.buffers b).bytes.take (s₁.registry t).size) = 0 := by simpa using hzero
    have hmove := Move.passed hb
    refine hrest _ (Moves.quiet ?_)
    rw [hzero]
    exact hmove
  · exact hrest _ (Moves.quiet (.checked t b _))

theorem validateActive_does (vf : Bytes → Int) (t v : Nat) :
    Does cfg P (validateActive vf t v) s := by
  unfold validateActive callValidation
  simp only [Does, wp_bind, wp_get]
  split
  · exact fails_nullFunction
  · exact (Moves.quiet (.checked t _ _)).trans
      ((Moves.quiet (.result v _)).trans (.quiet (.requested t none _)))

/-- The validation of an inactive buffer that is there. -/
def InactiveThere (s : TblState) (h : Nat) : Prop :=
  (s.registry (s.handles h).regIndex).validateInactiveIndex ≠ none →
    (s.registry (s.handles h).regIndex).doubleBuffered = false →
    (s.registry (s.handles h).regIndex).loadInProgress ≠ none

theorem validate_does (app h : Nat) (vf : Bytes → Int) (hP : ¬InactiveThere s h → P .badIndex) :
    Does cfg P (validate cfg app h vf) s := by
  refine .get (.ite (fun _ => .pure _) fun _ => ?_)
  split
  · rename_i v hv
    refine validateInactive_does vf _ v fun hsingle hlip => hP fun hthere => ?_
    exact hthere (by simp [hv]) hsingle hlip
  · exact validateActive_does vf _ _
  · exact .pure _

/-- A validation that was made is no longer requested. -/
theorem validate_clears (app h : Nat) (vf : Bytes → Int) :
    wp (validate cfg app h vf) (fun status s' => status = .success → s'.handles = s.handles ∧
      (s'.registry (s.handles h).regIndex).validateInactiveIndex = none) (fun _ => True) s := by
  unfold validate
  simp only [wp_bind, wp_get]
  split
  · rename_i hrefused
    exact fun hok => absurd hok hrefused
  split
  · unfold validateInactive callValidation
    rw [wp_bind]
    refine wp_mono (inactiveBuffer_isInactive (P := fun _ => True) _ fun _ _ => trivial)
      (fun b s₁ h₁ => ?_) (fun _ _ => trivial)
    obtain ⟨-, rfl⟩ := h₁
    simp only [wp_bind, wp_get]
    split
    · trivial
    simp only [note, validationDone, modifyReg, onlyIf, wp_bind, wp_modify, wp_pure]
    split
    · simp [modifyBuff]
    · simp
  · rename_i hnone _
    unfold validateActive callValidation
    simp only [wp_bind, wp_get]
    split
    · trivial
    · simp [note, validationDone, modifyReg, hnone]
  · intro hok
    cases hok

/-- A pass of the loop of `CFE_TBL_Manage`. After the validation of the inactive buffer
there is no other one, so only the first pass can miss its buffer. -/
theorem manageLoop_does (app h : Nat) (vf : Nat → Bytes → Int) (n : Nat) :
    ∀ s : TblState, (¬((s.registry (s.handles h).regIndex).loadPending = true ∨
      InactiveThere s h) → P .badIndex) → Does cfg P (manageLoop cfg app h vf n) s := by
  induction n with
  | zero =>
    intro s _ i hi
    cases hi
  | succ n ih =>
    intro s hP
    refine .get (.ite (fun hstatus => ?_) fun _ => .ite (fun _ => ?_) fun _ => .pure _)
    · have hidle : (s.registry (s.handles h).regIndex).loadPending = false := by
        by_contra hpending
        simp only [Bool.not_eq_false] at hpending
        simp only [getStatus, hpending, validateAccess, validateHandle, checkAccessRights] at hstatus
        grind
      have hdoes : Does cfg P (validate cfg app h (vf n)) s := by
        refine validate_does app h (vf n) fun hgone => hP ?_
        rintro (hpending | hthere)
        · simp [hidle] at hpending
        · exact hgone hthere
      rw [Does, wp_bind]
      refine wp_mono (wp_and hdoes (validate_clears app h (vf n)))
        (fun status s₁ h₁ => ?_) (fun _ he => he.1)
      split
      · exact h₁.1
      rename_i hok
      obtain ⟨hhandles, hnone⟩ := h₁.2 (not_not.1 hok)
      refine (ih s₁ fun hgone => absurd (.inr fun hsome => ?_) hgone).after h₁.1
      rw [hhandles] at hsome
      exact absurd hnone hsome
    · exact (update_does app h).bind fun _ _ => .pure _

/-! ### Ground commands -/

theorem loadCmd_does (f : TableFile)
    (hP : ∀ std hdr t b s₁, readHeaders f = .ok (std, hdr) →
      f.complete hdr.numBytes = false ∨ f.hasExtraByte hdr.numBytes = true →
      findTableInRegistry cfg s hdr.tableName = some t →
      (getWorkingBuffer cfg t false).run s = .ok (.ok b, s₁) → (s₁.buffers b).validated = true →
      P .partialLoad) :
    Does cfg P (loadCmd cfg f) s := by
  refine .get (.ite (fun _ => .pure _) fun _ => ?_)
  split
  · exact .pure _
  rename_i std hdr hheaders
  split
  · exact .pure _
  rename_i t ht
  refine .ite (fun _ => .pure _) fun hcond => .ite (fun _ => .pure _) fun _ => ?_
  simp only [Bool.or_eq_true, not_or, Bool.not_eq_true] at hcond
  have hrun : wp (getWorkingBuffer cfg t false)
      (fun r s₁ => (getWorkingBuffer cfg t false).run s = .ok (r, s₁)) (fun _ => True) s :=
    wp_intro (fun _ _ h => h) fun _ => trivial
  rw [Does, wp_bind]
  refine wp_mono (wp_and (getWorkingBuffer_working (fun _ => Fails.of_isWrite) Fails.index) hrun)
    (fun r s₁ h₁ => ?_) (fun _ he => he.1)
  obtain ⟨h₁, hget⟩ := h₁
  cases r with
  | error => exact Moves.quiet (.groundRefused h₁)
  | ok b =>
    simp only [readIntoBuffer, wp_bind]
    refine wp_mono (writeBytes_touches (Set.mem_singleton b) _ _ s₁) (fun _ s₂ h₂ => ?_)
      (fun _ => Fails.of_isWrite)
    have hpartial : f.complete hdr.numBytes = false ∨ f.hasExtraByte hdr.numBytes = true →
        Moves cfg P s s₂ := by
      intro hcause
      cases hflag : (s₁.buffers b).validated with
      | true =>
        exact .labelled (.groundPartial (owned_of_findTable ht) hcond.1 hcond.2 h₁ h₂)
          (hP std hdr t b s₁ hheaders hcause ht hget hflag)
      | false =>
        -- a buffer that does not count as validated is loaded, as far as the flags go
        have hsame : s₂.setBuff b (s₂.buffers b) = s₂ := by
          simp [TblState.setBuff]
        rw [← hsame]
        refine Moves.quiet (.groundLoaded (owned_of_findTable ht) hcond.1 hcond.2 h₁ h₂ rfl rfl ?_)
        rw [h₂.validated, hflag]
        exact fun _ => rfl
    split
    · rename_i hcomplete
      exact hpartial (.inl (by simpa using hcomplete))
    split
    · rename_i hextra
      exact hpartial (.inr hextra)
    refine Moves.quiet (.groundLoaded (owned_of_findTable ht) hcond.1 hcond.2 h₁ h₂ rfl rfl ?_)
    obtain ⟨lip, hregistry⟩ := h₁.registry
    simp [h₂.registry, hregistry]

/-- What `selectBuffer` finds for a ground command: nothing has been changed. -/
theorem selectBuffer_same (t : Nat) (sel : BufferSelect) (forDump : Bool) :
    wp (selectBuffer cfg t sel forDump) (fun _ s' => s' = s) (Fails cfg P s) s := by
  unfold selectBuffer
  simp only [wp_bind, wp_get]
  split
  · rfl
  · split
    · rfl
    rename_i hcond
    simp only [Bool.and_eq_true, Bool.or_eq_true, Bool.not_eq_eq_eq_not, Bool.not_true,
      beq_iff_eq, not_and, not_or] at hcond
    refine wp_seq (inactiveBuffer_isInactive t fun hsingle hlip => ?_) fun _ _ h => h.2
    exact absurd hlip (hcond hsingle).1
  · rfl

theorem dumpInto_does {i d : Nat} (source : BufRef) (tableName dumpFilename : List Char)
    (now : Nat × Nat) (hfree : findFreeLoadBuff cfg s = some i) (hd : findFreeDump cfg s = some d) :
    Does cfg P (dumpInto eds t source tableName dumpFilename now i d) s := by
  have hi := (not_taken_of_findFree cfg hfree).2
  have hmem : BufRef.shared i ∈ ({.shared i} : Set BufRef) := rfl
  have hstate : (s.dumpControlBlocks d).state = .free := by
    have hfound := find?_some hd
    simpa using hfound
  let c : DumpControl := ⟨(s.dumpControlBlocks d).state, (s.registry t).size, i, t, tableName⟩
  let v : LoadBuff := { s.buffers (.shared i) with taken := true, dataSource := dumpFilename }
  unfold dumpInto
  simp only [modifyBuff, Does, wp_bind, wp_get, wp_modify]
  refine wp_mono (encodeFromMemory_touches eds (.shared i) _ t
    ((s.setDump d c).setBuff (.shared i) v)) (fun status s₁ h₁ => ?_) (fun _ => Fails.of_isWrite)
  split
  · refine Moves.quiet (.dumpFailed hfree hd ?_ (h₁.borrow hmem rfl rfl hi.symm rfl rfl))
    exact hstate
  simp only [wp_bind, wp_modify]
  -- the control block is set last, but nothing in between looks at it
  have hblock : s₁.dumpControlBlocks d = c := by
    rw [h₁.dumps]
    simp
  have hmarked : Touched {.shared i}
      (s.setBuff (.shared i) { s.buffers (.shared i) with taken := true })
      (s.setBuff (.shared i) v) := by
    rw [← s.setBuff_setBuff (.shared i) { s.buffers (.shared i) with taken := true } v]
    refine .setBuff hmem ?_ ?_ ?_ <;> simp [v]
  have hfilled : Touched {.shared i} ((s.setDump d c).setBuff (.shared i) v) (s₁.setBuff (.shared i)
        { s₁.buffers (.shared i) with
          edsContentId := (s.buffers source).edsContentId
          fileCreateTimeSecs := now.1
          fileCreateTimeSubSecs := now.2 }) := h₁.trans (.setBuff hmem rfl rfl rfl)
  have hclosed := hfilled.setDump d { c with state := .performed }
  have hidem : ((s.setDump d c).setBuff (.shared i) v).setDump d { c with state := .performed } =
      (s.setBuff (.shared i) v).setDump d { c with state := .performed } :=
    (s.setBuff (.shared i) v).setDump_setDump d c _
  rw [hidem] at hclosed
  simp only [TblState.setBuff_dumpControlBlocks, hblock]
  exact Moves.quiet (.dumped hfree hd rfl rfl ((hmarked.setDump d _).trans hclosed))

theorem dumpCmd_does (tableName : List Char) (sel : BufferSelect) (dumpFilename : List Char)
    (now : Nat × Nat) : Does cfg P (dumpCmd cfg eds tableName sel dumpFilename now) s := by
  refine .get ?_
  split
  · exact .pure _
  rename_i t ht
  rw [Does, wp_bind]
  refine wp_imp (selectBuffer_same t sel true) fun b s₁ h₁ => ?_
  subst h₁
  cases b with
  | none => exact .refl
  | some source =>
    refine Does.ite (fun _ => .pure _) fun _ => ?_
    split
    · rename_i hi hd
      exact dumpInto_does source _ _ _ hi hd
    · exact .refl

theorem validateCmd_does (tableName : List Char) (sel : BufferSelect) :
    Does cfg P (validateCmd cfg tableName sel) s := by
  refine .get ?_
  split
  · exact .pure _
  rename_i t ht
  rw [Does, wp_bind]
  refine wp_imp (selectBuffer_same t sel false) fun b s₁ h₁ => ?_
  subst h₁
  cases b with
  | none => exact .refl
  | some b =>
    refine Does.ite (fun _ => .pure _) fun _ => ?_
    split
    · exact .refl
    rename_i v hv
    refine Does.bind (x := modify _) (Moves.quiet (.result v _)) fun _ s₂ => ?_
    refine Does.bind (.onlyIf fun _ => ?_) fun _ _ => .pure _
    split
    · exact Moves.quiet (.requested t _ _)
    · exact Moves.quiet (.requested t _ _)

theorem activateCmd_does (tableName : List Char) : Does cfg P (activateCmd cfg tableName) s := by
  refine .get ?_
  split
  · exact .pure _
  rename_i t ht
  refine .ite (fun _ => .pure _) fun hcond => ?_
  simp only [Bool.or_eq_true, beq_iff_eq, not_or] at hcond
  rw [Does, wp_bind]
  refine wp_imp (inactiveBuffer_isInactive t fun _ hlip => absurd hlip hcond.2) fun b s₁ h₁ => ?_
  obtain ⟨hb, rfl⟩ := h₁
  refine Does.ite (fun hvalidated => ?_) fun _ => .pure _
  exact Moves.quiet (.activate hcond.2 hb hvalidated)

theorem abortLoad_does (hlip : (s.registry t).loadInProgress ≠ none) :
    Does cfg P (abortLoad cfg t) s := by
  unfold abortLoad onlyIf
  simp only [Does, wp_bind, wp_get]
  split
  · rename_i hsingle
    have hsingle : (s.registry t).doubleBuffered = false := by simpa using hsingle
    rw [wp_bind]
    refine loadBuffIndex_ok (Fails.index hsingle hlip) fun i hi hlt => ?_
    exact Moves.quiet (.abortedShared hsingle hi hlt)
  · rename_i hdouble
    exact Moves.quiet (.aborted (by simpa using hdouble))

theorem abortLoadCmd_does (tableName : List Char) : Does cfg P (abortLoadCmd cfg tableName) s := by
  refine .get ?_
  split
  · exact .pure _
  · refine .ite (fun hcond => ?_) fun _ => .pure _
    simp only [Bool.and_eq_true, bne_iff_ne] at hcond
    exact (abortLoad_does hcond.1).bind fun _ _ => .pure _

theorem finishDump_does (d : Nat)
    (hP : (s.dumpControlBlocks d).state = .performed → P .dumpClosed ∧ P .badIndex) :
    Does cfg P (finishDump cfg d) s := by
  refine .get (.onlyIf fun hperformed => ?_)
  obtain ⟨hclosed, hbad⟩ := hP (by simpa using hperformed)
  rw [Does, wp_bind]
  refine loadBuffIndex_ok (.inr fun _ _ => .inl hbad) fun i hi _ => ?_
  exact Moves.labelled (.dumpClosed hi) hclosed

theorem reportValidation_does : Does cfg P (reportValidation cfg) s := by
  refine .get ?_
  split
  · exact .pure _
  · exact Moves.quiet (.result _ _)

theorem housekeepingCmd_does
    (hP : (∃ d < cfg.maxSimultaneousLoads, (s.dumpControlBlocks d).state = .performed) →
      P .dumpClosed ∧ P .badIndex) : Does cfg P (housekeepingCmd cfg) s := by
  unfold housekeepingCmd
  by_cases hsome : ∃ d < cfg.maxSimultaneousLoads, (s.dumpControlBlocks d).state = .performed
  · refine reportValidation_does.bind fun _ _ => Does.bind (.forM fun d _ _ => ?_) fun _ _ => .pure _
    exact finishDump_does d fun _ => hP hsome
  -- without a dump the loop does nothing
  · have hblocks : wp (reportValidation cfg)
        (fun _ s' => s'.dumpControlBlocks = s.dumpControlBlocks) (fun _ => True) s := by
      unfold reportValidation
      simp only [wp_bind, wp_get]
      split <;> rfl
    have hreport : Does cfg P (reportValidation cfg) s := reportValidation_does
    rw [Does, wp_bind]
    refine wp_mono (wp_and hreport hblocks) (fun _ s₁ h₁ => ?_) (fun _ he => he.1)
    refine wp_seq (wp_forM (I := fun s' => s' = s₁) (fun d hd s₂ h₂ => ?_) rfl) fun _ _ h₂ => h₂ ▸ h₁.1
    subst h₂
    have hfree : (s₂.dumpControlBlocks d).state = .free := by
      cases hstate : (s₂.dumpControlBlocks d).state with
      | free => rfl
      | performed => exact absurd ⟨d, mem_range.1 hd, h₁.2 ▸ hstate⟩ hsome
    simp [finishDump, onlyIf, hfree]

/-! ### Clean-up -/

/-- The dumps of the tables of an application are dropped. -/
theorem dropDumps_does (app : Nat)
    (hP : (∃ d < cfg.maxSimultaneousLoads, (s.dumpControlBlocks d).state = .performed ∧
      (s.registry (s.dumpControlBlocks d).regIndex).ownerAppId = some app) → P .dumpDropped) :
    wp (forM (List.range cfg.maxSimultaneousLoads) (dropDump app))
      (fun _ s' => Moves cfg P s s' ∧ s'.handles = s.handles ∧ s'.registry = s.registry)
      (Fails cfg P s) s := by
  by_cases hsome : ∃ d < cfg.maxSimultaneousLoads, (s.dumpControlBlocks d).state = .performed ∧
      (s.registry (s.dumpControlBlocks d).regIndex).ownerAppId = some app
  · refine wp_forM (fun d _ s₁ h₁ => ?_) ⟨.refl, rfl, rfl⟩
    unfold dropDump onlyIf
    simp only [wp_bind, wp_get]
    split
    · exact ⟨h₁.1.trans (.labelled (.dumpDropped d) (hP hsome)), h₁.2⟩
    · exact h₁
  refine wp_imp (wp_forM (I := fun s' => s' = s) (fun d hd s₁ h₁ => ?_) rfl)
    fun _ _ h₁ => h₁ ▸ ⟨.refl, rfl, rfl⟩
  subst h₁
  have hnot : ((s₁.dumpControlBlocks d).state != .free &&
      (s₁.registry (s₁.dumpControlBlocks d).regIndex).ownerAppId == some app) = false := by
    by_contra hdrop
    simp only [Bool.not_eq_false, Bool.and_eq_true, bne_iff_ne, beq_iff_eq] at hdrop
    refine hsome ⟨d, mem_range.1 hd, ?_, hdrop.2⟩
    cases hstate : (s₁.dumpControlBlocks d).state with
    | free => exact absurd hstate hdrop.1
    | performed => rfl
  simp only [dropDump, onlyIf, wp_bind, wp_get, hnot, Bool.false_eq_true, if_false, wp_pure]

theorem removeAccessLink_handles (h : Nat) :
    wp (removeAccessLink cfg h) (fun _ s' => s'.handles = (unlinked s h).handles)
      (fun _ => True) s := by
  unfold removeAccessLink
  change wp (onlyIf _ (freeBuffers cfg (s.handles h).regIndex)) _ _ (unlinked s h)
  unfold onlyIf
  split
  · refine wp_imp (freeBuffers_emptied fun _ _ => .inr trivial) fun _ s' h' => ?_
    rcases h' with ⟨-, rfl⟩ | ⟨i, -, -, -, rfl⟩
    · exact handles_emptied _ _
    · exact handles_emptied _ _
  · rfl

/-- A handle of the application is dropped; the others stay with theirs. -/
theorem dropHandle_does (app h : Nat) (hP : (s.handles h).appId = some app → P (.unlink h)) :
    wp (dropHandle cfg app h) (fun _ s' => Moves cfg P s s' ∧
        ∀ a, (s'.handles a).appId = some app → (s.handles a).appId = some app)
      (Fails cfg P s) s := by
  unfold dropHandle onlyIf
  simp only [wp_bind, wp_get]
  split
  · rename_i hcond
    simp only [Bool.and_eq_true, beq_iff_eq] at hcond
    obtain ⟨happ, hused⟩ := hcond
    refine wp_seq (disown_does app hused) fun _ s₁ h₁ => ?_
    have hremove : Does cfg P (removeAccessLink cfg h) s₁ :=
      removeAccessLink_does (h₁.2 ▸ hused) (hP happ)
    rw [wp_bind]
    refine wp_mono (wp_and hremove (removeAccessLink_handles h)) (fun _ s₂ h₂ => ?_)
      (fun _ he => he.1.after h₁.1)
    obtain ⟨hm₂, hhandles⟩ := h₂
    have hunused : (s₂.handles h).usedFlag = false := by
      rw [hhandles]
      simp
    refine ⟨(h₁.1.trans hm₂).trans (.quiet (.forgotten hunused)), fun a ha => ?_⟩
    by_cases hah : a = h
    · subst hah
      exact happ
    · simpa [hah, hhandles, h₁.2] using ha
  · exact ⟨.refl, fun _ h => h⟩

theorem cleanUpApp_does (app : Nat)
    (hdump : (∃ d < cfg.maxSimultaneousLoads, (s.dumpControlBlocks d).state = .performed ∧
      (s.registry (s.dumpControlBlocks d).regIndex).ownerAppId = some app) → P .dumpDropped)
    (hP : ∀ h, (s.handles h).appId = some app → P (.unlink h)) :
    Does cfg P (cleanUpApp cfg app) s := by
  unfold cleanUpApp
  rw [Does, wp_bind]
  refine wp_imp (dropDumps_does app hdump) fun _ s₁ h₁ => ?_
  have hloop : wp (forM (List.range cfg.maxNumHandles) (dropHandle cfg app))
      (fun _ s' => Moves cfg P s s' ∧
        ∀ a, (s'.handles a).appId = some app → (s.handles a).appId = some app)
      (Fails cfg P s) s₁ := by
    refine wp_forM (fun h _ s₂ h₂ => ?_) ⟨h₁.1, fun a ha => h₁.2.1 ▸ ha⟩
    refine wp_mono (dropHandle_does app h fun happ => hP h (h₂.2 h happ)) (fun _ s₃ h₃ => ?_)
      (fun _ he => he.after h₂.1)
    exact ⟨h₂.1.trans h₃.1, fun a ha => h₂.2 a (h₃.2 a ha)⟩
  exact wp_imp hloop fun _ _ h₂ => h₂.1

/-! ## Events -/

/-- The labels of the moves an event can make. -/
def Event.Allows (cfg : TblConfig) (s : TblState) : Event → Label → Prop
  | .unregister _ h, .unlink a => a = h
  | .getAddress _ h, .lock a => a = h ∧
    (s.handles h).bufferIndex ≠ (s.registry (s.handles h).regIndex).activeBufferIndex
  | .releaseAddress _ h, .lock a => a = h
  | .validate _ h _, .badIndex => ¬InactiveThere s h
  | .manage _ h _, .badIndex =>
    ¬((s.registry (s.handles h).regIndex).loadPending = true ∨ InactiveThere s h)
  | .loadCmd f, .partialLoad => ∃ std hdr t b s₁, readHeaders f = .ok (std, hdr) ∧
    (f.complete hdr.numBytes = false ∨ f.hasExtraByte hdr.numBytes = true) ∧
    findTableInRegistry cfg s hdr.tableName = some t ∧
    (getWorkingBuffer cfg t false).run s = .ok (.ok b, s₁) ∧ (s₁.buffers b).validated = true
  | .housekeepingCmd, .dumpClosed =>
    ∃ d < cfg.maxSimultaneousLoads, (s.dumpControlBlocks d).state = .performed
  | .housekeepingCmd, .badIndex =>
    ∃ d < cfg.maxSimultaneousLoads, (s.dumpControlBlocks d).state = .performed
  | .cleanUpApp app, .dumpDropped =>
    ∃ d < cfg.maxSimultaneousLoads, (s.dumpControlBlocks d).state = .performed ∧
      (s.registry (s.dumpControlBlocks d).regIndex).ownerAppId = some app
  | .cleanUpApp app, .unlink a => (s.handles a).appId = some app
  | _, _ => False

/-- An event makes moves, and only with the labels it allows. -/
theorem Event.does (e : Event) : Does cfg (e.Allows cfg s) (e.run cfg eds) s := by
  cases e with
  | register => exact (register_does _ _ _ _ _ _ _).ignore
  | share => exact (share_does _ _).ignore
  | unregister app h =>
    refine Does.ignore (unregister_does app h ?_)
    exact rfl
  | load => exact (load_does _ _ _ _).ignore
  | update => exact (update_does _ _).ignore
  | getAddress app h => exact (getAddress_does app h fun hindex => ⟨rfl, hindex⟩).ignore
  | releaseAddress app h =>
    refine Does.ignore (releaseAddress_does app h ?_)
    exact rfl
  | validate app h vf => exact (validate_does app h vf fun hgone => hgone).ignore
  | manage app h vf => exact (manageLoop_does app h vf 3 s fun hgone => hgone).ignore
  | loadCmd f =>
    exact (loadCmd_does f fun std hdr t b s₁ hheaders hstops hfound hget hflag =>
      ⟨std, hdr, t, b, s₁, hheaders, hstops, hfound, hget, hflag⟩).ignore
  | dumpCmd => exact (dumpCmd_does _ _ _ _).ignore
  | validateCmd => exact (validateCmd_does _ _).ignore
  | activateCmd => exact (activateCmd_does _).ignore
  | abortLoadCmd => exact (abortLoadCmd_does _).ignore
  | housekeepingCmd => exact (housekeepingCmd_does fun hsome => ⟨hsome, hsome⟩).ignore
  | cleanUpApp app => exact cleanUpApp_does app (fun hsome => hsome) fun _ ha => ha

end Calls

end CfsEds.Tbl
