import CfsEds.Lib.Memory
import CfsEds.Lib.RingLog
import Mathlib.Data.Nat.Bitwise

/-!
# The exception log of the PSP

`cfe_psp_exceptionstorage.c`: exceptions are captured into a ring of entries.
`CFE_PSP_Exception_GetNextContextBuffer` hands out the next entry, the platform fills it, and
`CFE_PSP_Exception_WriteComplete` makes it visible. `CFE_PSP_Exception_GetSummary` reports the
oldest exception that was not reported, with an ID by which
`CFE_PSP_Exception_CopyContext` finds its context later.

`WriteComplete` also expires the entry after the one written, by a context ID of zero. When
the ring is full this is the oldest entry that was not reported, which then is reported with
the ID zero. And a context is gone one capture before its entry is used again.

A `Recorder` is the storage with the lists of what was captured and reported so far.
-/

namespace CfsEds.Psp

open CfsEds.Lib.Memory CfsEds.Lib.RingLog List Function Option

/-- `CFE_PSP_MAX_EXCEPTION_ENTRIES` is a power of two, as its predecessor is used as a mask. -/
structure ExceptionConfig where
  bits : Nat
  hbits : bits ≤ 16

def ExceptionConfig.maxExceptionEntries (cfg : ExceptionConfig) : Nat := 2 ^ cfg.bits

/-- `CFE_PSP_EXCEPTION_ID_BASE` -/
def exceptionIdBase : Nat := (0x10 + 0x101) * 2 ^ 16

/-- `CFE_PSP_Exception_LogData_t` -/
structure LogData where
  contextId : Nat
  contextSize : Nat
  sysTaskId : Nat
  contextInfo : List (BitVec 8)

/-- What the platform fills in. -/
structure Context where
  contextSize : Nat
  sysTaskId : Nat
  contextInfo : List (BitVec 8)

/-- `CFE_PSP_ExceptionStorage_t` -/
structure Storage where
  numWritten : Nat
  numRead : Nat
  entries : Nat → LogData

variable (cfg : ExceptionConfig)

/-- `CFE_PSP_Exception_GetBuffer` -/
def getBuffer (seq : Nat) : Nat := seq &&& (cfg.maxExceptionEntries - 1)

/-- `CFE_PSP_Exception_GetCount` -/
def getCount (s : Storage) : Nat := uint32 (s.numWritten + 2 ^ 32 - s.numRead)

/-- `CFE_PSP_Exception_GetNextContextBuffer`: the entry, if there is one, and the storage with
it cleared. -/
def getNextContextBuffer (s : Storage) : Option (Nat × Storage) :=
  if getCount s ≥ cfg.maxExceptionEntries then none
  else
    let buffer := getBuffer cfg s.numWritten
    let contextId := exceptionIdBase + (s.numWritten &&& 0xFFFF)
    some (buffer, { s with entries := Function.update s.entries buffer ⟨contextId, 0, 0, []⟩ })

/-- The platform fills an entry in. -/
def fillBuffer (s : Storage) (buffer : Nat) (context : Context) : Storage :=
  { s with
    entries := Function.update s.entries buffer
      ⟨(s.entries buffer).contextId, context.contextSize, context.sysTaskId, context.contextInfo⟩ }

/-- `CFE_PSP_Exception_WriteComplete` -/
def writeComplete (s : Storage) : Storage :=
  let numWritten := uint32 (s.numWritten + 1)
  let buffer := getBuffer cfg numWritten
  { s with
    numWritten := numWritten
    entries := Function.update s.entries buffer { s.entries buffer with contextId := 0 } }

/-- `OS_TaskFindIdBySystemData` and `CFE_PSP_ExceptionGetSummary_Impl` -/
structure Platform where
  taskFindIdBySystemData : Nat → Option Nat
  exceptionGetSummaryImpl : LogData → Option (List Char)

/-- What `CFE_PSP_Exception_GetSummary` gives to its caller. -/
structure Summary where
  contextLogId : Nat
  taskId : Nat
  reason : List Char
  deriving DecidableEq

def summaryOf (platform : Platform) (buffer : LogData) : Summary where
  contextLogId := buffer.contextId
  taskId := (platform.taskFindIdBySystemData buffer.sysTaskId).getD 0
  reason := (platform.exceptionGetSummaryImpl buffer).getD []

/-- `CFE_PSP_Exception_GetSummary`; `none` is `CFE_PSP_NO_EXCEPTION_DATA`. -/
def getSummary (platform : Platform) (s : Storage) : Option (Summary × Storage) :=
  if getCount s = 0 then none
  else some (summaryOf platform (s.entries (getBuffer cfg s.numRead)),
    { s with numRead := uint32 (s.numRead + 1) })

/-- `CFE_PSP_Exception_CopyContext`: the bytes copied, or `CFE_PSP_NO_EXCEPTION_DATA`. -/
def copyContext (s : Storage) (contextLogId contextSize : Nat) : Option (List (BitVec 8)) :=
  let seqId := uint32 (contextLogId + 2 ^ 32 - exceptionIdBase)
  if seqId > 0xFFFF then none
  else
    let buffer := s.entries (getBuffer cfg seqId)
    if buffer.contextId ≠ contextLogId then none
    else some (buffer.contextInfo.take
      (if contextSize ≥ buffer.contextSize then buffer.contextSize else contextSize))

/-! ## Runs -/

/-- The storage, the capture that is under way, and what was captured and reported so far. -/
structure Recorder where
  storage : Storage
  filling : Option Context
  captured : List Context
  reported : List Summary

inductive LogEvent where
  /-- an exception occurs, and its entry is filled in -/
  | begin (context : Context)
  /-- the entry becomes visible -/
  | complete
  | getSummary

/-- An exception that finds no entry is lost. -/
def Recorder.capture (s : Recorder) (context : Context) : Recorder :=
  (getNextContextBuffer cfg s.storage).elim s fun r =>
    { s with storage := fillBuffer r.2 r.1 context, filling := some context }

def Recorder.publish (s : Recorder) (context : Context) : Recorder :=
  { s with
    storage := writeComplete cfg s.storage
    filling := none
    captured := s.captured ++ [context] }

def Recorder.report (platform : Platform) (s : Recorder) : Recorder :=
  (getSummary cfg platform s.storage).elim s fun r =>
    { s with storage := r.2, reported := s.reported ++ [r.1] }

/-- One event; `none` when it cannot happen. -/
def Recorder.step (platform : Platform) (s : Recorder) : LogEvent → Option Recorder
  | .begin context => if s.filling.isSome then none else some (s.capture cfg context)
  | .complete => s.filling.map (s.publish cfg)
  | .getSummary => some (s.report cfg platform)

/-- The storage is cleared at power-on. -/
def Recorder.init : Recorder := ⟨⟨0, 0, fun _ => ⟨0, 0, 0, []⟩⟩, none, [], []⟩

/-- The states that can be reached. -/
inductive LogRun (platform : Platform) : Recorder → Prop where
  | init : LogRun platform Recorder.init
  | step {s s' : Recorder} {e : LogEvent} (hrun : LogRun platform s)
      (hstep : s.step cfg platform e = some s') : LogRun platform s'

/-- A capture is completed only while two entries are left. -/
def Spacious (s : Recorder) : LogEvent → Prop
  | .complete => getCount s.storage + 1 < cfg.maxExceptionEntries
  | _ => True

/-- The states that can be reached with such captures only. -/
inductive SpaciousRun (platform : Platform) : Recorder → Prop where
  | init : SpaciousRun platform Recorder.init
  | step {s s' : Recorder} {e : LogEvent} (hrun : SpaciousRun platform s)
      (hspacious : Spacious cfg s e) (hstep : s.step cfg platform e = some s') :
      SpaciousRun platform s'

/-- The ID of the exception captured after `k` others. -/
def contextIdOf (k : Nat) : Nat := exceptionIdBase + k % 2 ^ 16

/-- Its entry. -/
def entryOf (k : Nat) (context : Context) : LogData :=
  ⟨contextIdOf k, context.contextSize, context.sysTaskId, context.contextInfo⟩

variable {cfg} {platform : Platform} {s s' : Recorder}

theorem getBuffer_eq (seq : Nat) : getBuffer cfg seq = seq % cfg.maxExceptionEntries :=
  Nat.and_two_pow_sub_one_eq_mod seq cfg.bits

/-- The entries of a counter that has wrapped around. -/
theorem getBuffer_uint32 (k : Nat) : getBuffer cfg (uint32 k) = k % cfg.maxExceptionEntries := by
  have hdvd : cfg.maxExceptionEntries ∣ 2 ^ 32 :=
    Nat.pow_dvd_pow 2 (Nat.le_trans cfg.hbits (by decide))
  rw [getBuffer_eq]
  exact Nat.mod_mod_of_dvd k hdvd

theorem contextId_uint32 (k : Nat) : exceptionIdBase + (uint32 k &&& 0xFFFF) = contextIdOf k := by
  have hmask : 0xFFFF = 2 ^ 16 - 1 := rfl
  rw [hmask, Nat.and_two_pow_sub_one_eq_mod, contextIdOf]
  exact congrArg _ (Nat.mod_mod_of_dvd k (by decide))

theorem maxExceptionEntries_pos : 0 < cfg.maxExceptionEntries := Nat.two_pow_pos _

theorem maxExceptionEntries_le : cfg.maxExceptionEntries ≤ 2 ^ 16 :=
  Nat.pow_le_pow_right (by decide) cfg.hbits

theorem contextIdOf_ne_zero (k : Nat) : contextIdOf k ≠ 0 := by
  unfold contextIdOf exceptionIdBase
  omega

/-- The IDs of exceptions that are not far apart differ. -/
theorem contextIdOf_ne {j k : Nat} (hjk : j < k) (hnear : k < j + 2 ^ 16) :
    contextIdOf j ≠ contextIdOf k := by
  unfold contextIdOf
  omega

/-! ## The invariant -/

/-- The counters are the lengths of the lists, and of the captures the last ones, one less
than there are entries, are in their entries. The entry for the next capture is the one of
the capture under way, or has expired. -/
structure LogInv (cfg : ExceptionConfig) (s : Recorder) : Prop where
  written : s.storage.numWritten = uint32 s.captured.length
  read : s.storage.numRead = uint32 s.reported.length
  order : s.reported.length ≤ s.captured.length
  room : s.captured.length + (if s.filling.isSome then 1 else 0) ≤
    s.reported.length + cfg.maxExceptionEntries
  kept : ∀ k context, s.captured[k]? = some context →
    s.captured.length < k + cfg.maxExceptionEntries →
    s.storage.entries (k % cfg.maxExceptionEntries) = entryOf k context
  filled : ∀ context, s.filling = some context →
    s.storage.entries (s.captured.length % cfg.maxExceptionEntries) =
      entryOf s.captured.length context
  expired : s.filling = none →
    (s.storage.entries (s.captured.length % cfg.maxExceptionEntries)).contextId = 0

namespace LogInv

theorem init : LogInv cfg Recorder.init where
  written := rfl
  read := rfl
  order := Nat.le_refl 0
  room := Nat.zero_le _
  kept := nofun
  filled := nofun
  expired := fun _ => rfl

/-- The difference of the counters is the number of exceptions not reported. -/
theorem count (h : LogInv cfg s) : getCount s.storage = s.captured.length - s.reported.length := by
  have horder := h.order
  have hroom := h.room
  have hmax : cfg.maxExceptionEntries ≤ 2 ^ 16 := maxExceptionEntries_le
  rw [getCount, h.written, h.read]
  unfold uint32
  split at hroom <;> omega

/-- An entry is handed out and filled in. -/
theorem begin (h : LogInv cfg s) {context : Context} {buffer : Nat} {storage : Storage}
    (hnext : getNextContextBuffer cfg s.storage = some (buffer, storage)) :
    LogInv cfg { s with storage := fillBuffer storage buffer context, filling := some context } := by
  unfold getNextContextBuffer at hnext
  split at hnext
  · cases hnext
  rename_i hspace
  rw [h.count] at hspace
  obtain ⟨rfl, rfl⟩ := Prod.mk.inj (Option.some.inj hnext)
  rw [h.written, getBuffer_uint32, contextId_uint32]
  refine ⟨rfl, h.read, h.order, ?_, ?_, ?_, nofun⟩
  · simp only [isSome_some, if_true]
    omega
  · intro k context' hk hkept
    have hlt : k < s.captured.length := (List.getElem?_eq_some_iff.mp hk).1
    have hne := mod_ne_of_lt hlt hkept
    unfold fillBuffer
    dsimp only
    rw [update_of_ne hne, update_of_ne hne]
    exact h.kept k context' hk hkept
  · intro context' hcontext
    cases hcontext
    unfold fillBuffer
    dsimp only
    rw [update_self, update_self]
    rfl

/-- A capture becomes visible. -/
theorem complete (h : LogInv cfg s) {context : Context} (hfilling : s.filling = some context) :
    LogInv cfg (s.publish cfg context) := by
  have horder := h.order
  have hroom := h.room
  rw [hfilling, isSome_some, if_pos rfl] at hroom
  have hlength : (s.captured ++ [context]).length = s.captured.length + 1 := length_append
  have hwritten : uint32 (s.storage.numWritten + 1) = uint32 (s.captured.length + 1) := by
    rw [h.written]
    unfold uint32
    omega
  have hentries : (writeComplete cfg s.storage).entries = update s.storage.entries
      ((s.captured.length + 1) % cfg.maxExceptionEntries)
      { s.storage.entries ((s.captured.length + 1) % cfg.maxExceptionEntries) with
        contextId := 0 } := by
    unfold writeComplete
    dsimp only
    rw [hwritten, getBuffer_uint32]
  refine ⟨?_, h.read, ?_, ?_, ?_, nofun, ?_⟩
  · unfold Recorder.publish
    rw [hlength]
    exact hwritten
  · unfold Recorder.publish
    rw [hlength]
    exact Nat.le_succ_of_le horder
  · unfold Recorder.publish
    rw [hlength]
    exact hroom
  · intro k context' hk hkept
    unfold Recorder.publish at hk hkept ⊢
    rw [hlength] at hkept
    have hlt : k < s.captured.length + 1 := by
      rw [← hlength]
      exact (List.getElem?_eq_some_iff.mp hk).1
    rw [hentries, update_of_ne (mod_ne_of_lt hlt hkept)]
    -- the capture that was under way, or an earlier one
    rcases Nat.lt_succ_iff_lt_or_eq.mp hlt with hbefore | rfl
    · rw [getElem?_append_left hbefore] at hk
      exact h.kept k context' hk (by omega)
    · rw [getElem?_concat_length] at hk
      cases hk
      exact h.filled context hfilling
  · intro _
    unfold Recorder.publish
    rw [hlength, hentries, update_self]

/-- An exception is reported. -/
theorem getSummary (h : LogInv cfg s) {summary : Summary} {storage : Storage}
    (hsummary : Psp.getSummary cfg platform s.storage = some (summary, storage)) :
    LogInv cfg { s with storage := storage, reported := s.reported ++ [summary] } := by
  unfold Psp.getSummary at hsummary
  split at hsummary
  · cases hsummary
  rename_i hcount
  rw [h.count] at hcount
  obtain ⟨-, rfl⟩ := Prod.mk.inj (Option.some.inj hsummary)
  have hlength : (s.reported ++ [summary]).length = s.reported.length + 1 := length_append
  have hroom := h.room
  refine ⟨h.written, ?_, ?_, ?_, h.kept, h.filled, h.expired⟩
  · dsimp only
    rw [h.read, hlength]
    unfold uint32
    omega
  · dsimp only
    omega
  · dsimp only
    omega

/-- Every event keeps the invariant. -/
theorem step (h : LogInv cfg s) {e : LogEvent} (hstep : s.step cfg platform e = some s') :
    LogInv cfg s' := by
  cases e with
  | begin =>
    rw [Recorder.step] at hstep
    split at hstep
    · cases hstep
    cases hstep
    unfold Recorder.capture
    cases hnext : getNextContextBuffer cfg s.storage with
    | none => exact h
    | some => exact h.begin hnext
  | complete =>
    obtain ⟨context, hfilling, rfl⟩ := map_eq_some_iff.mp hstep
    exact h.complete hfilling
  | getSummary =>
    cases hstep
    unfold Recorder.report
    cases hsummary : Psp.getSummary cfg platform s.storage with
    | none => exact h
    | some => exact h.getSummary hsummary

theorem run (hrun : LogRun cfg platform s) : LogInv cfg s := by
  induction hrun with
  | init => exact LogInv.init
  | step _ hstep ih => exact ih.step hstep

end LogInv

/-! ## Contexts -/

/-- The part of a context that fits the caller's buffer. -/
def contextCopy (context : Context) (contextSize : Nat) : List (BitVec 8) :=
  context.contextInfo.take
    (if contextSize ≥ context.contextSize then context.contextSize else contextSize)

/-- The entry that `CFE_PSP_Exception_CopyContext` looks at. -/
theorem copyContext_eq (storage : Storage) (k contextSize : Nat) :
    copyContext cfg storage (contextIdOf k) contextSize =
      if (storage.entries (k % cfg.maxExceptionEntries)).contextId ≠ contextIdOf k then none
      else
        let buffer := storage.entries (k % cfg.maxExceptionEntries)
        some (buffer.contextInfo.take
          (if contextSize ≥ buffer.contextSize then buffer.contextSize else contextSize)) := by
  have hseq : uint32 (contextIdOf k + 2 ^ 32 - exceptionIdBase) = k % 2 ^ 16 := by
    unfold uint32 contextIdOf exceptionIdBase
    omega
  have hbuffer : getBuffer cfg (k % 2 ^ 16) = k % cfg.maxExceptionEntries := by
    rw [getBuffer_eq]
    exact Nat.mod_mod_of_dvd k (Nat.pow_dvd_pow 2 cfg.hbits)
  unfold copyContext
  dsimp only
  rw [hseq, hbuffer, if_neg (by omega)]

namespace LogInv

theorem copyContext_kept (h : LogInv cfg s) {k : Nat} {context : Context}
    (hk : s.captured[k]? = some context)
    (hkept : s.captured.length < k + cfg.maxExceptionEntries) (contextSize : Nat) :
    copyContext cfg s.storage (contextIdOf k) contextSize =
      some (contextCopy context contextSize) := by
  rw [copyContext_eq, h.kept k context hk hkept]
  exact if_neg fun hne => hne rfl

/-- The entry expires one capture before it is used again. -/
theorem copyContext_expired (h : LogInv cfg s) {k : Nat}
    (hk : s.captured.length = k + cfg.maxExceptionEntries) (hidle : s.filling = none)
    (contextSize : Nat) : copyContext cfg s.storage (contextIdOf k) contextSize = none := by
  have hexpired := h.expired hidle
  rw [hk, Nat.add_mod_right] at hexpired
  rw [copyContext_eq, hexpired]
  exact if_pos fun hzero => contextIdOf_ne_zero k hzero.symm

end LogInv

/-! ## Reports -/

/-- The reports on the first captures, each with its own ID. -/
def reportsOf (platform : Platform) (captured : List Context) : List Summary :=
  captured.mapIdx fun k context => summaryOf platform (entryOf k context)

/-- While an entry is left, no report has lost its ID. -/
structure ReportInv (cfg : ExceptionConfig) (platform : Platform) (s : Recorder) : Prop where
  base : LogInv cfg s
  spacious : s.captured.length < s.reported.length + cfg.maxExceptionEntries
  reported : s.reported = reportsOf platform (s.captured.take s.reported.length)

namespace ReportInv

/-- The next report is on the next capture. -/
theorem report (h : ReportInv cfg platform s) : ReportInv cfg platform (s.report cfg platform) := by
  unfold Recorder.report
  cases hsummary : getSummary cfg platform s.storage with
  | none => exact h
  | some r =>
    have hbase := h.base.getSummary hsummary
    unfold getSummary at hsummary
    split at hsummary
    · cases hsummary
    rename_i hcount
    rw [h.base.count] at hcount
    have hlt : s.reported.length < s.captured.length := by omega
    obtain ⟨context, hcontext⟩ : ∃ context, s.captured[s.reported.length]? = some context :=
      ⟨_, getElem?_eq_getElem hlt⟩
    have hentry := h.base.kept _ context hcontext h.spacious
    have hr : r.1 = summaryOf platform (entryOf s.reported.length context) := by
      rw [← Option.some.inj hsummary]
      rw [h.base.read, getBuffer_uint32, hentry]
    have hlength : (s.reported ++ [r.1]).length = s.reported.length + 1 := length_append
    refine ⟨hbase, ?_, ?_⟩
    · have := h.spacious
      dsimp only [elim_some]
      omega
    · dsimp only [elim_some]
      rw [hlength, take_add_one, hcontext, toList_some]
      unfold reportsOf
      rw [mapIdx_append, length_take, Nat.min_eq_left (Nat.le_of_lt hlt)]
      conv_lhs => rw [h.reported]
      rw [hr]
      simp [reportsOf]

/-- Every event with enough entries left keeps the reports right. -/
theorem step (h : ReportInv cfg platform s) {e : LogEvent} (hspacious : Spacious cfg s e)
    (hstep : s.step cfg platform e = some s') : ReportInv cfg platform s' := by
  have hbase := h.base.step hstep
  cases e with
  | begin =>
    rw [Recorder.step] at hstep
    split at hstep
    · cases hstep
    cases hstep
    unfold Recorder.capture at hbase ⊢
    cases hnext : getNextContextBuffer cfg s.storage with
    | none => exact h
    | some =>
      rw [hnext] at hbase
      exact ⟨hbase, h.spacious, h.reported⟩
  | complete =>
    obtain ⟨context, hfilling, rfl⟩ := map_eq_some_iff.mp hstep
    have horder := h.base.order
    rw [Spacious, h.base.count] at hspacious
    refine ⟨hbase, ?_, ?_⟩
    · unfold Recorder.publish
      dsimp only
      rw [length_append, length_singleton]
      omega
    · unfold Recorder.publish
      rw [take_append_of_le_length horder]
      exact h.reported
  | getSummary =>
    cases hstep
    exact h.report

theorem run (hrun : SpaciousRun cfg platform s) : ReportInv cfg platform s := by
  induction hrun with
  | init => exact ⟨LogInv.init, by simpa [Recorder.init] using maxExceptionEntries_pos, rfl⟩
  | step _ hspacious hstep ih => exact ih.step hspacious hstep

end ReportInv

/-- In every run `CFE_PSP_Exception_GetSummary` reports something as long as there is an exception
that was not reported, and if a capture is completed only while two entries are left, the
reports are the captures in their order, each with its own ID. The context of a capture whose
entry was not used again can be copied exactly if not all the other entries have been
written since. -/
theorem exceptionLog_reports (cfg : ExceptionConfig) (platform : Platform) (s : Recorder) :
    (SpaciousRun cfg platform s →
      s.reported = reportsOf platform (s.captured.take s.reported.length)) ∧
    (LogRun cfg platform s →
      (getSummary cfg platform s.storage = none ↔ s.reported.length = s.captured.length)) ∧
    (∀ k, contextIdOf k ≠ 0 ∧ ∀ j < k, k < j + 2 ^ 16 → contextIdOf j ≠ contextIdOf k) ∧
    (LogRun cfg platform s → ∀ k context contextSize, s.captured[k]? = some context →
      s.captured.length + (if s.filling.isSome then 1 else 0) ≤ k + cfg.maxExceptionEntries →
      (copyContext cfg s.storage (contextIdOf k) contextSize =
          some (contextCopy context contextSize) ↔
        s.captured.length < k + cfg.maxExceptionEntries)) := by
  refine ⟨fun hrun => (ReportInv.run hrun).reported, ?_, ?_, ?_⟩
  · intro hrun
    have hinv := LogInv.run hrun
    have horder := hinv.order
    unfold getSummary
    rw [hinv.count]
    split
    · exact ⟨fun _ => by omega, fun _ => rfl⟩
    · exact ⟨nofun, fun h => by omega⟩
  · exact fun k => ⟨contextIdOf_ne_zero k, fun j hj hnear => contextIdOf_ne hj hnear⟩
  · intro hrun k context contextSize hk hunused
    have hinv := LogInv.run hrun
    constructor
    · intro hcopy
      by_contra hfull
      have hlength : s.captured.length = k + cfg.maxExceptionEntries := by omega
      have hidle : s.filling = none := by
        cases hfilling : s.filling with
        | none => rfl
        | some _ =>
          rw [hfilling, isSome_some, if_pos rfl] at hunused
          omega
      rw [hinv.copyContext_expired hlength hidle] at hcopy
      cases hcopy
    · exact fun hkept => hinv.copyContext_kept hk hkept contextSize

/-! ## A full log -/

/-- The state after some events. -/
def Recorder.exec (cfg : ExceptionConfig) (platform : Platform) (s : Recorder) :
    List LogEvent → Option Recorder
  | [] => some s
  | e :: es => (s.step cfg platform e).bind fun s' => s'.exec cfg platform es

theorem LogRun.exec (hrun : LogRun cfg platform s) {es : List LogEvent}
    (hexec : s.exec cfg platform es = some s') : LogRun cfg platform s' := by
  induction es generalizing s with
  | nil =>
    cases hexec
    exact hrun
  | cons e es ih =>
    obtain ⟨s₁, hstep, hrest⟩ := bind_eq_some_iff.mp hexec
    exact ih (.step hrun hstep) hrest

/-- Four entries, as on most platforms, and a platform that knows no tasks and no reasons. -/
def fourEntries : ExceptionConfig := ⟨2, by decide⟩

def plainPlatform : Platform := ⟨fun _ => none, fun _ => none⟩

theorem SpaciousRun.logRun (hrun : SpaciousRun cfg platform s) : LogRun cfg platform s := by
  induction hrun with
  | init => exact .init
  | step _ _ hstep ih => exact .step ih hstep

/-- Of two exceptions the first is reported. Then its context is copied by its ID, as far as the
caller has room, and so is the whole context of the second. -/
theorem exceptionLog_reports_two : ∃ s, SpaciousRun fourEntries plainPlatform s ∧
    s.captured = [⟨3, 7, [1, 2, 3]⟩, ⟨2, 7, [4, 5]⟩] ∧ s.reported = [⟨contextIdOf 0, 0, []⟩] ∧
    copyContext fourEntries s.storage (contextIdOf 0) 2 = some [1, 2] ∧
    copyContext fourEntries s.storage (contextIdOf 1) 8 = some [4, 5] := by
  have hinit : SpaciousRun fourEntries plainPlatform Recorder.init := .init
  have hfirst := hinit.step (e := .begin ⟨3, 7, [1, 2, 3]⟩) True.intro rfl
  have hcomplete := hfirst.step (e := .complete) (by unfold Spacious; decide) rfl
  have hreport := hcomplete.step (e := .getSummary) True.intro rfl
  have hsecond := hreport.step (e := .begin ⟨2, 7, [4, 5]⟩) True.intro rfl
  have hrun := hsecond.step (e := .complete) (by unfold Spacious; decide) rfl
  obtain ⟨hreported, -, -, hcopied⟩ := exceptionLog_reports fourEntries plainPlatform _
  refine ⟨_, hrun, rfl, hreported hrun, ?_, ?_⟩
  · exact (hcopied hrun.logRun 0 ⟨3, 7, [1, 2, 3]⟩ 2 rfl (by decide)).2 (by decide)
  · exact (hcopied hrun.logRun 1 ⟨2, 7, [4, 5]⟩ 8 rfl (by decide)).2 (by decide)

/-- Four exceptions are captured before one is reported. -/
def fourCaptures : List LogEvent :=
  (List.replicate 4 [LogEvent.begin ⟨0, 0, []⟩, .complete]).flatten ++ [.getSummary]

theorem exceptionLog_loses_id : ∃ s, LogRun fourEntries plainPlatform s ∧
    s.captured.length = 4 ∧ s.reported = [⟨0, 0, []⟩] := by
  have hexec : (Recorder.init.exec fourEntries plainPlatform fourCaptures).map
      (fun s => (s.captured.length, s.reported)) = some (4, [⟨0, 0, []⟩]) := by
    decide +kernel
  obtain ⟨s, hs, hlists⟩ := map_eq_some_iff.mp hexec
  obtain ⟨hcaptured, hreported⟩ := Prod.mk.inj hlists
  exact ⟨s, LogRun.exec .init hs, hcaptured, hreported⟩

end CfsEds.Psp
