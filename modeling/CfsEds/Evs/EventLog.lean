import CfsEds.Lib.RingLog

/-!
# The event log

`cfe_evs_log.c`: the events of the system are kept in a ring of `CFE_PLATFORM_EVS_LOG_MAX`
entries. When it is full, a new event overwrites the oldest one or is discarded, by the mode of
the log, which a command may switch at any time; the overflow counter counts both.

An abstract log, `History`, is the list of all events accepted since the last clear. The ring is
the end of it (`LogInv`), in the order in which `CFE_EVS_WriteLogDataFileCmd` writes its entries
to a file.
-/

namespace CfsEds.Evs

open CfsEds.Lib.RingLog List Function

/-- `CFE_PLATFORM_EVS_LOG_MAX`; the entries are counted by a `uint16`. -/
structure EvsConfig where
  logMax : Nat
  hpos : 0 < logMax
  hlimit : logMax < 2 ^ 16

/-- `CFE_EVS_LogMode_DISCARD`; the mode `CFE_EVS_LogMode_OVERWRITE` is zero. -/
def discardMode : BitVec 8 := 1

/-- `CFE_EVS_Log_t`, with entries of type `α` -/
structure EventLog (α : Type) where
  next : Nat
  logCount : Nat
  logFullFlag : Bool
  logMode : BitVec 8
  logOverflowCounter : BitVec 16
  logEntry : Nat → α

section Functions

variable {α : Type} (cfg : EvsConfig)

/-- The event is counted as discarded, or as overwriting another. -/
def countOverflow (s : EventLog α) : EventLog α :=
  { s with logOverflowCounter := s.logOverflowCounter + 1 }

/-- The event is copied to the next entry. -/
def storeEntry (s : EventLog α) (event : α) : EventLog α :=
  { s with
    logEntry := Function.update s.logEntry s.next event
    next := if cfg.logMax ≤ s.next + 1 then 0 else s.next + 1
    logCount := if s.logCount < cfg.logMax then s.logCount + 1 else s.logCount
    logFullFlag := s.logFullFlag || s.logCount + 1 == cfg.logMax }

/-- `EVS_AddLog` -/
def addLog (s : EventLog α) (event : α) : EventLog α :=
  if s.logFullFlag = true ∧ s.logMode = discardMode then countOverflow s
  else storeEntry cfg (if s.logFullFlag then countOverflow s else s) event

/-- `EVS_ClearLog`; `blank` is an entry of zeros. -/
def clearLog (blank : α) (s : EventLog α) : EventLog α :=
  { s with
    next := 0, logCount := 0, logFullFlag := false, logOverflowCounter := 0
    logEntry := fun _ => blank }

/-- `CFE_EVS_SetLogModeCmd`, which refuses other modes. -/
def setLogModeCmd (s : EventLog α) (logMode : BitVec 8) : EventLog α :=
  if logMode = 0 ∨ logMode = discardMode then { s with logMode } else s

/-- The loop of `CFE_EVS_WriteLogDataFileCmd` with `n` entries left: the number of entries
written, and the entries. `osWrite` tells which of the writes are complete. -/
def writeEntries (s : EventLog α) (osWrite : Nat → Bool) : Nat → Nat → Nat → Nat × List α
  | 0, i, _ => (i, [])
  | n + 1, i, logIndex =>
    if osWrite i then
      let next := if cfg.logMax ≤ logIndex + 1 then 0 else logIndex + 1
      let rest := writeEntries s osWrite n (i + 1) next
      (rest.1, s.logEntry logIndex :: rest.2)
    else (i, [])

/-- `CFE_EVS_WriteLogDataFileCmd` once the file is created and has its header: the result, and
the entries that are added to the file. -/
def writeLogDataFileCmd (s : EventLog α) (osWrite : Nat → Bool) : Bool × List α :=
  let logIndex := if s.logCount = cfg.logMax then s.next else 0
  let written := writeEntries cfg s osWrite s.logCount 0 logIndex
  (decide (written.1 = s.logCount), written.2)

end Functions

/-! ## Histories -/

/-- What happens to the log. -/
inductive LogOp (α : Type) where
  | add (event : α)
  | clear
  | setMode (logMode : BitVec 8)

/-- What the log stands for: the events accepted since the last clear, how many were discarded or
overwrote another, and whether the log discards. -/
structure History (α : Type) where
  accepted : List α
  lost : Nat
  discards : Bool

section Histories

variable {α : Type} {cfg : EvsConfig} {blank : α} {s : EventLog α} {a : History α}

def EventLog.step (cfg : EvsConfig) (blank : α) (s : EventLog α) : LogOp α → EventLog α
  | .add event => addLog cfg s event
  | .clear => clearLog blank s
  | .setMode logMode => setLogModeCmd s logMode

def History.step (cfg : EvsConfig) (a : History α) : LogOp α → History α
  | .add event =>
    if a.accepted.length < cfg.logMax then { a with accepted := a.accepted ++ [event] }
    else if a.discards then { a with lost := a.lost + 1 }
    else { a with accepted := a.accepted ++ [event], lost := a.lost + 1 }
  | .clear => { a with accepted := [], lost := 0 }
  | .setMode logMode =>
    if logMode = 0 then { a with discards := false }
    else if logMode = discardMode then { a with discards := true }
    else a

/-- The ring has the end of the history. -/
structure LogInv (cfg : EvsConfig) (s : EventLog α) (a : History α) : Prop where
  next : s.next = a.accepted.length % cfg.logMax
  count : s.logCount = min a.accepted.length cfg.logMax
  full : s.logFullFlag = decide (cfg.logMax ≤ a.accepted.length)
  mode : s.logMode = discardMode ↔ a.discards = true
  overflow : s.logOverflowCounter = BitVec.ofNat 16 a.lost
  entries : Holds cfg.logMax s.logEntry a.accepted

namespace LogInv

theorem countOverflow (h : LogInv cfg s a) :
    LogInv cfg (countOverflow s) { a with lost := a.lost + 1 } := by
  refine ⟨h.next, h.count, h.full, h.mode, ?_, h.entries⟩
  rw [BitVec.ofNat_add, ← h.overflow]
  rfl

theorem storeEntry (h : LogInv cfg s a) (event : α) :
    LogInv cfg (storeEntry cfg s event) { a with accepted := a.accepted ++ [event] } := by
  have hnext := mod_succ cfg.hpos a.accepted.length
  have hpush := h.entries.push event
  rw [← h.next] at hnext hpush
  have hcount := h.count
  refine ⟨?_, ?_, ?_, h.mode, h.overflow, hpush⟩
  · rw [length_append]
    exact hnext
  · rw [length_append, length_singleton]
    unfold Evs.storeEntry
    dsimp only
    split <;> omega
  · rw [length_append, length_singleton]
    unfold Evs.storeEntry
    dsimp only
    rw [h.full, Bool.eq_iff_iff]
    simp only [Bool.or_eq_true, beq_iff_eq, decide_eq_true_eq]
    omega

theorem add (h : LogInv cfg s a) (event : α) :
    LogInv cfg (addLog cfg s event) (a.step cfg (.add event)) := by
  unfold addLog History.step
  dsimp only
  by_cases hlt : a.accepted.length < cfg.logMax
  · have hflag : ¬ s.logFullFlag = true := by simpa [h.full] using hlt
    rw [if_neg (fun hfull => hflag hfull.1), if_neg hflag, if_pos hlt]
    exact h.storeEntry event
  have hflag : s.logFullFlag = true := by simpa [h.full] using hlt
  rw [if_neg hlt]
  by_cases hdiscards : a.discards = true
  · rw [if_pos ⟨hflag, h.mode.mpr hdiscards⟩, if_pos hdiscards]
    exact h.countOverflow
  · rw [if_neg (fun hfull => hdiscards (h.mode.mp hfull.2)), if_pos hflag, if_neg hdiscards]
    exact h.countOverflow.storeEntry event

theorem step (h : LogInv cfg s a) (op : LogOp α) :
    LogInv cfg (s.step cfg blank op) (a.step cfg op) := by
  cases op with
  | add event => exact h.add event
  | clear =>
    have hfull : decide (cfg.logMax ≤ 0) = false := decide_eq_false (Nat.not_le.mpr cfg.hpos)
    exact ⟨(Nat.zero_mod _).symm, (Nat.zero_min _).symm, hfull.symm, h.mode, rfl, nofun⟩
  | setMode logMode =>
    unfold EventLog.step setLogModeCmd History.step
    dsimp only
    by_cases hzero : logMode = 0
    · rw [if_pos (.inl hzero), if_pos hzero]
      exact ⟨h.next, h.count, h.full, by simp [hzero, discardMode], h.overflow, h.entries⟩
    rw [if_neg hzero]
    by_cases hdiscard : logMode = discardMode
    · rw [if_pos (.inr hdiscard), if_pos hdiscard]
      exact ⟨h.next, h.count, h.full, by simp [hdiscard], h.overflow, h.entries⟩
    · rw [if_neg (fun hmode => hmode.elim hzero hdiscard), if_neg hdiscard]
      exact h

theorem run (h : LogInv cfg s a) (ops : List (LogOp α)) :
    LogInv cfg (ops.foldl (EventLog.step cfg blank) s) (ops.foldl (History.step cfg) a) := by
  induction ops generalizing s a with
  | nil => exact h
  | cons op ops ih => exact ih (h.step op)

end LogInv

/-- With writes that are all complete, the entries are those of `n` indices from `j` on. -/
theorem writeEntries_eq (s : EventLog α) (n i j : Nat) :
    writeEntries cfg s (fun _ => true) n i (j % cfg.logMax) =
      (i + n, (List.range' j n).map fun k => s.logEntry (k % cfg.logMax)) := by
  induction n generalizing i j with
  | zero => rfl
  | succ n ih =>
    rw [writeEntries, if_pos rfl]
    dsimp only
    rw [mod_succ cfg.hpos, ih, List.range'_succ, map_cons]
    exact congrArg (·, _) (by omega)

/-- The log after any history from a cleared log: a file that is written from it has the last
accepted events, the oldest first, and the counter has counted the events that were lost. -/
theorem eventLog_dump (cfg : EvsConfig) (blank : α) (s : EventLog α)
    (hcleared : s.next = 0 ∧ s.logCount = 0 ∧ s.logFullFlag = false ∧ s.logOverflowCounter = 0)
    (ops : List (LogOp α)) :
    let log := ops.foldl (EventLog.step cfg blank) s
    let history := ops.foldl (History.step cfg) ⟨[], 0, decide (s.logMode = discardMode)⟩
    writeLogDataFileCmd cfg log (fun _ => true) =
      (true, history.accepted.drop (history.accepted.length - cfg.logMax)) ∧
    log.logOverflowCounter = BitVec.ofNat 16 history.lost := by
  intro log history
  obtain ⟨hnext, hcount, hflag, hover⟩ := hcleared
  have hpos := cfg.hpos
  have hinit : LogInv cfg s ⟨[], 0, decide (s.logMode = discardMode)⟩ :=
    ⟨by simpa using hnext, by simpa using hcount, by simp [hflag]; omega, by simp, hover, nofun⟩
  have hinv : LogInv cfg log history := hinit.run ops
  refine ⟨?_, hinv.overflow⟩
  generalize hxs : history.accepted = xs
  -- the index of the oldest event
  have hstart : (if log.logCount = cfg.logMax then log.next else 0) =
      (xs.length - cfg.logMax) % cfg.logMax := by
    rw [hinv.count, hinv.next, hxs]
    split_ifs with hfull
    · rw [← Nat.mod_eq_sub_mod (by omega)]
    · rw [Nat.sub_eq_zero_of_le (by omega), Nat.zero_mod]
  have hentries : log.logCount = xs.length - (xs.length - cfg.logMax) := by
    rw [hinv.count, hxs]
    omega
  have hholds := hinv.entries
  rw [hxs] at hholds
  have hread := hholds.read (j := xs.length - cfg.logMax) (by omega)
  unfold writeLogDataFileCmd
  rw [hstart]
  dsimp only
  rw [writeEntries_eq, hentries, hread]
  simp

end Histories

/-- A log of two entries, which overwrites and then discards. -/
theorem eventLog_dump_two :
    let log := [LogOp.add 1, .add 2, .add 3, .setMode discardMode, .add 4].foldl
      (EventLog.step ⟨2, by decide, by decide⟩ 0) ⟨0, 0, false, 0, 0, fun _ => 0⟩
    writeLogDataFileCmd ⟨2, by decide, by decide⟩ log (fun _ => true) = (true, [2, 3]) ∧
      log.logOverflowCounter = 2 :=
  eventLog_dump ⟨2, by decide, by decide⟩ 0 ⟨0, 0, false, 0, 0, fun _ => 0⟩ ⟨rfl, rfl, rfl, rfl⟩ _

end CfsEds.Evs
