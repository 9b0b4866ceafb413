import CfsEds.Lib.Memory
import Mathlib.Data.BitVec
import Mathlib.Data.Nat.Bitwise
import Mathlib.Data.List.Nodup
import Mathlib.Logic.Function.Basic

/-!
# Background file dumps

`CFE_FS_BackgroundFileDumpRequest` puts a request into a ring of four entries, and
`CFE_FS_RunBackgroundFileDump`, called again and again by the background task of ES, works
through the ring: it creates the file, writes the header, and writes the records of a getter
function as far as its credit goes. Every request should end with one event of its own.

A request whose last record cannot be written ends with two: the write error closes the file
and leaves the loop, but the getter has already set `IsEOF`, so that the event for a complete
file follows. All other requests end as they should, in the order of the requests.

Mirroring notes:
- The tasks meet at the lock of the shared data. A request is the check of its arguments and
  of its own pending flag (`ask`) and what it does under the lock (`commit`); a call of
  `CFE_FS_RunBackgroundFileDump` is cut where it takes the lock, after the file is opened and
  at every record of its loop. The events of different tasks come in any order.
- What the getter and the file system answer is part of the event, so that they may answer
  anything at any time.
- `Sys` also carries what was accepted, and the actions for each request that was worked on.
- A meta object is a number. The counters are `uint32`, the credit is an `int32`.
-/

namespace CfsEds.Fs

open CfsEds.Lib.Memory List Function Option

/-! ## The requests and the writer -/

/-- `CFE_FS_MAX_BACKGROUND_FILE_WRITES` -/
def maxBackgroundFileWrites : Nat := 4

/-- `CFE_FS_BACKGROUND_CREDIT_PER_SECOND` -/
def backgroundCreditPerSecond : Nat := 10000

/-- `CFE_FS_BACKGROUND_MAX_CREDIT` -/
def backgroundMaxCredit : Int := 10000

/-- `sizeof(CFE_FS_Header_t)` -/
def headerSize : Int := 64

/-- A value stored in an `int32`. -/
def int32 (x : Int) : Int := x.bmod (2 ^ 32)

abbrev MetaId := Nat

/-- `CFE_FS_FileWriteEvent_t`, the final events. -/
inductive FileWriteEvent where
  | complete
  | createError
  | headerWriteError
  | recordWriteError
  deriving DecidableEq

/-- What the getter answers, and what `OS_write` says to it. -/
structure Record where
  isLast : Bool
  data : List (BitVec 8)
  written : Int
  deriving DecidableEq

/-- The whole record was written; there may be nothing to write. -/
def Record.Full (r : Record) : Prop := r.data = [] ∨ r.written = r.data.length

instance (r : Record) : Decidable r.Full := by
  unfold Record.Full
  infer_instance

/-- What is done for a request. -/
inductive Action where
  | opened (m : MetaId)
  | header (written : Int)
  | record (r : Record)
  | event (m : MetaId) (e : FileWriteEvent)
  | closed
  deriving DecidableEq

/-- `CFE_FS_BackgroundFileDumpState_t` -/
structure FileDump where
  requestCount : Nat
  completeCount : Nat
  entries : Nat → Option MetaId
  fd : Bool
  credit : Int
  recordNum : Nat
  fileSize : Nat

/-- Where `CFE_FS_RunBackgroundFileDump` is, with its variables `Curr`, `Meta` and `IsEOF`. -/
inductive Pc where
  | outside
  | opening (slot : Nat) (m : MetaId)
  | looping (slot : Nat) (m : MetaId) (isEOF : Bool)
  | finishing (slot : Nat) (m : MetaId)
  | crashed
  deriving DecidableEq

/-- A request that was worked on. -/
structure Session where
  metaId : MetaId
  actions : List Action
  deriving DecidableEq

/-- The shared data, the pending flags of the meta objects, the requests between their check
and the lock, and the writer. Then what was accepted, the requests that are done, and the
actions so far for the one at work. -/
structure Sys where
  dump : FileDump
  pending : MetaId → Bool
  asking : List MetaId
  pc : Pc
  accepted : List MetaId
  sessions : List Session
  actions : List Action

/-- The index of an entry: `count & (CFE_FS_MAX_BACKGROUND_FILE_WRITES - 1)`. -/
def slotOf (count : Nat) : Nat := count &&& (maxBackgroundFileWrites - 1)

/-- What a request says of itself. -/
structure Request where
  metaId : MetaId
  getData : Bool
  onEvent : Bool
  fileName : List (BitVec 8)

/-- The answers of `CFE_FS_BackgroundFileDumpRequest`. -/
inductive RequestStatus where
  | success
  | badArgument
  | invalidPath
  | requestAlreadyPending
  deriving DecidableEq

/-- The checks before the lock. -/
def precheck (pending : MetaId → Bool) (r : Request) : RequestStatus :=
  if r.getData = false ∨ r.onEvent = false then .badArgument
  else if r.fileName.headD 0 = 0 then .invalidPath
  else if pending r.metaId then .requestAlreadyPending
  else .success

def Sys.ask (s : Sys) (r : Request) : Sys :=
  if precheck s.pending r = .success then { s with asking := r.metaId :: s.asking } else s

/-- What a request does under the lock. -/
def Sys.commit (s : Sys) (m : MetaId) : Sys :=
  let pendingRequestCount := uint32 (s.dump.requestCount + 1)
  if pendingRequestCount = uint32 (s.dump.completeCount + maxBackgroundFileWrites) then
    { s with asking := s.asking.erase m }
  else
    { s with
      dump :=
        { s.dump with
          entries := Function.update s.dump.entries (slotOf s.dump.requestCount) (some m)
          requestCount := pendingRequestCount }
      pending := Function.update s.pending m true
      asking := s.asking.erase m
      accepted := s.accepted ++ [m] }

/-- The credit for the elapsed time. -/
def addCredit (credit : Int) (elapsedTime : Nat) : Int :=
  let credit := int32 (credit + (uint32 (elapsedTime * backgroundCreditPerSecond) / 1000 : Nat))
  if credit > backgroundMaxCredit then backgroundMaxCredit else credit

/-- The start of a call, up to the end of its first time under the lock. -/
def Sys.fetch (s : Sys) (elapsedTime : Nat) : Sys :=
  let dump := { s.dump with credit := addCredit s.dump.credit elapsedTime }
  if dump.completeCount = dump.requestCount then { s with dump := dump }
  else
    let slot := slotOf dump.completeCount
    { s with
      dump := dump
      pc := (dump.entries slot).elim .crashed (.opening slot) }

/-- Open the file, if this is the first time for the entry. -/
def Sys.openFile (s : Sys) (slot : Nat) (m : MetaId) (create header : Int) : Sys :=
  if s.dump.fd = false ∧ s.pending m = true then
    if create ≠ 0 then
      { s with
        actions := s.actions ++ [.event m .createError]
        pc := .looping slot m false }
    else if header ≠ headerSize then
      { s with
        actions := s.actions ++ [.opened m, .header header, .closed, .event m .headerWriteError]
        pc := .looping slot m false }
    else
      { s with
        dump :=
          { s.dump with
            fd := true
            fileSize := headerSize.toNat
            credit := int32 (s.dump.credit - headerSize)
            recordNum := 0 }
        actions := s.actions ++ [.opened m, .header header]
        pc := .looping slot m false }
  else { s with pc := .looping slot m false }

/-- A pass of the loop. After a write that failed, `IsEOF` is still what the getter said. -/
def Sys.writeRecord (s : Sys) (slot : Nat) (m : MetaId) (r : Record) : Sys :=
  if r.data ≠ [] ∧ r.written ≠ r.data.length then
    { s with
      dump :=
        { s.dump with
          fd := false
          credit := int32 (s.dump.credit - r.data.length) }
      actions := s.actions ++ [.record r, .closed, .event m .recordWriteError]
      pc := .looping slot m r.isLast }
  else
    { s with
      dump :=
        { s.dump with
          credit :=
            if r.data = [] then s.dump.credit else int32 (s.dump.credit - r.data.length)
          fileSize := s.dump.fileSize + r.data.length
          recordNum := uint32 (s.dump.recordNum + 1) }
      actions := s.actions ++ [.record r]
      pc := .looping slot m r.isLast }

/-- Behind the loop: on normal EOF close the file and generate the complete event. -/
def Sys.leave (s : Sys) (slot : Nat) (m : MetaId) (isEOF : Bool) : Sys :=
  if isEOF then
    { s with
      dump := { s.dump with fd := false }
      actions := s.actions ++ [.closed, .event m .complete]
      pc := .finishing slot m }
  else { s with pc := .finishing slot m }

/-- The end of a call: if the file is not open, the entry is done. -/
def Sys.finish (s : Sys) (slot : Nat) (m : MetaId) : Sys :=
  if s.dump.fd = false then
    { s with
      dump :=
        { s.dump with
          entries := Function.update s.dump.entries slot none
          completeCount := uint32 (s.dump.completeCount + 1) }
      pending := Function.update s.pending m false
      pc := .outside
      sessions := s.sessions ++ [⟨m, s.actions⟩]
      actions := [] }
  else { s with pc := .outside }

/-- The events of all tasks. -/
inductive DumpEvent where
  | ask (r : Request)
  | commit (m : MetaId)
  | fetch (elapsedTime : Nat)
  | openFile (create header : Int)
  | writeRecord (r : Record)
  | leave
  | finish

/-- An event, if it can happen in this state. -/
def Sys.step (s : Sys) : DumpEvent → Pc → Option Sys
  | .ask r, _ => some (s.ask r)
  | .commit m, _ => if m ∈ s.asking then some (s.commit m) else none
  | .fetch elapsedTime, .outside => some (s.fetch elapsedTime)
  | .openFile create header, .opening slot m => some (s.openFile slot m create header)
  | .writeRecord r, .looping slot m false =>
    if s.dump.fd = true ∧ s.dump.credit > 0 then some (s.writeRecord slot m r) else none
  | .leave, .looping slot m isEOF =>
    if s.dump.fd = true ∧ s.dump.credit > 0 ∧ isEOF = false then none
    else some (s.leave slot m isEOF)
  | .finish, .finishing slot m => some (s.finish slot m)
  | _, _ => none

/-- Nobody submits a meta object that another task is submitting. -/
def Sys.Alone (s : Sys) : DumpEvent → Prop
  | .ask r => r.metaId ∉ s.asking
  | _ => True

/-- `CFE_FS_EarlyInit` -/
def Sys.init : Sys :=
  ⟨⟨0, 0, fun _ => none, false, 0, 0, 0⟩, fun _ => false, [], .outside, [], [], []⟩

/-- The states that the events of the tasks lead to. -/
inductive DumpRun : List DumpEvent → Sys → Prop where
  | init : DumpRun [] Sys.init
  | step {events : List DumpEvent} {s s' : Sys} {e : DumpEvent} (h : DumpRun events s)
      (halone : s.Alone e) (hstep : s.step e s.pc = some s') : DumpRun (events ++ [e]) s'

/-! ## What the actions for a request should be -/

/-- The events that were sent. -/
def finalEvents (actions : List Action) : List (MetaId × FileWriteEvent) :=
  actions.filterMap fun a => match a with
    | .event m e => some (m, e)
    | _ => none

/-- The file is open after these actions. -/
def fileOpen (actions : List Action) : Bool :=
  actions.foldl (fun isOpen a => match a with
    | .opened _ => true
    | .closed => false
    | _ => isOpen) false

/-- The header and the records, in the order of their writing. -/
def writes (actions : List Action) : List Action :=
  actions.filter fun a => match a with
    | .header _ => true
    | .record _ => true
    | _ => false

/-- The records of a getter up to the last one, all of them written. -/
def Through (records : List Record) : Prop :=
  (∀ r ∈ records, r.Full) ∧
    ∃ front last, records = front ++ [last] ∧ last.isLast = true ∧ ∀ r ∈ front, r.isLast = false

/-- The header and every record through the last one were fully written in order. -/
def FullyWritten (actions : List Action) : Prop :=
  ∃ records, writes actions = .header headerSize :: records.map .record ∧ Through records

/-- One final event, which says that the file is complete if and only if it is. -/
def Session.Right (session : Session) : Prop :=
  ∃ e, finalEvents session.actions = [(session.metaId, e)] ∧
    (e = .complete ↔ FullyWritten session.actions)

/-- The write of the record flagged as last failed. -/
def Session.LastWriteFailed (session : Session) : Prop :=
  ∃ r, Action.record r ∈ session.actions ∧ r.isLast = true ∧ ¬r.Full

/-! ## The ring -/

/-- The requests that wait in the ring, in their order. -/
structure Queued (d : FileDump) (queue : List MetaId) : Prop where
  length : queue.length < maxBackgroundFileWrites
  counts : d.requestCount = uint32 (d.completeCount + queue.length)
  slots : ∀ i m, queue[i]? = some m → d.entries (slotOf (d.completeCount + i)) = some m

theorem slotOf_eq (count : Nat) : slotOf count = count % 4 := Nat.and_two_pow_sub_one_eq_mod count 2

theorem slotOf_uint32 (count : Nat) : slotOf (uint32 count) = slotOf count := by
  rw [slotOf_eq, slotOf_eq, uint32]
  omega

section Ring

variable {d d' : FileDump} {queue : List MetaId} {m : MetaId}

/-- Only the counters and the entries matter for the ring. -/
theorem Queued.congr (h : Queued d queue) (hrequest : d'.requestCount = d.requestCount)
    (hcomplete : d'.completeCount = d.completeCount) (hentries : d'.entries = d.entries) :
    Queued d' queue where
  length := h.length
  counts := by rw [hrequest, hcomplete, h.counts]
  slots := by
    rw [hcomplete, hentries]
    exact h.slots

/-- The ring is full with three requests. -/
theorem Queued.full_iff (h : Queued d queue) :
    uint32 (d.requestCount + 1) = uint32 (d.completeCount + maxBackgroundFileWrites) ↔
      queue.length + 1 = maxBackgroundFileWrites := by
  have hlen := h.length
  rw [h.counts]
  unfold uint32 maxBackgroundFileWrites at *
  omega

/-- The ring is empty when the counters are the same. -/
theorem Queued.empty_iff (h : Queued d queue) (hlt : d.completeCount < 2 ^ 32) :
    d.completeCount = d.requestCount ↔ queue = [] := by
  have hlen := h.length
  rw [h.counts, ← length_eq_zero_iff]
  unfold uint32 maxBackgroundFileWrites at *
  omega

theorem Queued.push (h : Queued d queue) (hroom : queue.length + 1 < maxBackgroundFileWrites) :
    Queued { d with
      entries := update d.entries (slotOf d.requestCount) (some m)
      requestCount := uint32 (d.requestCount + 1) } (queue ++ [m]) where
  length := by rwa [List.length_append, List.length_singleton]
  counts := by
    show uint32 (d.requestCount + 1) = _
    rw [h.counts, List.length_append, List.length_singleton]
    simp [uint32, Nat.add_assoc]
  slots := by
    intro i m' hi
    show update d.entries _ _ _ = _
    have htail : slotOf d.requestCount = (d.completeCount + queue.length) % 4 := by
      rw [h.counts, slotOf_uint32, slotOf_eq]
    by_cases hold : i < queue.length
    · have hne : slotOf (d.completeCount + i) ≠ slotOf d.requestCount := by
        rw [htail, slotOf_eq]
        unfold maxBackgroundFileWrites at hroom
        omega
      rw [getElem?_append_left hold] at hi
      rw [update_of_ne hne]
      exact h.slots i m' hi
    · have hlast : i = queue.length ∧ m' = m := by
        obtain ⟨hlt, hget⟩ := List.getElem?_eq_some_iff.1 hi
        rw [List.length_append, List.length_singleton] at hlt
        have hi' : i = queue.length := by omega
        subst hi'
        exact ⟨rfl, by simpa using hget.symm⟩
      rw [hlast.1, hlast.2, htail, slotOf_eq, update_self]

theorem Queued.pop (h : Queued d (m :: queue)) : Queued { d with
      entries := update d.entries (slotOf d.completeCount) none
      completeCount := uint32 (d.completeCount + 1) } queue where
  length := by
    have hlen := h.length
    rw [length_cons] at hlen
    omega
  counts := by
    show d.requestCount = uint32 (uint32 (d.completeCount + 1) + queue.length)
    rw [h.counts, length_cons]
    unfold uint32
    omega
  slots := by
    intro i m' hi
    show update d.entries _ _ (slotOf (uint32 (d.completeCount + 1) + i)) = _
    have hlt := (List.getElem?_eq_some_iff.1 hi).1
    have hlen := h.length
    rw [length_cons] at hlen
    unfold maxBackgroundFileWrites at hlen
    have hslot : slotOf (uint32 (d.completeCount + 1) + i) =
        slotOf (d.completeCount + (i + 1)) := by
      rw [slotOf_eq, slotOf_eq, uint32]
      omega
    have hne : slotOf (d.completeCount + (i + 1)) ≠ slotOf d.completeCount := by
      rw [slotOf_eq, slotOf_eq]
      omega
    rw [hslot, update_of_ne hne]
    exact h.slots (i + 1) m' hi

end Ring

/-! ## The actions for a request, step by step -/

/-- The file is open, and these records were written. -/
def writing (m : MetaId) (records : List Record) : List Action :=
  .opened m :: .header headerSize :: records.map .record

/-- Records that were written before the last one. -/
def Before (records : List Record) : Prop := ∀ r ∈ records, r.Full ∧ r.isLast = false

/-- The actions for a request that is done. -/
inductive Ended (m : MetaId) : List Action → Prop where
  | createFailed : Ended m [.event m .createError]
  | headerFailed {header : Int} (h : header ≠ headerSize) :
    Ended m [.opened m, .header header, .closed, .event m .headerWriteError]
  | recordFailed {records : List Record} {r : Record} (h : Before records) (hr : ¬r.Full)
      (hlast : r.isLast = false) :
    Ended m (writing m records ++ [.record r, .closed, .event m .recordWriteError])
  | complete {records : List Record} (h : Through records) :
    Ended m (writing m records ++ [.closed, .event m .complete])
  | lastFailed {records : List Record} {r : Record} (h : Before records) (hr : ¬r.Full)
      (hlast : r.isLast = true) :
    Ended m (writing m records ++ [.record r, .closed, .event m .recordWriteError] ++
      [.closed, .event m .complete])

/-- Where the writer is, whether the file is open, and the actions for the request at the head
of the ring. -/
inductive Stage (head : Option MetaId) : Pc → Bool → List Action → Prop where
  | idle : Stage head .outside false []
  | paused {m : MetaId} {records : List Record} (hm : head = some m) (h : Before records) :
    Stage head .outside true (writing m records)
  | fetched {slot : Nat} {m : MetaId} (hm : head = some m) :
    Stage head (.opening slot m) false []
  | resumed {slot : Nat} {m : MetaId} {records : List Record} (hm : head = some m)
      (h : Before records) : Stage head (.opening slot m) true (writing m records)
  | writing {slot : Nat} {m : MetaId} {records : List Record} (hm : head = some m)
      (h : Before records) : Stage head (.looping slot m false) true (writing m records)
  | last {slot : Nat} {m : MetaId} {records : List Record} (hm : head = some m)
      (h : Through records) : Stage head (.looping slot m true) true (writing m records)
  | failed {slot : Nat} {m : MetaId} {actions : List Action} (hm : head = some m)
      (h : Ended m actions) : Stage head (.looping slot m false) false actions
  | lastFailed {slot : Nat} {m : MetaId} {records : List Record} {r : Record}
      (hm : head = some m) (h : Before records) (hr : ¬r.Full) (hlast : r.isLast = true) :
    Stage head (.looping slot m true) false
      (writing m records ++ [.record r, .closed, .event m .recordWriteError])
  | pausing {slot : Nat} {m : MetaId} {records : List Record} (hm : head = some m)
      (h : Before records) : Stage head (.finishing slot m) true (writing m records)
  | ended {slot : Nat} {m : MetaId} {actions : List Action} (hm : head = some m)
      (h : Ended m actions) : Stage head (.finishing slot m) false actions

section Ended

variable {m : MetaId} {actions : List Action} {records : List Record} {e : FileWriteEvent}

theorem finalEvents_writing (m : MetaId) (records : List Record) (rest : List Action) :
    finalEvents (writing m records ++ rest) = finalEvents rest := by
  have hrecords : finalEvents (records.map .record) = [] := by
    apply filterMap_eq_nil_iff.2
    intro a ha
    obtain ⟨r, -, rfl⟩ := mem_map.1 ha
    rfl
  have hwriting : finalEvents (writing m records) = [] := hrecords
  unfold finalEvents at hwriting ⊢
  rw [filterMap_append, hwriting, nil_append]

theorem writes_writing (m : MetaId) (records : List Record) (rest : List Action) :
    writes (writing m records ++ rest) =
      .header headerSize :: records.map .record ++ writes rest := by
  have hrecords : writes (records.map .record) = records.map .record := by
    apply filter_eq_self.2
    intro a ha
    obtain ⟨r, -, rfl⟩ := mem_map.1 ha
    rfl
  have hwriting : writes (writing m records) = .header headerSize :: records.map .record :=
    congrArg (Action.header headerSize :: ·) hrecords
  unfold writes at hwriting ⊢
  rw [filter_append, hwriting]

theorem mem_writing {r : Record} : Action.record r ∈ writing m records ↔ r ∈ records := by
  simp [writing]

/-- An error is right for a file that is not complete. -/
theorem right_of_failed (hevents : finalEvents actions = [(m, e)]) (he : e ≠ .complete)
    (h : ¬FullyWritten actions) : (Session.mk m actions).Right :=
  ⟨e, hevents, fun hc => absurd hc he, fun hfull => absurd hfull h⟩

/-- A record that was not written is in the way of a complete file. -/
theorem not_fullyWritten_of_record {r : Record} {rest : List Action} (hr : ¬r.Full)
    (hrest : writes rest = []) :
    ¬FullyWritten (writing m records ++ (.record r :: rest)) := by
  intro ⟨records', hwrites, hthrough⟩
  have hrest' : writes (.record r :: rest) = [.record r] := congrArg (Action.record r :: ·) hrest
  rw [writes_writing, hrest'] at hwrites
  have hmap : (records ++ [r]).map Action.record = records'.map .record := by
    have htail := tail_eq_of_cons_eq hwrites
    rw [map_append]
    exact htail
  have hmem : Action.record r ∈ records'.map .record := by
    rw [← hmap]
    exact mem_map.2 ⟨r, mem_append_right _ (mem_singleton_self r), rfl⟩
  obtain ⟨r', hr', heq⟩ := mem_map.1 hmem
  cases heq
  exact hr (hthrough.1 r hr')

theorem Ended.fileOpen (h : Ended m actions) : fileOpen actions = false := by
  cases h with
  | createFailed | headerFailed => rfl
  | recordFailed | complete | lastFailed => simp [Fs.fileOpen, foldl_append]

/-- A request ends as it should unless its last record could not be written. -/
theorem Ended.right_iff (h : Ended m actions) :
    (Session.mk m actions).Right ↔ ¬(Session.mk m actions).LastWriteFailed := by
  cases h with
  | createFailed =>
    refine iff_of_true (right_of_failed rfl (by decide) ?_) ?_
    · intro ⟨records, hwrites, _⟩
      cases hwrites
    · intro ⟨r, hr, _⟩
      simp at hr
  | @headerFailed header hheader =>
    refine iff_of_true (right_of_failed rfl (by decide) ?_) ?_
    · intro ⟨records, hwrites, _⟩
      have hhead : Action.header header = .header headerSize := head_eq_of_cons_eq hwrites
      cases hhead
      exact hheader rfl
    · intro ⟨r, hr, _⟩
      simp at hr
  | @recordFailed records r hbefore hr hlast =>
    have hevents : finalEvents (writing m records ++
        [.record r, .closed, .event m .recordWriteError]) = [(m, .recordWriteError)] := by
      rw [finalEvents_writing]
      rfl
    refine iff_of_true (right_of_failed hevents (by decide) ?_) ?_
    · exact not_fullyWritten_of_record hr rfl
    · intro ⟨r', hmem, hlast', _⟩
      rcases mem_append.1 hmem with hold | hnew
      · have hnot := (hbefore r' (mem_writing.1 hold)).2
        rw [hnot] at hlast'
        cases hlast'
      · obtain rfl : r' = r := by simpa using hnew
        rw [hlast] at hlast'
        cases hlast'
  | @complete records hthrough =>
    refine iff_of_true ⟨.complete, ?_, ?_⟩ ?_
    · rw [finalEvents_writing]
      rfl
    · refine iff_of_true rfl ⟨records, ?_, hthrough⟩
      rw [writes_writing]
      exact append_nil _
    · intro ⟨r, hmem, _, hr⟩
      rcases mem_append.1 hmem with hold | hnew
      · exact hr (hthrough.1 r (mem_writing.1 hold))
      · simp at hnew
  | @lastFailed records r hbefore hr hlast =>
    refine iff_of_false ?_ (not_not.2 ⟨r, ?_, hlast, hr⟩)
    · -- there are two final events
      intro ⟨e, hevents, _⟩
      rw [append_assoc, finalEvents_writing] at hevents
      cases hevents
    · simp

end Ended

/-! ## The invariant -/

/-- The request that a call works on. -/
def Pc.target : Pc → Option Nat
  | .opening slot _ => some slot
  | .looping slot _ _ => some slot
  | .finishing slot _ => some slot
  | _ => none

/-- The requests in the ring are those that were accepted and are not done. -/
structure DumpInv (s : Sys) (queue : List MetaId) : Prop where
  accepted : s.accepted = s.sessions.map Session.metaId ++ queue
  queued : Queued s.dump queue
  count : s.dump.completeCount < 2 ^ 32
  nodup : queue.Nodup
  pending : ∀ m, s.pending m = true ↔ m ∈ queue
  asking : ∀ m ∈ s.asking, s.pending m = false
  askingNodup : s.asking.Nodup
  slot : ∀ slot ∈ s.pc.target, slot = slotOf s.dump.completeCount
  stage : Stage queue.head? s.pc s.dump.fd s.actions
  sessions : ∀ session ∈ s.sessions, Ended session.metaId session.actions

theorem dumpInv_init : DumpInv Sys.init [] where
  accepted := rfl
  queued := ⟨by decide, rfl, fun i m hi => by simp at hi⟩
  count := by decide
  nodup := nodup_nil
  pending := fun m => by simp [Sys.init]
  asking := fun m hm => absurd hm not_mem_nil
  askingNodup := nodup_nil
  slot := fun slot hslot => by cases hslot
  stage := .idle
  sessions := fun session hsession => absurd hsession not_mem_nil

theorem pending_of_precheck {pending : MetaId → Bool} {r : Request}
    (h : precheck pending r = .success) : pending r.metaId = false := by
  unfold precheck at h
  split_ifs at h with hset hname hpending
  exact Bool.eq_false_of_not_eq_true hpending

section Steps

variable {s : Sys} {queue : List MetaId} {m : MetaId} {slot : Nat}

/-- Another request does not change the head of a ring that is being worked on. -/
theorem Stage.push {pc : Pc} {fd : Bool} {actions : List Action}
    (h : Stage queue.head? pc fd actions) : Stage (queue ++ [m]).head? pc fd actions := by
  cases queue with
  | nil =>
    cases h with
    | idle => exact .idle
    | paused hm | fetched hm | resumed hm | writing hm | last hm | failed hm | lastFailed hm
    | pausing hm | ended hm => cases hm
  | cons => exact h

namespace DumpInv

section

variable (h : DumpInv s queue)
include h

theorem ask {r : Request} (halone : r.metaId ∉ s.asking) : DumpInv (s.ask r) queue := by
  unfold Sys.ask
  by_cases hcheck : precheck s.pending r = .success
  · rw [if_pos hcheck]
    exact { h with
      asking := by
        intro m hm
        rcases mem_cons.1 hm with rfl | hold
        · exact pending_of_precheck hcheck
        · exact h.asking m hold
      askingNodup := nodup_cons.2 ⟨halone, h.askingNodup⟩ }
  · rw [if_neg hcheck]
    exact h

theorem commit (hm : m ∈ s.asking) : ∃ queue', DumpInv (s.commit m) queue' := by
  have herase : ∀ m' ∈ s.asking.erase m, m' ∈ s.asking := fun m' hm' => mem_of_mem_erase hm'
  unfold Sys.commit
  by_cases hfull : uint32 (s.dump.requestCount + 1) =
      uint32 (s.dump.completeCount + maxBackgroundFileWrites)
  · rw [if_pos hfull]
    exact ⟨queue, { h with
      asking := fun m' hm' => h.asking m' (herase m' hm')
      askingNodup := h.askingNodup.erase m }⟩
  rw [if_neg hfull]
  have hroom : queue.length + 1 < maxBackgroundFileWrites := by
    have hlen := h.queued.length
    have hne : ¬queue.length + 1 = maxBackgroundFileWrites :=
      fun heq => hfull (h.queued.full_iff.2 heq)
    omega
  have hnew : m ∉ queue := by
    intro hmem
    have hpending := (h.pending m).2 hmem
    rw [h.asking m hm] at hpending
    cases hpending
  exact ⟨queue ++ [m], { h with
    accepted := by
      show s.accepted ++ [m] = _
      rw [h.accepted, append_assoc]
    queued := h.queued.push hroom
    nodup := by
      rw [nodup_append]
      refine ⟨h.nodup, nodup_singleton m, ?_⟩
      intro a ha b hb hab
      rw [mem_singleton.1 hb] at hab
      exact hnew (hab ▸ ha)
    pending := by
      intro m'
      show update s.pending m true m' = true ↔ _
      by_cases heq : m' = m
      · subst heq
        simp
      · rw [update_of_ne heq, h.pending m', mem_append, mem_singleton]
        simp [heq]
    asking := by
      intro m' hm'
      have hne : m' ≠ m := by
        intro heq
        exact h.askingNodup.not_mem_erase (heq ▸ hm')
      show update s.pending m true m' = false
      rw [update_of_ne hne]
      exact h.asking m' (herase m' hm')
    askingNodup := h.askingNodup.erase m
    stage := h.stage.push }⟩

theorem fetch (elapsedTime : Nat) (hpc : s.pc = .outside) :
    DumpInv (s.fetch elapsedTime) queue := by
  unfold Sys.fetch
  by_cases hempty : s.dump.completeCount = s.dump.requestCount
  · rw [if_pos hempty]
    exact { h with queued := h.queued.congr rfl rfl rfl }
  rw [if_neg hempty]
  -- the ring has a head, and its entry holds it
  obtain ⟨m, rest, rfl⟩ : ∃ m rest, queue = m :: rest :=
    exists_cons_of_ne_nil fun hnil => hempty ((h.queued.empty_iff h.count).2 hnil)
  have hentry : s.dump.entries (slotOf s.dump.completeCount) = some m := h.queued.slots 0 m rfl
  have hstage := h.stage
  rw [hpc] at hstage
  dsimp only
  rw [hentry, elim_some]
  exact { h with
    queued := h.queued.congr rfl rfl rfl
    slot := by
      intro slot hslot
      exact (mem_some.1 hslot).symm
    stage := by
      show Stage _ (.opening _ m) s.dump.fd s.actions
      generalize s.dump.fd = fd at hstage ⊢
      generalize s.actions = actions at hstage ⊢
      cases hstage with
      | idle => exact .fetched rfl
      | paused hm hbefore =>
        cases hm
        exact .resumed rfl hbefore }

/-- The steps of a call change nothing but the file, the actions and the place in the call. -/
theorem working {dump : FileDump} {pc : Pc} {actions : List Action}
    (hring : dump.requestCount = s.dump.requestCount ∧
      dump.completeCount = s.dump.completeCount ∧ dump.entries = s.dump.entries)
    (hpc : pc.target = s.pc.target) (hstage : Stage queue.head? pc dump.fd actions) :
    DumpInv { s with dump := dump, pc := pc, actions := actions } queue :=
  { h with
    queued := h.queued.congr hring.1 hring.2.1 hring.2.2
    count := by
      show dump.completeCount < _
      rw [hring.2.1]
      exact h.count
    slot := by
      intro slot hslot
      show slot = slotOf dump.completeCount
      rw [hring.2.1]
      exact h.slot slot (hpc ▸ hslot)
    stage := hstage }

theorem openFile (create header : Int) (hpc : s.pc = .opening slot m) :
    DumpInv (s.openFile slot m create header) queue := by
  have hstage := h.stage
  have htarget : (Pc.looping slot m false).target = s.pc.target := by rw [hpc]; rfl
  rw [hpc] at hstage
  unfold Sys.openFile
  generalize hfd : s.dump.fd = fd at hstage
  generalize hactions : s.actions = actions at hstage
  cases hstage with
  | fetched hm =>
    have hpending : s.pending m = true := (h.pending m).2 (mem_of_mem_head? hm)
    rw [if_pos ⟨rfl, hpending⟩]
    split_ifs with hcreate hheader
    · refine h.working ⟨rfl, rfl, rfl⟩ htarget ?_
      rw [hfd]
      exact .failed hm .createFailed
    · refine h.working ⟨rfl, rfl, rfl⟩ htarget ?_
      rw [hfd]
      exact .failed hm (.headerFailed hheader)
    refine h.working ⟨rfl, rfl, rfl⟩ htarget ?_
    have hwriting : ([] : List Action) ++ [.opened m, .header header] = Fs.writing m [] := by
      rw [not_not.1 hheader]
      rfl
    rw [hwriting]
    exact .writing hm fun r hr => absurd hr not_mem_nil
  | @resumed _ _ records hm hbefore =>
    rw [if_neg (fun hc => Bool.noConfusion hc.1), ← hactions]
    refine h.working ⟨rfl, rfl, rfl⟩ htarget ?_
    rw [hfd, hactions]
    exact .writing hm hbefore

theorem writeRecord (r : Record) (hpc : s.pc = .looping slot m false) (hopen : s.dump.fd = true) :
    DumpInv (s.writeRecord slot m r) queue := by
  have hstage := h.stage
  have htarget : (Pc.looping slot m r.isLast).target = s.pc.target := by rw [hpc]; rfl
  rw [hpc, hopen] at hstage
  unfold Sys.writeRecord
  generalize hactions : s.actions = actions at hstage
  cases hstage with
  | @writing _ _ records hm hbefore =>
    by_cases hfailed : r.data ≠ [] ∧ r.written ≠ r.data.length
    · have hr : ¬r.Full := by
        intro hfull
        rcases hfull with hnil | hall
        · exact hfailed.1 hnil
        · exact hfailed.2 hall
      rw [if_pos hfailed]
      refine h.working ⟨rfl, rfl, rfl⟩ htarget ?_
      cases hlast : r.isLast with
      | false => exact .failed hm (.recordFailed hbefore hr hlast)
      | true => exact .lastFailed hm hbefore hr hlast
    have hr : r.Full := by
      by_cases hnil : r.data = []
      · exact .inl hnil
      · exact .inr (not_not.1 fun hne => hfailed ⟨hnil, hne⟩)
    have happend : Fs.writing m records ++ [.record r] = Fs.writing m (records ++ [r]) := by
      simp [Fs.writing]
    rw [if_neg hfailed, happend]
    refine h.working ⟨rfl, rfl, rfl⟩ htarget ?_
    show Stage _ _ s.dump.fd _
    rw [hopen]
    cases hlast : r.isLast with
    | false =>
      apply Stage.writing hm
      intro r' hr'
      rcases mem_append.1 hr' with hold | hnew
      · exact hbefore r' hold
      · rw [mem_singleton.1 hnew]
        exact ⟨hr, hlast⟩
    | true =>
      apply Stage.last hm
      refine ⟨?_, records, r, rfl, hlast, fun r' hr' => (hbefore r' hr').2⟩
      intro r' hr'
      rcases mem_append.1 hr' with hold | hnew
      · exact (hbefore r' hold).1
      · rw [mem_singleton.1 hnew]
        exact hr

theorem leave {isEOF : Bool} (hpc : s.pc = .looping slot m isEOF) :
    DumpInv (s.leave slot m isEOF) queue := by
  have hstage := h.stage
  have htarget : (Pc.finishing slot m).target = s.pc.target := by rw [hpc]; rfl
  rw [hpc] at hstage
  unfold Sys.leave
  generalize hfd : s.dump.fd = fd at hstage
  generalize hactions : s.actions = actions at hstage
  cases hstage with
  | writing hm hbefore =>
    rw [if_neg Bool.false_ne_true, ← hactions]
    refine h.working ⟨rfl, rfl, rfl⟩ htarget ?_
    rw [hfd, hactions]
    exact .pausing hm hbefore
  | last hm hthrough =>
    exact h.working ⟨rfl, rfl, rfl⟩ htarget (.ended hm (.complete hthrough))
  | failed hm hended =>
    rw [if_neg Bool.false_ne_true, ← hactions]
    refine h.working ⟨rfl, rfl, rfl⟩ htarget ?_
    rw [hfd, hactions]
    exact .ended hm hended
  | lastFailed hm hbefore hr hlast =>
    exact h.working ⟨rfl, rfl, rfl⟩ htarget (.ended hm (.lastFailed hbefore hr hlast))

theorem finish (hpc : s.pc = .finishing slot m) : ∃ queue', DumpInv (s.finish slot m) queue' := by
  have hstage := h.stage
  have hslot : slot = slotOf s.dump.completeCount := h.slot slot (by rw [hpc]; rfl)
  rw [hpc] at hstage
  unfold Sys.finish
  generalize hfd : s.dump.fd = fd at hstage
  generalize hactions : s.actions = actions at hstage
  cases hstage with
  | pausing hm hbefore =>
    rw [if_neg Bool.noConfusion, ← hactions]
    exact ⟨queue, { h with
      slot := by
        intro slot hslot
        cases hslot
      stage := by
        show Stage _ .outside s.dump.fd s.actions
        rw [hfd, hactions]
        exact .paused hm hbefore }⟩
  | ended hm hended =>
    obtain ⟨rest, rfl⟩ : ∃ rest, queue = m :: rest := head?_eq_some_iff.1 hm
    rw [if_pos rfl, hslot]
    have hnodup := nodup_cons.1 h.nodup
    refine ⟨rest, ?_⟩
    exact { h with
      accepted := by
        show s.accepted = (s.sessions ++ [(⟨m, actions⟩ : Session)]).map Session.metaId ++ rest
        rw [h.accepted, map_append, append_assoc]
        rfl
      queued := h.queued.pop
      count := Nat.mod_lt _ (by decide)
      nodup := hnodup.2
      pending := by
        intro m'
        show update s.pending m false m' = true ↔ _
        by_cases heq : m' = m
        · subst heq
          simp [hnodup.1]
        · rw [update_of_ne heq, h.pending m', mem_cons]
          simp [heq]
      asking := by
        intro m' hm'
        show update s.pending m false m' = false
        by_cases heq : m' = m
        · rw [heq, update_self]
        · rw [update_of_ne heq]
          exact h.asking m' hm'
      slot := by
        intro slot hslot
        cases hslot
      stage := by
        show Stage _ .outside s.dump.fd []
        rw [hfd]
        exact .idle
      sessions := by
        intro session hsession
        rcases mem_append.1 hsession with hold | hnew
        · exact h.sessions session hold
        · rw [mem_singleton.1 hnew]
          exact hended }

/-- An event keeps the invariant. -/
theorem step {e : DumpEvent} {s' : Sys} (halone : s.Alone e) (hstep : s.step e s.pc = some s') :
    ∃ queue', DumpInv s' queue' := by
  cases e with
  | ask r =>
    obtain rfl : s.ask r = s' := Option.some.inj hstep
    exact ⟨queue, h.ask halone⟩
  | commit =>
    obtain ⟨hm, hsome⟩ := ite_none_right_eq_some.1 hstep
    obtain rfl := Option.some.inj hsome
    exact h.commit hm
  | fetch elapsedTime =>
    generalize hpc : s.pc = pc at hstep
    cases pc with
    | outside =>
      obtain rfl : s.fetch elapsedTime = s' := Option.some.inj hstep
      exact ⟨queue, h.fetch elapsedTime hpc⟩
    | opening | looping | finishing | crashed => cases hstep
  | openFile create header =>
    generalize hpc : s.pc = pc at hstep
    cases pc with
    | opening slot m =>
      obtain rfl : s.openFile slot m create header = s' := Option.some.inj hstep
      exact ⟨queue, h.openFile create header hpc⟩
    | outside | looping | finishing | crashed => cases hstep
  | writeRecord r =>
    generalize hpc : s.pc = pc at hstep
    cases pc with
    | looping slot m isEOF =>
      cases isEOF with
      | true => cases hstep
      | false =>
        obtain ⟨hopen, hsome⟩ := ite_none_right_eq_some.1 hstep
        obtain rfl := Option.some.inj hsome
        exact ⟨queue, h.writeRecord r hpc hopen.1⟩
    | outside | opening | finishing | crashed => cases hstep
  | leave =>
    generalize hpc : s.pc = pc at hstep
    cases pc with
    | looping =>
      obtain ⟨-, hsome⟩ := ite_none_left_eq_some.1 hstep
      obtain rfl := Option.some.inj hsome
      exact ⟨queue, h.leave hpc⟩
    | outside | opening | finishing | crashed => cases hstep
  | finish =>
    generalize hpc : s.pc = pc at hstep
    cases pc with
    | finishing slot m =>
      obtain rfl : s.finish slot m = s' := Option.some.inj hstep
      exact h.finish hpc
    | outside | opening | looping | crashed => cases hstep

end

end DumpInv

end Steps

theorem DumpRun.inv {events : List DumpEvent} {s : Sys} (h : DumpRun events s) :
    ∃ queue, DumpInv s queue := by
  induction h with
  | init => exact ⟨[], dumpInv_init⟩
  | step _ halone hstep ih =>
    obtain ⟨queue, hinv⟩ := ih
    exact hinv.step halone hstep

/-- In every run the requests are worked on once each, in the order they were accepted; a
pending flag is set from then until the request is done; every file is closed. A request ends
with exactly one final event, which says complete if and only if everything was written, if
and only if it is not its last record that could not be written. -/
theorem fileDump_sessions {events : List DumpEvent} {s : Sys} (h : DumpRun events s) :
    s.sessions.map Session.metaId <+: s.accepted ∧
      (∀ m, s.pending m = true ↔ m ∈ s.accepted.drop s.sessions.length) ∧
      s.pc ≠ .crashed ∧
      ∀ session ∈ s.sessions, fileOpen session.actions = false ∧
        (session.Right ↔ ¬session.LastWriteFailed) := by
  obtain ⟨queue, hinv⟩ := h.inv
  have hdrop : s.accepted.drop s.sessions.length = queue := by
    rw [hinv.accepted]
    exact drop_left' (length_map _)
  refine ⟨⟨queue, hinv.accepted.symm⟩, ?_, ?_, ?_⟩
  · rw [hdrop]
    exact hinv.pending
  · intro hcrashed
    have hstage := hinv.stage
    rw [hcrashed] at hstage
    cases hstage
  · intro session hsession
    have hended := hinv.sessions session hsession
    exact ⟨hended.fileOpen, hended.right_iff⟩

/-! ## Two runs -/

instance (s : Sys) (e : DumpEvent) : Decidable (s.Alone e) := by
  cases e with
  | ask r => exact inferInstanceAs (Decidable (r.metaId ∉ s.asking))
  | commit | fetch | openFile | writeRecord | leave | finish => exact instDecidableTrue

/-- The events one after the other, as far as they can happen. -/
def Sys.exec (s : Sys) : List DumpEvent → Option Sys
  | [] => some s
  | e :: events => if s.Alone e then (s.step e s.pc).bind fun s' => s'.exec events else none

theorem DumpRun.of_exec {events : List DumpEvent} :
    ∀ {before : List DumpEvent} {s s' : Sys}, DumpRun before s → s.exec events = some s' →
      DumpRun (before ++ events) s' := by
  induction events with
  | nil =>
    intro before s s' h hexec
    obtain rfl : s = s' := Option.some.inj hexec
    rwa [append_nil]
  | cons e events ih =>
    intro before s s' h hexec
    obtain ⟨halone, hsome⟩ := ite_none_right_eq_some.1 hexec
    obtain ⟨s₁, hstep, hrest⟩ := bind_eq_some_iff.1 hsome
    have hrun := ih (h.step halone hstep) hrest
    rwa [append_assoc] at hrun

/-- While a file of two records is written, a second file is asked for. It cannot be created. -/
def twoRequests : List DumpEvent :=
  [.ask ⟨0, true, true, [0x61]⟩, .commit 0, .fetch 1000, .openFile 0 64,
    .writeRecord ⟨false, [1], 1⟩, .ask ⟨1, true, true, [0x62]⟩, .commit 1,
    .writeRecord ⟨true, [2], 1⟩, .leave, .finish, .fetch 1000, .openFile (-1) 0, .leave, .finish]

/-- Both are done, in this order, and each has its event. -/
theorem fileDump_two_requests : ∃ s, DumpRun twoRequests s ∧ s.accepted = [0, 1] ∧
      s.sessions.map (fun session => finalEvents session.actions) =
        [[(0, .complete)], [(1, .createError)]] ∧
      (∀ m, s.pending m = false) ∧ ∀ session ∈ s.sessions, session.Right := by
  have hexec : (Sys.init.exec twoRequests).map (fun s => (s.accepted, s.sessions)) =
      some ([0, 1], [⟨0, [.opened 0, .header 64, .record ⟨false, [1], 1⟩, .record ⟨true, [2], 1⟩,
        .closed, .event 0 .complete]⟩, ⟨1, [.event 1 .createError]⟩]) := by
    decide +kernel
  obtain ⟨s, hs, hlists⟩ := map_eq_some_iff.1 hexec
  obtain ⟨haccepted, hsessions⟩ := Prod.mk.inj hlists
  have hrun := DumpRun.init.of_exec hs
  obtain ⟨-, hpending, -, hdone⟩ := fileDump_sessions hrun
  refine ⟨s, hrun, haccepted, by rw [hsessions]; rfl, ?_, ?_⟩
  · intro m
    rw [Bool.eq_false_iff, Ne, hpending, haccepted, hsessions]
    exact not_mem_nil
  · intro session hsession
    apply (hdone session hsession).2.2
    rw [hsessions] at hsession
    rintro ⟨r, hr, -, hfull⟩
    apply hfull
    have hfirst : Record.Full ⟨false, [1], 1⟩ := .inr rfl
    have hlast : Record.Full ⟨true, [2], 1⟩ := .inr rfl
    simp only [mem_cons, not_mem_nil, or_false] at hsession
    rcases hsession with rfl | rfl
    · simp only [mem_cons, not_mem_nil, or_false, reduceCtorEq, false_or, Action.record.injEq] at hr
      rcases hr with rfl | rfl
      · exact hfirst
      · exact hlast
    · simp at hr

/-- A request for a file with one record, and one call. -/
def oneRecord (r : Record) : List DumpEvent :=
  [.ask ⟨0, true, true, [0x61]⟩, .commit 0, .fetch 1000, .openFile 0 64, .writeRecord r, .leave,
    .finish]

/-- The write of the only record fails: there are two final events, and the second one says
that the file is complete. -/
theorem fileDump_two_events : ∃ s, DumpRun (oneRecord ⟨true, [1], -1⟩) s ∧
      s.sessions.map (fun session => finalEvents session.actions) =
        [[(0, .recordWriteError), (0, .complete)]] := by
  have hexec : ((Sys.init.exec (oneRecord ⟨true, [1], -1⟩)).map fun s =>
      s.sessions.map fun session => finalEvents session.actions) =
      some [[(0, .recordWriteError), (0, .complete)]] := by
    decide +kernel
  obtain ⟨s, hs, hevents⟩ := map_eq_some_iff.1 hexec
  exact ⟨s, DumpRun.init.of_exec hs, hevents⟩

end CfsEds.Fs
