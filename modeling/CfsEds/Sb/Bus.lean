import CfsEds.Es.ResourceId

/-!
# The software bus

`cfe_sb_api.c`, `cfe_sb_buf.c` and `cfe_sb_priv.c`: messages are sent in buffers from
a memory pool, and a pipe is an OSAL queue of pointers to them. A buffer has a use
count and goes back to the pool when the count becomes zero.

The calls run in tasks. A call takes the lock on the shared data one or more times
and works outside of it in between, so it is cut here into the parts that other tasks
can see as one: an `Action` is one section under the lock, one queue operation, or one
access to a buffer without the lock. What a task remembers between two parts (its
local variables) is its `Pc`. A run is a sequence of actions of any tasks in any order.

A buffer is named by the allocation that made it. The pool may hand out the memory of
a returned buffer again, which is then a new name, so that a use of the old name is a
use after free. Whether the pool has a buffer is a parameter of the action.

The destination list of a route is a list here; `CfsEds.Sb.DestList` has the pointers.
Queues never fail but when they are full or empty. A call that is given a null pointer
does nothing. The error counters and statistics that no call reads are left out, and so
is the list of buffers in transit, which nothing reads. Sending an event may send a
message in turn; it is a call like any other, made by the same or another task.
-/

namespace CfsEds.Sb

open CfsEds.Es CfsEds.Lib.Memory

/-! ## Data -/

/-- `CFE_MSG_Type_t` -/
inductive MsgType where
  | invalid
  | cmd
  | tlm
deriving DecidableEq, Repr, Inhabited

/-- A message: what the bus reads from the header, and the rest. -/
structure Message where
  msgId : Nat
  type : MsgType
  sequence : Nat
  size : Nat
  body : List (BitVec 8)
deriving DecidableEq, Repr, Inhabited

/-- `CFE_MSG_SetSequenceCount` -/
def Message.setSequenceCount (m : Message) (seqCnt : Nat) : Message :=
  if seqCnt > 0x3fff then m else { m with sequence := seqCnt }

/-- `CFE_MSG_GetNextSequenceCount` -/
def getNextSequenceCount (seqCnt : Nat) : Nat := (seqCnt + 1) &&& 0x3fff

/-- `CFE_SB_BufferD_t`. The last field counts the calls of `CFE_ES_PutPoolBuf`. -/
structure BufferD where
  msgId : Nat
  appId : Nat
  contentSize : Nat
  contentType : MsgType
  autoSequence : Bool
  useCount : Nat
  content : Message
  returns : Nat
deriving DecidableEq, Repr, Inhabited

/-- `CFE_SB_PipeD_t` -/
structure PipeD where
  pipeId : Nat
  ignoreMine : Bool
  appId : Nat
  sysQueueId : Nat
  currentQueueDepth : Nat
  peakQueueDepth : Nat
  lastBuffer : Option Nat
deriving DecidableEq, Repr, Inhabited

/-- An OSAL queue of buffer pointers. -/
structure OsQueue where
  depth : Nat
  items : List Nat
deriving DecidableEq, Repr, Inhabited

/-- `CFE_SB_DestinationD_t` without its links. -/
structure Dest where
  pipeId : Nat
  active : Bool
  msgId2PipeLim : Nat
  buffCount : Nat
  destCnt : Nat
  scope : Nat
deriving DecidableEq, Repr, Inhabited

/-- `CFE_SBR_RouteEntry_t` -/
structure Route where
  msgId : Nat
  seqCnt : Nat
  dests : List Dest
deriving DecidableEq, Repr, Inhabited

/-- The errors of a delivery that are reported by an event. -/
inductive SendErr where
  | msgIdLimErr
  | qFullErr
deriving DecidableEq, Repr, Inhabited

/-- Where a task is in its call, with the local variables. `reporting` has the pipes
and errors that events are still to be sent for. Deletions carry the rest of the work
of a `CFE_SB_CleanUpApp` they are part of. -/
inductive Pc where
  | idle
  | transmitValidated (msg : Message) (incrementSequenceCount : Bool) (routeId : Option Nat)
  | transmitAllocated (msg : Message) (incrementSequenceCount : Bool) (routeId buf : Nat)
  | transmitFilled (msg : Message) (routeId buf : Nat)
  | reporting (buf : Nat) (events : List (Nat × SendErr))
  | bufferAllocated (buf : Nat)
  | zeroCopyValidated (incrementSequenceCount : Bool) (buf : Nat)
  | zeroCopyRouted (routeId : Option Nat) (buf : Nat)
  | releaseValidated (buf : Nat)
  | receiveWaiting (pipeId index sysQueueId : Nat)
  | receiveHolding (pipeId index buf : Nat)
  | deleteDraining (index sysQueueId : Nat) (buf : Option Nat) (rest : Option (Nat × List Nat))
  | deleteDrained (index : Nat) (rest : Option (Nat × List Nat))
  | cleaning (appId : Nat) (delList : List Nat)
deriving DecidableEq, Repr, Inhabited

structure Task where
  appId : Nat
  pc : Pc
deriving DecidableEq, Repr

instance : Inhabited Task := ⟨⟨0, .idle⟩⟩

/-- The shared data, the queues and the tasks. `handles` are the zero copy buffers that
the code of an application has got from `CFE_SB_AllocateMessageBuffer` and may use: it has
neither sent nor released them, nor lost them in its clean-up. -/
structure Bus where
  bufs : List BufferD
  zeroCopyList : List Nat
  handles : List (Nat × Nat)
  pipes : List PipeD
  queues : List OsQueue
  routes : List Route
  tasks : List Task
deriving DecidableEq, Repr

/-- The platform configuration. The use counter of a buffer is large enough for its
destinations. -/
structure SbConfig where
  maxPipes : Nat
  maxDestPerPkt : Nat
  maxMsgIds : Nat
  highestValidMsgId : Nat
  maxSbMsgSize : Nat
  hpipes : 0 < maxPipes ∧ maxPipes ≤ resourceIdMax
  hdest : maxDestPerPkt + 2 ≤ 0x7fff

namespace Bus

def buf (s : Bus) (b : Nat) : BufferD := s.bufs.getD b default

def pipe (s : Bus) (i : Nat) : PipeD := s.pipes.getD i default

def queue (s : Bus) (q : Nat) : OsQueue := s.queues.getD q default

def route (s : Bus) (r : Nat) : Route := s.routes.getD r default

def app (s : Bus) (t : Nat) : Nat := (s.tasks.getD t default).appId

def pc (s : Bus) (t : Nat) : Pc := (s.tasks.getD t default).pc

def modifyBuf (s : Bus) (b : Nat) (f : BufferD → BufferD) : Bus :=
  { s with bufs := s.bufs.modify b f }

def modifyPipe (s : Bus) (i : Nat) (f : PipeD → PipeD) : Bus :=
  { s with pipes := s.pipes.modify i f }

def modifyQueue (s : Bus) (q : Nat) (f : OsQueue → OsQueue) : Bus :=
  { s with queues := s.queues.modify q f }

def modifyRoute (s : Bus) (r : Nat) (f : Route → Route) : Bus :=
  { s with routes := s.routes.modify r f }

def setPc (s : Bus) (t : Nat) (pc : Pc) : Bus :=
  { s with tasks := s.tasks.modify t fun task => { task with pc := pc } }

/-- The task is there and in no call. -/
def Idle (s : Bus) (t : Nat) : Prop := t < s.tasks.length ∧ s.pc t = .idle

instance (s : Bus) (t : Nat) : Decidable (s.Idle t) := inferInstanceAs (Decidable (_ ∧ _))

end Bus

/-! ## Buffers -/

/-- `CFE_SB_GetBufferFromPool`, when the pool has one. -/
def getBufferFromPool (s : Bus) : Nat × Bus :=
  (s.bufs.length, { s with bufs := s.bufs ++
    [{ msgId := 0, appId := 0, contentSize := 0, contentType := .invalid, autoSequence := false
       useCount := 1, content := default, returns := 0 }] })

/-- `CFE_SB_ReturnBufferToPool` -/
def returnBufferToPool (s : Bus) (b : Nat) : Bus :=
  { s.modifyBuf b fun d => { d with returns := d.returns + 1 } with
    zeroCopyList := s.zeroCopyList.erase b }

/-- `CFE_SB_IncrBufUseCnt` -/
def incrBufUseCnt (s : Bus) (b : Nat) : Bus :=
  if (s.buf b).useCount < 0x7fff then
    s.modifyBuf b fun d => { d with useCount := d.useCount + 1 }
  else s

/-- `CFE_SB_DecrBufUseCnt` -/
def decrBufUseCnt (s : Bus) (b : Nat) : Bus :=
  if (s.buf b).useCount > 0 then
    let s := s.modifyBuf b fun d => { d with useCount := d.useCount - 1 }
    if (s.buf b).useCount = 0 then returnBufferToPool s b else s
  else s

/-! ## Routes and pipes -/

/-- `CFE_SB_PIPEID_BASE`: the mark bit, and object type `OS_OBJECT_TYPE_USER + 6`. -/
def pipeIdBase : Nat := 0x02160000

/-- `CFE_RESOURCEID_RESERVED` -/
def resourceIdReserved : Nat := 0xffffffff

/-- `CFE_SB_LocatePipeDescByID` -/
def locatePipeDescByID (cfg : SbConfig) (pipeId : Nat) : Option Nat :=
  resourceIdToIndex pipeId pipeIdBase cfg.maxPipes

/-- `CFE_SB_LocatePipeDescByID` and `CFE_SB_PipeDescIsMatch` -/
def matchPipe (cfg : SbConfig) (s : Bus) (pipeId : Nat) : Option Nat :=
  (locatePipeDescByID cfg pipeId).filter fun i => (s.pipe i).pipeId = pipeId

/-- `CFE_SB_IsValidMsgId` -/
def isValidMsgId (cfg : SbConfig) (msgId : Nat) : Bool :=
  msgId ≠ 0 && msgId ≤ cfg.highestValidMsgId

/-- `CFE_SBR_GetRouteId` -/
def getRouteId (cfg : SbConfig) (s : Bus) (msgId : Nat) : Option Nat :=
  if isValidMsgId cfg msgId then s.routes.findIdx? fun r => r.msgId = msgId else none

/-- A change to the destination that `CFE_SB_GetDestPtr` finds. -/
def updateDest (pipeId : Nat) (f : Dest → Dest) : List Dest → List Dest
  | [] => []
  | d :: rest => if d.pipeId = pipeId then f d :: rest else d :: updateDest pipeId f rest

/-- `CFE_SB_RemoveDest` of the destination that `CFE_SB_GetDestPtr` finds. -/
def removeDest (pipeId : Nat) (dests : List Dest) : List Dest :=
  dests.eraseP fun d => d.pipeId = pipeId

/-! ## Sending -/

/-- `OS_QueuePut`; `none` when the queue is full. -/
def osQueuePut (s : Bus) (q b : Nat) : Option Bus :=
  if (s.queue q).items.length < (s.queue q).depth then
    some (s.modifyQueue q fun queue => { queue with items := queue.items ++ [b] })
  else none

/-- The message is counted at the pipe that has got it. -/
def PipeD.countUp (p : PipeD) : PipeD :=
  let depth := uint16 (p.currentQueueDepth + 1)
  { p with currentQueueDepth := depth
           peakQueueDepth := if depth ≥ p.peakQueueDepth then depth else p.peakQueueDepth }

/-- The body of the loop over the destinations, for the pipe of one that is active: the
destination, the error to report if any, and the new state. -/
def sendToPipe (s : Bus) (appId b : Nat) (d : Dest) (i : Nat) :
    (Dest × Option (Nat × SendErr)) × Bus :=
  if (s.pipe i).ignoreMine ∧ (s.pipe i).appId = appId then ((d, none), s)
  else if d.buffCount ≥ d.msgId2PipeLim then ((d, some (d.pipeId, .msgIdLimErr)), s)
  else
    match osQueuePut s (s.pipe i).sysQueueId b with
    | none => ((d, some (d.pipeId, .qFullErr)), s)
    | some s =>
      (({ d with buffCount := uint16 (d.buffCount + 1), destCnt := uint16 (d.destCnt + 1) }, none),
        (incrBufUseCnt s b).modifyPipe i PipeD.countUp)

/-- The loop over the destinations. -/
def sendToDests (cfg : SbConfig) (s : Bus) (appId b : Nat) :
    List Dest → (List Dest × List (Nat × SendErr)) × Bus
  | [] => (([], []), s)
  | d :: rest =>
    let r := (if d.active then matchPipe cfg s d.pipeId else none).elim ((d, none), s)
      (sendToPipe s appId b d)
    let r' := sendToDests cfg r.2 appId b rest
    ((r.1.1 :: r'.1.1, r.1.2.toList ++ r'.1.2), r'.2)

/-- The sequence count is set in telemetry that asks for it. -/
def setSequence (s : Bus) (r b : Nat) : Bus :=
  if (s.buf b).autoSequence ∧ (s.buf b).contentType = .tlm then
    let s := s.modifyRoute r fun x => { x with seqCnt := getNextSequenceCount x.seqCnt }
    s.modifyBuf b fun d => { d with content := d.content.setSequenceCount (s.route r).seqCnt }
  else s

/-- `CFE_SB_BroadcastBufferToRoute`, the section under the lock: the events to send, and
the new state. -/
def broadcastBufferToRoute (cfg : SbConfig) (s : Bus) (appId b : Nat) (routeId : Option Nat) :
    List (Nat × SendErr) × Bus :=
  let sent := match routeId with
    | none => ([], s)
    | some r =>
      let s := setSequence s r b
      let result := sendToDests cfg s appId b (s.route r).dests
      (result.1.2, result.2.modifyRoute r fun x => { x with dests := result.1.1 })
  let s := { sent.2 with zeroCopyList := sent.2.zeroCopyList.erase b }
  (sent.1, decrBufUseCnt (s.modifyBuf b fun d => { d with appId := 0 }) b)

/-- `CFE_SB_TransmitMsgValidate`: whether the message is valid, and its route. -/
def transmitMsgValidate (cfg : SbConfig) (s : Bus) (msg : Message) : Option (Option Nat) :=
  if isValidMsgId cfg msg.msgId = false ∨ msg.size > cfg.maxSbMsgSize then none
  else some (getRouteId cfg s msg.msgId)

/-! ## Actions -/

/-- One step of the task `task`, or a stop of an application. -/
inductive Action where
  | transmitMsg (task : Nat) (msg : Message) (incrementSequenceCount : Bool)
  | getBuffer (task : Nat) (poolOk : Bool)
  | fillBuffer (task : Nat)
  | broadcast (task : Nat)
  | reportEvent (task : Nat) (granted : Bool)
  | allocateMessageBuffer (task msgSize : Nat) (poolOk : Bool)
  | clearBuffer (task : Nat)
  | writeBuffer (task buf : Nat) (msg : Message)
  | transmitBuffer (task buf : Nat) (incrementSequenceCount : Bool)
  | routeBuffer (task : Nat)
  | releaseMessageBuffer (task buf : Nat)
  | releaseBuffer (task : Nat)
  | receiveBuffer (task pipeId : Nat)
  | queueGet (task : Nat)
  | storeBuffer (task : Nat)
  | deletePipe (task pipeId : Nat)
  | drainPipe (task : Nat)
  | freePipe (task : Nat)
  | cleanUpApp (task appId : Nat)
  | cleanUpPipe (task : Nat)
  | zeroCopyRelease (task : Nat)
  | stopApp (appId : Nat)
  | subscribe (task msgId pipeId msgLim scope : Nat)
  | unsubscribe (task msgId pipeId scope : Nat)
  | setRoute (msgId pipeId : Nat) (active : Bool)
deriving DecidableEq, Repr

/-- `CFE_SB_TransmitMsg`, the check of the message and of its route. -/
def transmitMsg (cfg : SbConfig) (s : Bus) (t : Nat) (msg : Message)
    (incrementSequenceCount : Bool) : Option Bus :=
  if s.Idle t then
    match transmitMsgValidate cfg s msg with
    | none => some s
    | some routeId => some (s.setPc t (.transmitValidated msg incrementSequenceCount routeId))
  else none

/-- `CFE_SB_TransmitMsg`, the section that gets a buffer. -/
def getBuffer (s : Bus) (t : Nat) (poolOk : Bool) : Option Bus :=
  match s.pc t with
  | .transmitValidated msg incrementSequenceCount (some r) =>
    if poolOk then
      let (b, s) := getBufferFromPool s
      some (s.setPc t (.transmitAllocated msg incrementSequenceCount r b))
    else some (s.setPc t .idle)
  | .transmitValidated _ _ none => some (s.setPc t .idle)
  | _ => none

/-- `CFE_SB_TransmitMsg`, the copy of the message into the buffer. -/
def fillBuffer (s : Bus) (t : Nat) : Option Bus :=
  match s.pc t with
  | .transmitAllocated msg incrementSequenceCount r b =>
    some ((s.modifyBuf b fun d =>
      { d with content := msg, msgId := msg.msgId, contentSize := msg.size
               autoSequence := incrementSequenceCount, contentType := msg.type }).setPc t
      (.transmitFilled msg r b))
  | _ => none

/-- What is left to do after the broadcast. -/
def reportPc (b : Nat) : List (Nat × SendErr) → Pc
  | [] => .idle
  | e :: events => .reporting b (e :: events)

/-- `CFE_SB_BroadcastBufferToRoute` in a task. -/
def broadcast (cfg : SbConfig) (s : Bus) (t : Nat) : Option Bus :=
  match s.pc t with
  | .transmitFilled _ r b =>
    let (events, s') := broadcastBufferToRoute cfg s (s.app t) b (some r)
    some (s'.setPc t (reportPc b events))
  | .zeroCopyRouted routeId b =>
    let (events, s') := broadcastBufferToRoute cfg s (s.app t) b routeId
    some (s'.setPc t (reportPc b events))
  | _ => none

/-- The events for the errors of a broadcast, one at a time. The text of an event has the
`MsgId` of the descriptor, when `CFE_SB_RequestToSendEvent` grants it. -/
def reportEvent (s : Bus) (t : Nat) : Option Bus :=
  match s.pc t with
  | .reporting b (_ :: events) => some (s.setPc t (reportPc b events))
  | _ => none

/-- `CFE_SB_AllocateMessageBuffer`, the section under the lock. -/
def allocateMessageBuffer (cfg : SbConfig) (s : Bus) (t msgSize : Nat) (poolOk : Bool) :
    Option Bus :=
  if s.Idle t then
    if msgSize > cfg.maxSbMsgSize ∨ poolOk = false then some s
    else
      let appId := s.app t
      let (b, s) := getBufferFromPool s
      let s := s.modifyBuf b fun d => { d with appId := appId }
      some ({ s with zeroCopyList := s.zeroCopyList ++ [b] }.setPc t (.bufferAllocated b))
  else none

/-- `CFE_SB_AllocateMessageBuffer`, the `memset`; the application has its buffer. -/
def clearBuffer (s : Bus) (t : Nat) : Option Bus :=
  match s.pc t with
  | .bufferAllocated b =>
    let s' := s.modifyBuf b fun d => { d with content := default }
    some ({ s' with handles := (s.app t, b) :: s'.handles }.setPc t .idle)
  | _ => none

/-- The application fills the buffer. -/
def writeBuffer (s : Bus) (t b : Nat) (msg : Message) : Option Bus :=
  if s.Idle t ∧ (s.app t, b) ∈ s.handles then
    some (s.modifyBuf b fun d => { d with content := msg })
  else none

/-- `CFE_SB_TransmitBuffer`, the call of `CFE_SB_ZeroCopyBufferValidate`. That the caller has
the buffer is not checked there: it is the contract of the call, which `cfe_sb.h` states as
that a buffer is not used again once it has been sent or released. -/
def transmitBuffer (s : Bus) (t b : Nat) (incrementSequenceCount : Bool) : Option Bus :=
  if s.Idle t ∧ (s.app t, b) ∈ s.handles then
    if (s.buf b).appId = 0 then some s
    else some ({ s with handles := s.handles.erase (s.app t, b) }.setPc t
      (.zeroCopyValidated incrementSequenceCount b))
  else none

/-- `CFE_SB_TransmitBuffer`, the check of the message. The ID and the size are stored in
the descriptor on the way; when the check fails the application keeps the buffer. -/
def routeBuffer (cfg : SbConfig) (s : Bus) (t : Nat) : Option Bus :=
  match s.pc t with
  | .zeroCopyValidated incrementSequenceCount b =>
    let msg := (s.buf b).content
    let s' := s.modifyBuf b fun d => { d with
      msgId := msg.msgId
      contentSize := if isValidMsgId cfg msg.msgId then msg.size else d.contentSize }
    match transmitMsgValidate cfg s msg with
    | none => some ({ s' with handles := (s.app t, b) :: s'.handles }.setPc t .idle)
    | some routeId =>
      some ((s'.modifyBuf b fun d => { d with
        autoSequence := incrementSequenceCount, contentType := msg.type }).setPc t
        (.zeroCopyRouted routeId b))
  | _ => none

/-- `CFE_SB_ReleaseMessageBuffer`, the call of `CFE_SB_ZeroCopyBufferValidate`, under the same
contract. -/
def releaseMessageBuffer (s : Bus) (t b : Nat) : Option Bus :=
  if s.Idle t ∧ (s.app t, b) ∈ s.handles then
    if (s.buf b).appId = 0 then some s
    else some ({ s with handles := s.handles.erase (s.app t, b) }.setPc t (.releaseValidated b))
  else none

/-- `CFE_SB_ReleaseMessageBuffer`, the section under the lock. -/
def releaseBuffer (s : Bus) (t : Nat) : Option Bus :=
  match s.pc t with
  | .releaseValidated b =>
    some ((decrBufUseCnt (s.modifyBuf b fun d => { d with appId := 0 }) b).setPc t .idle)
  | _ => none

/-! ## Receiving -/

/-- The pipe that a task is receiving from. -/
def Pc.receiving : Pc → Option Nat
  | .receiveWaiting pipeId _ _ => some pipeId
  | .receiveHolding pipeId _ _ => some pipeId
  | _ => none

/-- `CFE_SB_ReceiveBuffer`, the first section: the previous buffer of the pipe is given
up. One task at a time receives from a pipe. -/
def receiveBuffer (cfg : SbConfig) (s : Bus) (t pipeId : Nat) : Option Bus :=
  if s.Idle t ∧ ∀ task ∈ s.tasks, task.pc.receiving ≠ some pipeId then
    (matchPipe cfg s pipeId).elim (some s) fun i =>
      let s' := match (s.pipe i).lastBuffer with
        | none => s
        | some b => (decrBufUseCnt s b).modifyPipe i fun p => { p with lastBuffer := none }
      some (s'.setPc t (.receiveWaiting pipeId i (s.pipe i).sysQueueId))
  else none

/-- `CFE_SB_ReceiveBuffer`, the call of `OS_QueueGet`. On an empty queue the call ends
without a message. -/
def queueGet (s : Bus) (t : Nat) : Option Bus :=
  match s.pc t with
  | .receiveWaiting pipeId i q =>
    match (s.queue q).items with
    | [] => some (s.setPc t .idle)
    | b :: items =>
      some ((s.modifyQueue q fun queue => { queue with items := items }).setPc t
        (.receiveHolding pipeId i b))
  | _ => none

/-- The message is no longer counted at its destination. -/
def Dest.countDown (d : Dest) : Dest := { d with buffCount := d.buffCount - 1 }

/-- `CFE_SB_ReceiveBuffer`, the second section: the buffer is stored in the pipe, if that
is still the same one. -/
def storeBuffer (cfg : SbConfig) (s : Bus) (t : Nat) : Option Bus :=
  match s.pc t with
  | .receiveHolding pipeId i b =>
    if (s.pipe i).pipeId = pipeId then
      let s := (incrBufUseCnt s b).modifyPipe i fun p => { p with lastBuffer := some b }
      let s := match getRouteId cfg s (s.buf b).msgId with
        | none => s
        | some r => s.modifyRoute r fun x =>
            { x with dests := updateDest pipeId Dest.countDown x.dests }
      let s := s.modifyPipe i fun p => { p with currentQueueDepth := p.currentQueueDepth - 1 }
      some ((decrBufUseCnt s b).setPc t .idle)
    else some ((decrBufUseCnt s b).setPc t .idle)
  | _ => none

/-! ## Deletion -/

/-- `CFE_SB_DeletePipeFull`, the first section: the pipe leaves all routes and is
reserved. -/
def deletePipeFull (cfg : SbConfig) (s : Bus) (t pipeId appId : Nat)
    (rest : Option (Nat × List Nat)) : Option Bus :=
  (matchPipe cfg s pipeId).bind fun i =>
    if (s.pipe i).appId ≠ appId then none
    else
      let routes := s.routes.map fun r => { r with dests := removeDest pipeId r.dests }
      let s' := { s with routes := routes }.modifyPipe i fun p =>
        { p with pipeId := resourceIdReserved }
      some (s'.setPc t (.deleteDraining i (s.pipe i).sysQueueId (s.pipe i).lastBuffer rest))

/-- `CFE_SB_DeletePipe` -/
def deletePipe (cfg : SbConfig) (s : Bus) (t pipeId : Nat) : Option Bus :=
  if s.Idle t then some ((deletePipeFull cfg s t pipeId (s.app t) none).getD s) else none

/-- The loop of `CFE_SB_DeletePipeFull` that empties the queue. -/
def drainPipe (s : Bus) (t : Nat) : Option Bus :=
  match s.pc t with
  | .deleteDraining i q (some b) rest =>
    some ((decrBufUseCnt s b).setPc t (.deleteDraining i q none rest))
  | .deleteDraining i q none rest =>
    match (s.queue q).items with
    | [] => some (s.setPc t (.deleteDrained i rest))
    | b :: items =>
      some ((s.modifyQueue q fun queue => { queue with items := items }).setPc t
        (.deleteDraining i q (some b) rest))
  | _ => none

/-- What follows a deletion: the rest of a clean-up, or nothing. -/
def afterDelete : Option (Nat × List Nat) → Pc
  | none => .idle
  | some (appId, delList) => .cleaning appId delList

/-- `CFE_SB_DeletePipeFull`, the last section. -/
def freePipe (s : Bus) (t : Nat) : Option Bus :=
  match s.pc t with
  | .deleteDrained i rest =>
    some ((s.modifyPipe i fun p => { p with pipeId := 0 }).setPc t (afterDelete rest))
  | _ => none

/-- `CFE_SB_CleanUpApp`, the section that collects the pipes. -/
def cleanUpApp (s : Bus) (t appId : Nat) : Option Bus :=
  if s.Idle t then
    let delList := (s.pipes.filter fun p => p.pipeId ≠ 0 && p.appId = appId).map PipeD.pipeId
    some (s.setPc t (.cleaning appId delList))
  else none

/-- `CFE_SB_CleanUpApp`, the deletion of the next pipe. -/
def cleanUpPipe (cfg : SbConfig) (s : Bus) (t : Nat) : Option Bus :=
  match s.pc t with
  | .cleaning appId (pipeId :: delList) =>
    some ((deletePipeFull cfg s t pipeId appId (some (appId, delList))).getD
      (s.setPc t (.cleaning appId delList)))
  | _ => none

/-- `CFE_SB_ZeroCopyReleaseAppId`, on the list as it was at the start. -/
def zeroCopyReleaseAppId (s : Bus) (appId : Nat) : List Nat → Bus
  | [] => s
  | b :: rest =>
    zeroCopyReleaseAppId (if (s.buf b).appId = appId then decrBufUseCnt s b else s) appId rest

/-- The application has no zero copy buffers to use any more. -/
def Bus.disown (s : Bus) (appId : Nat) : Bus :=
  { s with handles := s.handles.filter fun h => h.1 ≠ appId }

/-- `CFE_SB_CleanUpApp`, the release of the zero copy buffers. The tasks of the application
may still exist, but it has lost the buffers that it held and does not use them again. -/
def zeroCopyRelease (s : Bus) (t : Nat) : Option Bus :=
  match s.pc t with
  | .cleaning appId [] =>
    let s' := if appId = 0 then s else zeroCopyReleaseAppId (s.disown appId) appId s.zeroCopyList
    some (s'.setPc t .idle)
  | _ => none

/-- The tasks of an application are deleted outside of a call. -/
def stopApp (s : Bus) (appId : Nat) : Option Bus :=
  if ∀ task ∈ s.tasks, task.appId = appId → task.pc = .idle then some (s.disown appId) else none

/-! ## Subscriptions -/

/-- The destination that `CFE_SB_SubscribeFull` adds. -/
def newDest (pipeId msgLim scope : Nat) : Dest where
  pipeId := pipeId
  active := true
  msgId2PipeLim := uint16 msgLim
  buffCount := 0
  destCnt := 0
  scope := scope

/-- `CFE_SB_SubscribeFull` on an existing route: nothing for a pipe that is there or when
the list is full, else a destination at the head. -/
def addDest (cfg : SbConfig) (pipeId msgLim scope : Nat) (dests : List Dest) : List Dest :=
  if dests.any (fun d => d.pipeId = pipeId) ∨ dests.length ≥ cfg.maxDestPerPkt then dests
  else newDest pipeId msgLim scope :: dests

/-- `CFE_SBR_AddRoute`, if there is no route yet. -/
def addRoute (cfg : SbConfig) (s : Bus) (msgId : Nat) : Bus :=
  if (getRouteId cfg s msgId).isNone ∧ s.routes.length < cfg.maxMsgIds then
    { s with routes := s.routes ++ [⟨msgId, 0, []⟩] }
  else s

/-- `CFE_SB_SubscribeFull` -/
def subscribe (cfg : SbConfig) (s : Bus) (t msgId pipeId msgLim scope : Nat) : Option Bus :=
  if s.Idle t then
    (matchPipe cfg s pipeId).elim (some s) fun i =>
      if (s.pipe i).appId ≠ s.app t ∨ isValidMsgId cfg msgId = false ∨ scope > 1 then some s
      else
        let s := addRoute cfg s msgId
        match getRouteId cfg s msgId with
        | none => some s
        | some r => some (s.modifyRoute r fun x =>
            { x with dests := addDest cfg pipeId msgLim scope x.dests })
  else none

/-- `CFE_SB_UnsubscribeFull` -/
def unsubscribe (cfg : SbConfig) (s : Bus) (t msgId pipeId scope : Nat) : Option Bus :=
  if s.Idle t then
    (matchPipe cfg s pipeId).elim (some s) fun i =>
      if (s.pipe i).appId ≠ s.app t ∨ isValidMsgId cfg msgId = false ∨ scope > 1 then some s
      else
        match getRouteId cfg s msgId with
        | none => some s
        | some r => some (s.modifyRoute r fun x => { x with dests := removeDest pipeId x.dests })
  else none

/-- `CFE_SB_EnableRouteCmd` and `CFE_SB_DisableRouteCmd` -/
def setRoute (cfg : SbConfig) (s : Bus) (msgId pipeId : Nat) (active : Bool) : Bus :=
  (matchPipe cfg s pipeId).elim s fun _ =>
    match getRouteId cfg s msgId with
    | none => s
    | some r => s.modifyRoute r fun x =>
        { x with dests := updateDest pipeId (fun d => { d with active := active }) x.dests }

/-- One action; `none` when it is not the task's turn to do it. -/
def step (cfg : SbConfig) (s : Bus) : Action → Option Bus
  | .transmitMsg t msg incrementSequenceCount => transmitMsg cfg s t msg incrementSequenceCount
  | .getBuffer t poolOk => getBuffer s t poolOk
  | .fillBuffer t => fillBuffer s t
  | .broadcast t => broadcast cfg s t
  | .reportEvent t _ => reportEvent s t
  | .allocateMessageBuffer t msgSize poolOk => allocateMessageBuffer cfg s t msgSize poolOk
  | .clearBuffer t => clearBuffer s t
  | .writeBuffer t b msg => writeBuffer s t b msg
  | .transmitBuffer t b incrementSequenceCount => transmitBuffer s t b incrementSequenceCount
  | .routeBuffer t => routeBuffer cfg s t
  | .releaseMessageBuffer t b => releaseMessageBuffer s t b
  | .releaseBuffer t => releaseBuffer s t
  | .receiveBuffer t pipeId => receiveBuffer cfg s t pipeId
  | .queueGet t => queueGet s t
  | .storeBuffer t => storeBuffer cfg s t
  | .deletePipe t pipeId => deletePipe cfg s t pipeId
  | .drainPipe t => drainPipe s t
  | .freePipe t => freePipe s t
  | .cleanUpApp t appId => cleanUpApp s t appId
  | .cleanUpPipe t => cleanUpPipe cfg s t
  | .zeroCopyRelease t => zeroCopyRelease s t
  | .stopApp appId => stopApp s appId
  | .subscribe t msgId pipeId msgLim scope => subscribe cfg s t msgId pipeId msgLim scope
  | .unsubscribe t msgId pipeId scope => unsubscribe cfg s t msgId pipeId scope
  | .setRoute msgId pipeId active => some (setRoute cfg s msgId pipeId active)

end CfsEds.Sb
