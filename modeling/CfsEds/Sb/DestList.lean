import CfsEds.Lib.DoublyLinked
import CfsEds.Sb.BusReceive

/-!
# The destination lists with their pointers

A route has its destinations in a doubly linked list of blocks from the memory pool of the
bus. `CFE_SB_AddDestNode` inserts at the head, `CFE_SB_RemoveDestNode` takes out a node at
any place, and `CFE_SB_DeletePipeFull` does so in every route for the pipe it deletes.
`CfsEds.Sb.Bus` has plain lists in this place (`addDest`, `removeDest`, `sendToDests`).

A pointer is the offset of a block in the memory of the pool. The pool may give any block
that is not in use, so memory is used again after a removal. As in `Bus`, an action is one
section under the lock, and the task remembers the rest of its call. `CFE_SB_CreatePipe` is
here too: it reserves an entry of the pipe table, and makes the queue between its sections.

A loop over a list has the number of blocks as fuel, and an action without enough fuel has
no result. The statistics but `SubscriptionsInUse` are left out, and so are the events.
-/

namespace CfsEds.Sb

open CfsEds.Es CfsEds.Lib.DoublyLinked CfsEds.Lib.Memory

/-! ## Data -/

/-- The configuration of the routing, with the limits of `cfe_sb_verify.h`. -/
structure DestConfig extends SbConfig where
  bufMemoryBytes : Nat
  hdestPos : 1 ≤ maxDestPerPkt
  hmemory : bufMemoryBytes ≤ 0xffffffff

/-- `CFE_SB_DestinationD_t` -/
structure DestNode where
  dest : Dest
  prev : Option Nat
  next : Option Nat
deriving DecidableEq, Repr, Inhabited

/-- `CFE_SBR_RouteEntry_t` without its sequence counter. -/
structure RouteHead where
  msgId : Nat
  listHeadPtr : Option Nat
deriving DecidableEq, Repr, Inhabited

/-- The fields of `CFE_SB_PipeD_t` that say whose the entry is. -/
structure PipeSlot where
  pipeId : Nat
  appId : Nat
deriving DecidableEq, Repr, Inhabited

/-- Where a task is in its call. -/
inductive PipeCall where
  | idle
  | creating (index pendingPipeId : Nat)
  | deleting (index : Nat) (rest : Option (Nat × List Nat))
  | cleaning (appId : Nat) (delList : List Nat)
deriving DecidableEq, Repr, Inhabited

/-- The routing table, the pipe table, the memory of the nodes with the blocks in use, and
the tasks with the application and the call of each. -/
structure Routing where
  node : Nat → DestNode
  blocks : List Nat
  routes : List RouteHead
  pipes : List PipeSlot
  lastPipeId : Nat
  subscriptionsInUse : Nat
  app : Nat → Nat
  call : Nat → PipeCall

namespace Routing

def next (s : Routing) (a : Nat) : Option Nat := (s.node a).next

def prev (s : Routing) (a : Nat) : Option Nat := (s.node a).prev

def pipe (s : Routing) (i : Nat) : PipeSlot := s.pipes.getD i default

/-- `CFE_SBR_GetDestListHeadPtr` -/
def listHead (s : Routing) (r : Nat) : Option Nat := (s.routes.getD r default).listHeadPtr

/-- `CFE_SBR_SetDestListHeadPtr` -/
def setListHead (s : Routing) (r : Nat) (destPtr : Option Nat) : Routing :=
  { s with routes := s.routes.modify r fun x => { x with listHeadPtr := destPtr } }

def setNode (s : Routing) (a : Nat) (x : DestNode) : Routing :=
  { s with node := Function.update s.node a x }

def setPrev (s : Routing) (a : Nat) (p : Option Nat) : Routing :=
  s.setNode a { s.node a with prev := p }

def setNext (s : Routing) (a : Nat) (p : Option Nat) : Routing :=
  s.setNode a { s.node a with next := p }

def modifyPipe (s : Routing) (i : Nat) (f : PipeSlot → PipeSlot) : Routing :=
  { s with pipes := s.pipes.modify i f }

def setCall (s : Routing) (t : Nat) (call : PipeCall) : Routing :=
  { s with call := Function.update s.call t call }

end Routing

variable {cfg : DestConfig} {s s' : Routing} {a b r t u i n pipeId : Nat}

/-! ## The lists -/

/-- `CFE_SB_AddDestNode` -/
def addDestNode (s : Routing) (r newNode : Nat) : Routing :=
  let s' := match s.listHead r with
    | none => (s.setNext newNode none).setPrev newNode none
    | some wbs => ((s.setNext newNode (some wbs)).setPrev newNode none).setPrev wbs (some newNode)
  s'.setListHead r (some newNode)

/-- `CFE_SB_RemoveDestNode` -/
def removeDestNode (s : Routing) (r nodeToRemove : Nat) : Routing :=
  let s' := match s.prev nodeToRemove, s.next nodeToRemove with
    | none, none => s.setListHead r none
    | none, some nextNode => (s.setPrev nextNode none).setListHead r (some nextNode)
    | some prevNode, none => s.setNext prevNode none
    | some prevNode, some nextNode =>
      (s.setNext prevNode (some nextNode)).setPrev nextNode (some prevNode)
  (s'.setNext nodeToRemove none).setPrev nodeToRemove none

/-- `CFE_SB_RemoveDest`, on the links and the memory. -/
def removeDestPtr (s : Routing) (r destPtr : Nat) : Routing :=
  let s' := removeDestNode s r destPtr
  { s' with
    blocks := s'.blocks.erase destPtr
    subscriptionsInUse := uint32 (s'.subscriptionsInUse + 2 ^ 32 - 1) }

/-- `CFE_SB_GetDestPtr` -/
def getDestPtr (s : Routing) (r pipeId : Nat) : Option (Option Nat) :=
  walk s.next (fun a => (s.node a).dest.pipeId = pipeId) (s.blocks.length + 1) (s.listHead r)

/-- What `CFE_SB_SubscribeFull` finds in the list. -/
inductive Scan where
  | absent
  | duplicate
  | limitReached
deriving DecidableEq, Repr

/-- The loop of `CFE_SB_SubscribeFull` over the list. -/
def scanDests (maxDestPerPkt : Nat) (s : Routing) (pipeId : Nat) :
    Nat → Option Nat → Nat → Option Scan
  | 0, _, _ => none
  | _ + 1, none, _ => some .absent
  | n + 1, some a, destCount =>
    let destCount := uint32 (destCount + 1)
    if (s.node a).dest.pipeId = pipeId then some .duplicate
    else if destCount ≥ maxDestPerPkt then some .limitReached
    else scanDests maxDestPerPkt s pipeId n (s.next a) destCount

/-- The node that `CFE_SB_SubscribeFull` adds, in a block from the pool. -/
def addNewDest (s : Routing) (r block : Nat) (dest : Dest) : Routing :=
  let s' := addDestNode ({ s with blocks := block :: s.blocks }.setNode block ⟨dest, none, none⟩) r
    block
  { s' with subscriptionsInUse := uint32 (s'.subscriptionsInUse + 1) }

/-- `CFE_SB_RemovePipeFromRoute` -/
def removePipeFromRoute (s : Routing) (pipeId r : Nat) : Option Routing :=
  (getDestPtr s r pipeId).map fun destPtr => destPtr.elim s (removeDestPtr s r)

/-- `CFE_SBR_ForEachRouteId` with this callback, for the first `n` routes. -/
def removePipeFromRoutes (s : Routing) (pipeId : Nat) : Nat → Option Routing
  | 0 => some s
  | n + 1 => (removePipeFromRoutes s pipeId n).bind fun s => removePipeFromRoute s pipeId n

/-- The loop of `CFE_SB_BroadcastBufferToRoute` over the list: the nodes, the events and
the bus after it. -/
def sendToNodes (cfg : SbConfig) (appId b : Nat) :
    Nat → (Nat → DestNode) → Option Nat → Bus →
      Option (((Nat → DestNode) × List (Nat × SendErr)) × Bus)
  | 0, _, _, _ => none
  | _ + 1, node, none, bus => some ((node, []), bus)
  | n + 1, node, some a, bus =>
    let d := (node a).dest
    let result := (if d.active then matchPipe cfg bus d.pipeId else none).elim ((d, none), bus)
      (sendToPipe bus appId b d)
    let node' := Function.update node a { node a with dest := result.1.1 }
    (sendToNodes cfg appId b n node' (node a).next result.2).map fun rest =>
      ((rest.1.1, result.1.2.toList ++ rest.1.2), rest.2)

/-! ## Pipes -/

/-- `CFE_SB_LocatePipeDescByID` and `CFE_SB_PipeDescIsMatch` -/
def matchSlot (cfg : DestConfig) (s : Routing) (pipeId : Nat) : Option Nat :=
  (locatePipeDescByID cfg.toSbConfig pipeId).filter fun i => (s.pipe i).pipeId = pipeId

/-- `CFE_SB_CheckPipeDescSlotUsed` -/
def checkPipeDescSlotUsed (cfg : DestConfig) (s : Routing) (checkId : Nat) : Bool :=
  (locatePipeDescByID cfg.toSbConfig checkId).elim true fun i => (s.pipe i).pipeId ≠ 0

/-- `CFE_SB_CreatePipe`, the first section. -/
def createPipe (cfg : DestConfig) (s : Routing) (t : Nat) : Option Routing :=
  if s.call t = .idle then
    let pendingPipeId := resourceIdFindNext s.lastPipeId cfg.maxPipes (checkPipeDescSlotUsed cfg s)
    some ((locatePipeDescByID cfg.toSbConfig pendingPipeId).elim s fun i =>
      { s.modifyPipe i (fun _ => ⟨resourceIdReserved, 0⟩) with lastPipeId := pendingPipeId }.setCall t
        (.creating i pendingPipeId))
  else none

/-- `CFE_SB_CreatePipe`, the last section, after `OS_QueueCreate`. -/
def finishPipe (s : Routing) (t : Nat) (queueOk : Bool) : Option Routing :=
  match s.call t with
  | .creating i pendingPipeId =>
    if queueOk then
      some ((s.modifyPipe i fun _ => ⟨pendingPipeId, s.app t⟩).setCall t .idle)
    else some ((s.modifyPipe i fun p => { p with pipeId := 0 }).setCall t .idle)
  | _ => none

/-- What follows a deletion: the rest of a clean-up, or nothing. -/
def PipeCall.after : Option (Nat × List Nat) → PipeCall
  | none => .idle
  | some (appId, delList) => .cleaning appId delList

/-- `CFE_SB_DeletePipeFull`, the first section. -/
def deletePipeSection (cfg : DestConfig) (s : Routing) (t pipeId appId : Nat)
    (rest : Option (Nat × List Nat)) : Option Routing :=
  ((matchSlot cfg s pipeId).filter fun i => (s.pipe i).appId = appId).elim
    (some (s.setCall t (.after rest)))
    fun i => (removePipeFromRoutes s pipeId s.routes.length).map fun s =>
      (s.modifyPipe i fun p => { p with pipeId := resourceIdReserved }).setCall t (.deleting i rest)

/-- `CFE_SB_DeletePipeFull`, the last section. -/
def freeSlot (s : Routing) (t : Nat) : Option Routing :=
  match s.call t with
  | .deleting i rest =>
    some ((s.modifyPipe i fun p => { p with pipeId := 0 }).setCall t (.after rest))
  | _ => none

/-- `CFE_SB_CleanUpApp`, the section that collects the pipes. -/
def collectPipes (s : Routing) (t appId : Nat) : Option Routing :=
  if s.call t = .idle then
    let delList := (s.pipes.filter fun p => p.pipeId ≠ 0 && p.appId = appId).map PipeSlot.pipeId
    some (s.setCall t (.cleaning appId delList))
  else none

/-- `CFE_SB_CleanUpApp`, the next pipe of the list, or the end. -/
def deleteCollected (cfg : DestConfig) (s : Routing) (t : Nat) : Option Routing :=
  match s.call t with
  | .cleaning appId (pipeId :: delList) =>
    deletePipeSection cfg s t pipeId appId (some (appId, delList))
  | .cleaning _ [] => some (s.setCall t .idle)
  | _ => none

/-! ## Subscriptions -/

/-- `CFE_SBR_GetRouteId` -/
def findRoute (cfg : DestConfig) (s : Routing) (msgId : Nat) : Option Nat :=
  if isValidMsgId cfg.toSbConfig msgId then s.routes.findIdx? fun x => x.msgId = msgId else none

/-- `CFE_SBR_AddRoute`, if there is no route yet. -/
def addRouteHead (cfg : DestConfig) (s : Routing) (msgId : Nat) : Routing :=
  if (findRoute cfg s msgId).isNone ∧ s.routes.length < cfg.maxMsgIds then
    { s with routes := s.routes ++ [⟨msgId, none⟩] }
  else s

/-- The pipe is one of the caller, and the other arguments are valid. -/
def SubscribeArgsOk (cfg : DestConfig) (s : Routing) (t msgId pipeId scope : Nat) : Prop :=
  (∃ i ∈ matchSlot cfg s pipeId, (s.pipe i).appId = s.app t) ∧
    isValidMsgId cfg.toSbConfig msgId = true ∧ scope ≤ 1

instance {msgId scope : Nat} : Decidable (SubscribeArgsOk cfg s t msgId pipeId scope) :=
  inferInstanceAs (Decidable (_ ∧ _))

/-- `CFE_SB_SubscribeFull`. The pool gives `block`, or nothing. -/
def subscribeFull (cfg : DestConfig) (s : Routing) (t msgId pipeId msgLim scope : Nat)
    (block : Option Nat) : Option Routing :=
  if s.call t = .idle ∧ ∀ a ∈ block, a ∉ s.blocks ∧ a < cfg.bufMemoryBytes then
    if SubscribeArgsOk cfg s t msgId pipeId scope then
      let s := addRouteHead cfg s msgId
      (findRoute cfg s msgId).elim (some s) fun r =>
        (scanDests cfg.maxDestPerPkt s pipeId (s.blocks.length + 1) (s.listHead r) 0).map fun scan =>
          match scan, block with
          | .absent, some a => addNewDest s r a (newDest pipeId msgLim scope)
          | _, _ => s
    else some s
  else none

/-- `CFE_SB_UnsubscribeFull` -/
def unsubscribeFull (cfg : DestConfig) (s : Routing) (t msgId pipeId scope : Nat) :
    Option Routing :=
  if s.call t = .idle then
    if SubscribeArgsOk cfg s t msgId pipeId scope then
      (findRoute cfg s msgId).elim (some s) fun r => removePipeFromRoute s pipeId r
    else some s
  else none

/-! ## Actions -/

inductive RoutingAction where
  | createPipe (task : Nat)
  | finishPipe (task : Nat) (queueOk : Bool)
  | deletePipe (task pipeId : Nat)
  | freeSlot (task : Nat)
  | collectPipes (task appId : Nat)
  | deleteCollected (task : Nat)
  | subscribe (task msgId pipeId msgLim scope : Nat) (block : Option Nat)
  | unsubscribe (task msgId pipeId scope : Nat)
deriving DecidableEq, Repr

/-- One action; `none` when it is not the task's turn to do it. -/
def routingStep (cfg : DestConfig) (s : Routing) : RoutingAction → Option Routing
  | .createPipe t => createPipe cfg s t
  | .finishPipe t queueOk => finishPipe s t queueOk
  | .deletePipe t pipeId =>
    if s.call t = .idle then deletePipeSection cfg s t pipeId (s.app t) none else none
  | .freeSlot t => freeSlot s t
  | .collectPipes t appId => collectPipes s t appId
  | .deleteCollected t => deleteCollected cfg s t
  | .subscribe t msgId pipeId msgLim scope block =>
    subscribeFull cfg s t msgId pipeId msgLim scope block
  | .unsubscribe t msgId pipeId scope => unsubscribeFull cfg s t msgId pipeId scope

/-- After `CFE_SB_EarlyInit`. -/
structure RoutingInit (cfg : DestConfig) (s : Routing) : Prop where
  blocks : s.blocks = []
  routes : s.routes = []
  pipes : s.pipes = List.replicate cfg.maxPipes default
  lastPipeId : s.lastPipeId = pipeIdBase
  subscriptionsInUse : s.subscriptionsInUse = 0
  idle : ∀ t, s.call t = .idle

/-- The states that can be reached. -/
inductive RoutingRun (cfg : DestConfig) : Routing → Prop where
  | init {s : Routing} (h : RoutingInit cfg s) : RoutingRun cfg s
  | step {s s' : Routing} {action : RoutingAction} (h : RoutingRun cfg s)
      (hstep : routingStep cfg s action = some s') : RoutingRun cfg s'

/-! ## The links after a change -/

section Links

variable {x : Nat} {p : Option Nat}

theorem apply_setNode {β : Type} {y : DestNode} (g : DestNode → β) :
    g ((s.setNode a y).node x) = if x = a then g y else g (s.node x) :=
  (congrArg g (Function.update_apply ..)).trans (apply_ite g ..)

theorem apply_setNode_of_eq {β : Type} {y : DestNode} (g : DestNode → β)
    (hy : g y = g (s.node a)) : g ((s.setNode a y).node x) = g (s.node x) := by
  rw [apply_setNode g]
  split_ifs with hx
  · rw [hx, hy]
  · rfl

@[simp] theorem next_setNext : (s.setNext a p).next x = if x = a then p else s.next x :=
  apply_setNode DestNode.next

@[simp] theorem prev_setNext : (s.setNext a p).prev x = s.prev x :=
  apply_setNode_of_eq DestNode.prev rfl

@[simp] theorem next_setPrev : (s.setPrev a p).next x = s.next x :=
  apply_setNode_of_eq DestNode.next rfl

@[simp] theorem prev_setPrev : (s.setPrev a p).prev x = if x = a then p else s.prev x :=
  apply_setNode DestNode.prev

@[simp] theorem dest_setNext : ((s.setNext a p).node x).dest = (s.node x).dest :=
  apply_setNode_of_eq DestNode.dest rfl

@[simp] theorem dest_setPrev : ((s.setPrev a p).node x).dest = (s.node x).dest :=
  apply_setNode_of_eq DestNode.dest rfl

@[simp] theorem next_setListHead : (s.setListHead r p).next x = s.next x := rfl

@[simp] theorem prev_setListHead : (s.setListHead r p).prev x = s.prev x := rfl


theorem listHead_setListHead (hr : r < s.routes.length) :
    (s.setListHead r p).listHead n = if n = r then p else s.listHead n := by
  unfold Routing.listHead Routing.setListHead
  by_cases hn : n = r
  · subst hn
    rw [if_pos rfl]
    exact congrArg RouteHead.listHeadPtr (Lib.RefCount.getD_modify_self hr)
  · rw [if_neg hn]
    exact congrArg RouteHead.listHeadPtr (Lib.RefCount.getD_modify_of_ne hn)

/-- Everything but the links stays, and the routes keep their message IDs. -/
structure Relinked (s s' : Routing) : Prop where
  dest : ∀ x, (s'.node x).dest = (s.node x).dest
  blocks : s'.blocks = s.blocks
  pipes : s'.pipes = s.pipes
  msgIds : s'.routes.map RouteHead.msgId = s.routes.map RouteHead.msgId
  subscriptionsInUse : s'.subscriptionsInUse = s.subscriptionsInUse
  call : s'.call = s.call
  app : s'.app = s.app
  lastPipeId : s'.lastPipeId = s.lastPipeId

theorem Relinked.trans {s'' : Routing} (h : Relinked s s') (h' : Relinked s' s'') :
    Relinked s s'' where
  dest x := (h'.dest x).trans (h.dest x)
  blocks := h'.blocks.trans h.blocks
  pipes := h'.pipes.trans h.pipes
  msgIds := h'.msgIds.trans h.msgIds
  subscriptionsInUse := h'.subscriptionsInUse.trans h.subscriptionsInUse
  call := h'.call.trans h.call
  app := h'.app.trans h.app
  lastPipeId := h'.lastPipeId.trans h.lastPipeId

theorem relinked_setNext : Relinked s (s.setNext a p) :=
  ⟨fun _ => dest_setNext, rfl, rfl, rfl, rfl, rfl, rfl, rfl⟩

theorem relinked_setPrev : Relinked s (s.setPrev a p) :=
  ⟨fun _ => dest_setPrev, rfl, rfl, rfl, rfl, rfl, rfl, rfl⟩

theorem map_msgId_modifyHead {l : List RouteHead} {f : RouteHead → RouteHead}
    (hid : ∀ x, (f x).msgId = x.msgId) :
    (l.modify r f).map RouteHead.msgId = l.map RouteHead.msgId := by
  induction l generalizing r with
  | nil => simp
  | cons x l ih =>
    cases r with
    | zero => simp [hid]
    | succ => simp [ih]

theorem relinked_setListHead : Relinked s (s.setListHead r p) :=
  ⟨fun _ => rfl, rfl, rfl, map_msgId_modifyHead fun _ => rfl, rfl, rfl, rfl, rfl⟩

theorem addDestNode_relinked : Relinked s (addDestNode s r a) := by
  unfold addDestNode
  split
  · exact (relinked_setNext.trans relinked_setPrev).trans relinked_setListHead
  · exact ((relinked_setNext.trans relinked_setPrev).trans relinked_setPrev).trans
      relinked_setListHead

theorem removeDestNode_relinked : Relinked s (removeDestNode s r a) := by
  unfold removeDestNode
  split
  · exact (relinked_setListHead.trans relinked_setNext).trans relinked_setPrev
  · exact ((relinked_setPrev.trans relinked_setListHead).trans relinked_setNext).trans
      relinked_setPrev
  · exact (relinked_setNext.trans relinked_setNext).trans relinked_setPrev
  · exact ((relinked_setNext.trans relinked_setPrev).trans relinked_setNext).trans relinked_setPrev

/-- The links of the other nodes after `CFE_SB_AddDestNode`, and those of the new one. -/
theorem addDestNode_links (ha : s.listHead r ≠ some a) :
    (addDestNode s r a).next a = s.listHead r ∧ (addDestNode s r a).prev a = none ∧
      ∀ x, x ≠ a → (addDestNode s r a).next x = s.next x ∧
        (addDestNode s r a).prev x = if s.listHead r = some x then some a else s.prev x := by
  unfold addDestNode
  cases hhead : s.listHead r with
  | none => simp +contextual
  | some wbs =>
    have hne : a ≠ wbs := by
      rintro rfl
      exact ha hhead
    simp +contextual [hne, eq_comm]

theorem listHead_addDestNode (hr : r < s.routes.length) :
    (addDestNode s r a).listHead n = if n = r then some a else s.listHead n := by
  unfold addDestNode
  cases s.listHead r with
  | none | some wbs => exact listHead_setListHead hr

/-- The links of the other nodes after `CFE_SB_RemoveDestNode`: the four cases of the
source are one. -/
theorem removeDestNode_links (hx : x ≠ a) :
    (removeDestNode s r a).next x = (if s.prev a = some x then s.next a else s.next x) ∧
      (removeDestNode s r a).prev x = if s.next a = some x then s.prev a else s.prev x := by
  unfold removeDestNode
  cases hprev : s.prev a with
  | none =>
    cases hnext : s.next a with
    | none => simp [hx]
    | some => simp [hx, eq_comm]
  | some =>
    cases hnext : s.next a with
    | none | some nextNode => simp [hx, eq_comm]

theorem listHead_removeDestNode (hr : r < s.routes.length) : (removeDestNode s r a).listHead n =
      if n = r ∧ s.prev a = none then s.next a else s.listHead n := by
  unfold removeDestNode
  cases hprev : s.prev a with
  | none =>
    cases hnext : s.next a with
    | none => exact (listHead_setListHead hr).trans (by simp)
    | some nextNode =>
      exact (listHead_setListHead (s := s.setPrev nextNode none) hr).trans (by simp; rfl)
  | some =>
    cases hnext : s.next a with
    | none | some nextNode => simp; rfl

/-! A node for a new destination -/

variable {dest : Dest}

theorem addNewDest_relinked : Relinked ({ s with
      blocks := a :: s.blocks
      subscriptionsInUse := uint32 (s.subscriptionsInUse + 1) }.setNode a ⟨dest, none, none⟩)
    (addNewDest s r a dest) := by
  have h := @addDestNode_relinked
    ({ s with blocks := a :: s.blocks }.setNode a ⟨dest, none, none⟩) a r
  exact ⟨h.dest, h.blocks, h.pipes, h.msgIds,
    congrArg (fun n => uint32 (n + 1)) h.subscriptionsInUse, h.call, h.app, h.lastPipeId⟩

theorem dest_addNewDest : ((addNewDest s r a dest).node x).dest =
    if x = a then dest else (s.node x).dest :=
  (addNewDest_relinked.dest x).trans (apply_setNode DestNode.dest)

theorem addNewDest_links (ha : s.listHead r ≠ some a) :
    (addNewDest s r a dest).next a = s.listHead r ∧ (addNewDest s r a dest).prev a = none ∧
      ∀ x, x ≠ a → (addNewDest s r a dest).next x = s.next x ∧
        (addNewDest s r a dest).prev x = if s.listHead r = some x then some a else s.prev x := by
  obtain ⟨hnexta, hpreva, hothers⟩ := @addDestNode_links
    ({ s with blocks := a :: s.blocks }.setNode a ⟨dest, none, none⟩) a r ha
  refine ⟨hnexta, hpreva, fun x hx => ?_⟩
  obtain ⟨hnext, hprev⟩ := hothers x hx
  refine ⟨hnext.trans ((apply_setNode DestNode.next).trans (if_neg hx)), hprev.trans ?_⟩
  exact if_congr Iff.rfl rfl ((apply_setNode DestNode.prev).trans (if_neg hx))

end Links

end CfsEds.Sb
