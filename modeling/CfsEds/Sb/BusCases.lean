import CfsEds.Sb.BusInv

/-!
# What one action can do

`Step` lists the outcomes of the actions of `CfsEds.Sb.Bus`, each with what the code has
tested before it. `step_cases` is the only place where the actions are taken apart: the
invariants look at the outcomes. Subscriptions are described further by
`subscribe_cases` and `unsubscribe_cases`.
-/

namespace CfsEds.Sb

open CfsEds.Es

/-- The route and the buffer of a call that is about to broadcast. -/
def Pc.sendsTo : Pc → Option (Option Nat × Nat)
  | .transmitFilled _ r b => some (some r, b)
  | .zeroCopyRouted routeId b => some (routeId, b)
  | _ => none

/-- The buffer of `CFE_SB_TransmitBuffer`, with what the check of the message stores in its
descriptor. -/
def stamped (cfg : SbConfig) (s : Bus) (b : Nat) : Bus :=
  s.modifyBuf b fun d => { d with
    msgId := (s.buf b).content.msgId
    contentSize := if isValidMsgId cfg (s.buf b).content.msgId then (s.buf b).content.size
      else d.contentSize }

/-- The task of an action that begins a call and may end it at once. -/
def Action.begins : Action → Option Nat
  | .transmitMsg t .. | .allocateMessageBuffer t .. | .transmitBuffer t ..
  | .releaseMessageBuffer t .. | .receiveBuffer t .. | .deletePipe t .. => some t
  | _ => none

/-- `CFE_SB_DeletePipeFull` has taken the pipe out of use. -/
def reserved (s : Bus) (pipeId i : Nat) : Bus :=
  Bus.modifyPipe
    { s with routes := s.routes.map fun r => { r with dests := removeDest pipeId r.dests } } i
    fun p => { p with pipeId := resourceIdReserved }

/-- An outcome of an action of the task `t`. -/
inductive Step (cfg : SbConfig) (s : Bus) (t : Nat) : Action → Bus → Prop where
  /-- the call ends at once -/
  | refused {action} (hcall : action.begins = some t) (hidle : s.Idle t) : Step cfg s t action s
  | validated {msg inc routeId} (hidle : s.Idle t)
      (hvalid : transmitMsgValidate cfg s msg = some routeId) :
      Step cfg s t (.transmitMsg t msg inc) (s.setPc t (.transmitValidated msg inc routeId))
  | noBuffer {poolOk msg inc routeId} (hpc : s.pc t = .transmitValidated msg inc routeId) :
      Step cfg s t (.getBuffer t poolOk) (s.setPc t .idle)
  | allocated {poolOk msg inc r} (hpc : s.pc t = .transmitValidated msg inc (some r)) :
      Step cfg s t (.getBuffer t poolOk)
        ((getBufferFromPool s).2.setPc t (.transmitAllocated msg inc r s.bufs.length))
  | filled {msg inc r b} (hpc : s.pc t = .transmitAllocated msg inc r b) :
      Step cfg s t (.fillBuffer t) ((s.modifyBuf b fun d =>
        { d with content := msg, msgId := msg.msgId, contentSize := msg.size
                 autoSequence := inc, contentType := msg.type }).setPc t (.transmitFilled msg r b))
  | broadcast {routeId b} (hsends : (s.pc t).sendsTo = some (routeId, b)) :
      Step cfg s t (.broadcast t) ((broadcastBufferToRoute cfg s (s.app t) b routeId).2.setPc t
        (reportPc b (broadcastBufferToRoute cfg s (s.app t) b routeId).1))
  | reported {granted b e events} (hpc : s.pc t = .reporting b (e :: events)) :
      Step cfg s t (.reportEvent t granted) (s.setPc t (reportPc b events))
  | zeroCopyAllocated {msgSize poolOk} (hidle : s.Idle t) :
      Step cfg s t (.allocateMessageBuffer t msgSize poolOk)
        ({ (getBufferFromPool s).2.modifyBuf s.bufs.length fun d => { d with appId := s.app t } with
          zeroCopyList := s.zeroCopyList ++ [s.bufs.length] }.setPc t
            (.bufferAllocated s.bufs.length))
  | cleared {b} (hpc : s.pc t = .bufferAllocated b) :
      Step cfg s t (.clearBuffer t) ({ s.modifyBuf b fun d => { d with content := default } with
        handles := (s.app t, b) :: s.handles }.setPc t .idle)
  | written {b msg} (hidle : s.Idle t) (hb : (s.app t, b) ∈ s.handles) :
      Step cfg s t (.writeBuffer t b msg) (s.modifyBuf b fun d => { d with content := msg })
  | zeroCopyValidated {b inc} (hidle : s.Idle t) (hb : (s.app t, b) ∈ s.handles) :
      Step cfg s t (.transmitBuffer t b inc)
        ({ s with handles := s.handles.erase (s.app t, b) }.setPc t (.zeroCopyValidated inc b))
  | notRouted {inc b} (hpc : s.pc t = .zeroCopyValidated inc b) :
      Step cfg s t (.routeBuffer t)
        ({ stamped cfg s b with handles := (s.app t, b) :: s.handles }.setPc t .idle)
  | routed {inc b routeId} (hpc : s.pc t = .zeroCopyValidated inc b)
      (hvalid : transmitMsgValidate cfg s (s.buf b).content = some routeId) :
      Step cfg s t (.routeBuffer t) (((stamped cfg s b).modifyBuf b fun d =>
        { d with autoSequence := inc, contentType := (s.buf b).content.type }).setPc t
          (.zeroCopyRouted routeId b))
  | releaseValidated {b} (hidle : s.Idle t) (hb : (s.app t, b) ∈ s.handles) :
      Step cfg s t (.releaseMessageBuffer t b)
        ({ s with handles := s.handles.erase (s.app t, b) }.setPc t (.releaseValidated b))
  | released {b} (hpc : s.pc t = .releaseValidated b) :
      Step cfg s t (.releaseBuffer t)
        ((decrBufUseCnt (s.modifyBuf b fun d => { d with appId := 0 }) b).setPc t .idle)
  | receiving {pipeId i} (hidle : s.Idle t)
      (hguard : ∀ task ∈ s.tasks, task.pc.receiving ≠ some pipeId)
      (hmatch : matchPipe cfg s pipeId = some i) (hlast : (s.pipe i).lastBuffer = none) :
      Step cfg s t (.receiveBuffer t pipeId)
        (s.setPc t (.receiveWaiting pipeId i (s.pipe i).sysQueueId))
  | receivingNext {pipeId i b} (hidle : s.Idle t)
      (hguard : ∀ task ∈ s.tasks, task.pc.receiving ≠ some pipeId)
      (hmatch : matchPipe cfg s pipeId = some i) (hlast : (s.pipe i).lastBuffer = some b) :
      Step cfg s t (.receiveBuffer t pipeId)
        (((decrBufUseCnt s b).modifyPipe i fun p => { p with lastBuffer := none }).setPc t
          (.receiveWaiting pipeId i (s.pipe i).sysQueueId))
  | queueEmpty {p i q} (hpc : s.pc t = .receiveWaiting p i q) :
      Step cfg s t (.queueGet t) (s.setPc t .idle)
  | dequeued {p i q b items} (hpc : s.pc t = .receiveWaiting p i q)
      (hitems : (s.queue q).items = b :: items) :
      Step cfg s t (.queueGet t) ((s.modifyQueue q fun queue => { queue with items := items }).setPc t
        (.receiveHolding p i b))
  | stored {p i b routes} (hpc : s.pc t = .receiveHolding p i b) (hid : (s.pipe i).pipeId = p)
      (hroutes : routes = s.routes ∨ ∃ r, routes = s.routes.modify r fun x =>
        { x with dests := updateDest p Dest.countDown x.dests }) :
      Step cfg s t (.storeBuffer t) ((decrBufUseCnt
        { (incrBufUseCnt s b).modifyPipe i (fun p => { p with
            lastBuffer := some b, currentQueueDepth := p.currentQueueDepth - 1 }) with
          routes := routes } b).setPc t .idle)
  | notStored {p i b} (hpc : s.pc t = .receiveHolding p i b) :
      Step cfg s t (.storeBuffer t) ((decrBufUseCnt s b).setPc t .idle)
  | deleting {pipeId i} (hidle : s.Idle t) (hmatch : matchPipe cfg s pipeId = some i) :
      Step cfg s t (.deletePipe t pipeId) ((reserved s pipeId i).setPc t
        (.deleteDraining i (s.pipe i).sysQueueId (s.pipe i).lastBuffer none))
  | deletingNext {appId pipeId delList i} (hpc : s.pc t = .cleaning appId (pipeId :: delList))
      (hmatch : matchPipe cfg s pipeId = some i) :
      Step cfg s t (.cleanUpPipe t) ((reserved s pipeId i).setPc t
        (.deleteDraining i (s.pipe i).sysQueueId (s.pipe i).lastBuffer (some (appId, delList))))
  | dropped {i q b rest} (hpc : s.pc t = .deleteDraining i q (some b) rest) :
      Step cfg s t (.drainPipe t) ((decrBufUseCnt s b).setPc t (.deleteDraining i q none rest))
  | drained {i q rest} (hpc : s.pc t = .deleteDraining i q none rest) :
      Step cfg s t (.drainPipe t) (s.setPc t (.deleteDrained i rest))
  | drains {i q b items rest} (hpc : s.pc t = .deleteDraining i q none rest)
      (hitems : (s.queue q).items = b :: items) :
      Step cfg s t (.drainPipe t)
        ((s.modifyQueue q fun queue => { queue with items := items }).setPc t
          (.deleteDraining i q (some b) rest))
  | freed {i rest} (hpc : s.pc t = .deleteDrained i rest) :
      Step cfg s t (.freePipe t)
        ((s.modifyPipe i fun p => { p with pipeId := 0 }).setPc t (afterDelete rest))
  | collected {appId delList} (hidle : s.Idle t) :
      Step cfg s t (.cleanUpApp t appId) (s.setPc t (.cleaning appId delList))
  | skipped {appId pipeId delList} (hpc : s.pc t = .cleaning appId (pipeId :: delList)) :
      Step cfg s t (.cleanUpPipe t) (s.setPc t (.cleaning appId delList))
  | zeroCopyReleased {appId} (hpc : s.pc t = .cleaning appId []) :
      Step cfg s t (.zeroCopyRelease t)
        ((if appId = 0 then s else
          zeroCopyReleaseAppId (s.disown appId) appId s.zeroCopyList).setPc t .idle)
  | stopped {appId} : Step cfg s t (.stopApp appId) (s.disown appId)
  | subscribed {msgId pipeId msgLim scope s'}
      (h : subscribe cfg s t msgId pipeId msgLim scope = some s') :
      Step cfg s t (.subscribe t msgId pipeId msgLim scope) s'
  | unsubscribed {msgId pipeId scope s'} (h : unsubscribe cfg s t msgId pipeId scope = some s') :
      Step cfg s t (.unsubscribe t msgId pipeId scope) s'
  | routeSet {msgId pipeId active} :
      Step cfg s t (.setRoute msgId pipeId active) (setRoute cfg s msgId pipeId active)

variable {cfg : SbConfig} {s s' : Bus} {t : Nat} {action : Action}

theorem deletePipeFull_cases {pipeId appId : Nat} {rest : Option (Nat × List Nat)}
    (hstep : deletePipeFull cfg s t pipeId appId rest = some s') :
    ∃ i, matchPipe cfg s pipeId = some i ∧ s' = (reserved s pipeId i).setPc t
      (.deleteDraining i (s.pipe i).sysQueueId (s.pipe i).lastBuffer rest) := by
  obtain ⟨i, hmatch, hstep⟩ := Option.bind_eq_some_iff.1 hstep
  split_ifs at hstep
  exact ⟨i, hmatch, (Option.some.inj hstep).symm⟩

theorem storeBuffer_cases (hstep : storeBuffer cfg s t = some s') :
    Step cfg s t (.storeBuffer t) s' := by
  unfold storeBuffer at hstep
  split at hstep
  · next pipeId i b hpc =>
    split_ifs at hstep with hid
    · have hroutes : (incrBufUseCnt s b).routes = s.routes := by
        unfold incrBufUseCnt
        split_ifs <;> rfl
      -- both changes of the pipe at once
      have htwo : ∀ y : Bus, (y.modifyPipe i fun p => { p with lastBuffer := some b }).modifyPipe i
          (fun p => { p with currentQueueDepth := p.currentQueueDepth - 1 }) =
          y.modifyPipe i fun p => { p with
            lastBuffer := some b, currentQueueDepth := p.currentQueueDepth - 1 } := fun y => by
        unfold Bus.modifyPipe
        rw [List.modify_modify_eq]
        rfl
      cases hstep
      split
      · rw [htwo]
        exact .stored hpc hid (.inl hroutes)
      rename_i r hr
      have hswap : ∀ (y : Bus) (f : PipeD → PipeD) (g : Route → Route),
        (y.modifyRoute r g).modifyPipe i f = (y.modifyPipe i f).modifyRoute r g :=
        fun _ _ _ => rfl
      rw [hswap, htwo]
      exact .stored hpc hid (.inr ⟨r, by rw [← hroutes]; rfl⟩)
    · cases hstep
      exact .notStored hpc
  · cases hstep

/-- Every step of the bus has one of these outcomes. -/
theorem step_cases (hstep : step cfg s action = some s') : ∃ t, Step cfg s t action s' := by
  cases action with
  | transmitMsg t =>
    simp only [step, transmitMsg] at hstep
    split_ifs at hstep with hidle
    refine ⟨t, ?_⟩
    split at hstep
    · cases hstep
      exact .refused rfl hidle
    · next hvalid =>
      cases hstep
      exact .validated hidle hvalid
  | getBuffer t =>
    simp only [step, getBuffer] at hstep
    split at hstep <;> try split_ifs at hstep
    all_goals cases hstep
    · next hpc _ => exact ⟨t, .allocated hpc⟩
    · next hpc _ => exact ⟨t, .noBuffer hpc⟩
    · next hpc => exact ⟨t, .noBuffer hpc⟩
  | fillBuffer t =>
    simp only [step, fillBuffer] at hstep
    split at hstep <;> cases hstep
    next hpc => exact ⟨t, .filled hpc⟩
  | broadcast t =>
    simp only [step, broadcast] at hstep
    split at hstep <;> cases hstep
    · next hpc => exact ⟨t, .broadcast (by rw [hpc]; rfl)⟩
    · next hpc => exact ⟨t, .broadcast (by rw [hpc]; rfl)⟩
  | reportEvent t =>
    simp only [step, reportEvent] at hstep
    split at hstep <;> cases hstep
    next hpc => exact ⟨t, .reported hpc⟩
  | allocateMessageBuffer t =>
    simp only [step, allocateMessageBuffer] at hstep
    split_ifs at hstep with hidle <;> cases hstep
    · exact ⟨t, .refused rfl hidle⟩
    · exact ⟨t, .zeroCopyAllocated hidle⟩
  | clearBuffer t =>
    simp only [step, clearBuffer] at hstep
    split at hstep <;> cases hstep
    next hpc => exact ⟨t, .cleared hpc⟩
  | writeBuffer t =>
    simp only [step, writeBuffer] at hstep
    split_ifs at hstep with hidle
    cases hstep
    exact ⟨t, .written hidle.1 hidle.2⟩
  | transmitBuffer t =>
    simp only [step, transmitBuffer] at hstep
    split_ifs at hstep with hidle <;> cases hstep
    · exact ⟨t, .refused rfl hidle.1⟩
    · exact ⟨t, .zeroCopyValidated hidle.1 hidle.2⟩
  | routeBuffer t =>
    simp only [step, routeBuffer] at hstep
    split at hstep
    · next hpc =>
      split at hstep <;> cases hstep
      · exact ⟨t, .notRouted hpc⟩
      · next hvalid => exact ⟨t, .routed hpc hvalid⟩
    · cases hstep
  | releaseMessageBuffer t =>
    simp only [step, releaseMessageBuffer] at hstep
    split_ifs at hstep with hidle <;> cases hstep
    · exact ⟨t, .refused rfl hidle.1⟩
    · exact ⟨t, .releaseValidated hidle.1 hidle.2⟩
  | releaseBuffer t =>
    simp only [step, releaseBuffer] at hstep
    split at hstep <;> cases hstep
    next hpc => exact ⟨t, .released hpc⟩
  | receiveBuffer t pipeId =>
    simp only [step, receiveBuffer] at hstep
    split_ifs at hstep with hguard
    refine ⟨t, ?_⟩
    cases hmatch : matchPipe cfg s pipeId with
    | none =>
      rw [hmatch, Option.elim_none] at hstep
      cases hstep
      exact .refused rfl hguard.1
    | some =>
      rw [hmatch, Option.elim_some] at hstep
      cases hstep
      split
      · next hlast => exact .receiving hguard.1 hguard.2 hmatch hlast
      · next hlast => exact .receivingNext hguard.1 hguard.2 hmatch hlast
  | queueGet t =>
    simp only [step, queueGet] at hstep
    split at hstep
    · next hpc =>
      split at hstep <;> cases hstep
      · exact ⟨t, .queueEmpty hpc⟩
      · next hitems => exact ⟨t, .dequeued hpc hitems⟩
    · cases hstep
  | storeBuffer t => exact ⟨t, storeBuffer_cases hstep⟩
  | deletePipe t pipeId =>
    simp only [step, deletePipe] at hstep
    split_ifs at hstep with hidle
    rw [← Option.some.inj hstep]
    refine ⟨t, ?_⟩
    cases hdel : deletePipeFull cfg s t pipeId (s.app t) none with
    | none => exact .refused rfl hidle
    | some =>
      obtain ⟨i, hmatch, rfl⟩ := deletePipeFull_cases hdel
      exact .deleting hidle hmatch
  | drainPipe t =>
    simp only [step, drainPipe] at hstep
    refine ⟨t, ?_⟩
    split at hstep
    · next hpc =>
      cases hstep
      exact .dropped hpc
    · next hpc =>
      split at hstep <;> cases hstep
      · exact .drained hpc
      · next hitems => exact .drains hpc hitems
    · cases hstep
  | freePipe t =>
    simp only [step, freePipe] at hstep
    split at hstep <;> cases hstep
    next hpc => exact ⟨t, .freed hpc⟩
  | cleanUpApp t =>
    simp only [step, cleanUpApp] at hstep
    split_ifs at hstep with hidle
    cases hstep
    exact ⟨t, .collected hidle⟩
  | cleanUpPipe t =>
    simp only [step, cleanUpPipe] at hstep
    split at hstep
    · next appId pipeId delList hpc =>
      rw [← Option.some.inj hstep]
      refine ⟨t, ?_⟩
      cases hdel : deletePipeFull cfg s t pipeId appId (some (appId, delList)) with
      | none => exact .skipped hpc
      | some =>
        obtain ⟨i, hmatch, rfl⟩ := deletePipeFull_cases hdel
        exact .deletingNext hpc hmatch
    · cases hstep
  | zeroCopyRelease t =>
    simp only [step, zeroCopyRelease] at hstep
    split at hstep <;> cases hstep
    next hpc => exact ⟨t, .zeroCopyReleased hpc⟩
  | stopApp =>
    simp only [step, stopApp] at hstep
    split_ifs at hstep
    cases hstep
    exact ⟨0, .stopped⟩
  | subscribe t => exact ⟨t, .subscribed hstep⟩
  | unsubscribe t => exact ⟨t, .unsubscribed hstep⟩
  | setRoute =>
    obtain rfl := Option.some.inj hstep
    exact ⟨0, .routeSet⟩

end CfsEds.Sb
