import CfsEds.Sb.BusReceive

/-!
# Ownership of buffers over whole runs

A run starts on a bus with some pipes, each with its own queue, and no messages, and
takes actions of any tasks in any order. `Run cfg Ok` are the states of the runs whose
steps all meet `Ok`.

At every point of a run the use count of a buffer is the number of references to it, and
it goes back to the pool once, in the step that takes the last one. The condition is that
the zero copy buffers of an application are released when none of its tasks is in a call
with one (`ReleaseQuiet`). Without it a task that has passed `CFE_SB_ZeroCopyBufferValidate`
goes on to send a buffer that `CFE_SB_CleanUpApp` has returned meanwhile.
-/

namespace CfsEds.Sb

open CfsEds.Es CfsEds.Lib.RefCount

variable {cfg : SbConfig} {s s' : Bus} {b c t i r : Nat} {action : Action}

/-! ## Runs -/

/-- The bus before the first message. A pipe that is in use is where its ID says, and has
a queue of its own. -/
structure Init (cfg : SbConfig) (s : Bus) : Prop where
  bufs : s.bufs = []
  zeroCopyList : s.zeroCopyList = []
  handles : s.handles = []
  routes : s.routes = []
  idle : ∀ task ∈ s.tasks, task.pc = .idle
  empty : ∀ q ∈ s.queues, q.items = []
  vacant : ∀ p ∈ s.pipes, p.lastBuffer = none
  located : ∀ i < s.pipes.length, Live (s.pipe i).pipeId →
    locatePipeDescByID cfg (s.pipe i).pipeId = some i
  ownQueue : ∀ i < s.pipes.length, ∀ j < s.pipes.length, Live (s.pipe i).pipeId →
    Live (s.pipe j).pipeId → (s.pipe i).sysQueueId = (s.pipe j).sysQueueId → i = j

/-- The states of the runs whose steps all meet `Ok`. -/
inductive Run (cfg : SbConfig) (Ok : Bus → Action → Prop) : Bus → Prop where
  | init {s : Bus} (h : Init cfg s) : Run cfg Ok s
  | step {s s' : Bus} {action : Action} (h : Run cfg Ok s) (hok : Ok s action)
      (hstep : Sb.step cfg s action = some s') : Run cfg Ok s'

/-- A list of actions, as long as they meet `Ok`. -/
def exec (cfg : SbConfig) (Ok : Bus → Action → Prop) [∀ s a, Decidable (Ok s a)] (s : Bus) :
    List Action → Option Bus
  | [] => some s
  | a :: actions => if Ok s a then (step cfg s a).bind fun s => exec cfg Ok s actions else none

theorem Run.exec {Ok : Bus → Action → Prop} [∀ s a, Decidable (Ok s a)] (actions : List Action)
    (h : Run cfg Ok s) (hexec : exec cfg Ok s actions = some s') : Run cfg Ok s' := by
  induction actions generalizing s with
  | nil =>
    cases hexec
    exact h
  | cons a actions ih =>
    rw [Sb.exec] at hexec
    split_ifs at hexec with hok
    obtain ⟨s₁, hs₁, hexec⟩ := Option.bind_eq_some_iff.1 hexec
    exact ih (h.step hok hs₁) hexec

theorem Run.exists_exec {Ok : Bus → Action → Prop} [∀ s a, Decidable (Ok s a)] {P : Bus → Prop}
    [DecidablePred P] (actions : List Action) (h : Run cfg Ok s)
    (hexec : (Sb.exec cfg Ok s actions).any (fun s => P s) = true) : ∃ s', Run cfg Ok s' ∧ P s' := by
  obtain ⟨s', hs', hP⟩ := (Option.any_eq_true _ _).1 hexec
  exact ⟨s', h.exec actions hs', of_decide_eq_true hP⟩

/-- The application whose zero copy buffers an action releases. -/
def Action.releases (s : Bus) : Action → List Nat
  | .zeroCopyRelease t => match s.pc t with
    | .cleaning appId _ => [appId]
    | _ => []
  | _ => []

/-- The tasks of an application are out of their calls with zero copy buffers when
`CFE_SB_CleanUpApp` releases these. -/
def ReleaseQuiet (s : Bus) (action : Action) : Prop :=
  ∀ appId ∈ action.releases s, CallsOver s appId

instance (s : Bus) (action : Action) : Decidable (ReleaseQuiet s action) :=
  inferInstanceAs (Decidable (∀ _ ∈ _, _))

theorem Init.pc_idle (h : Init cfg s) (u : Nat) : s.pc u = .idle := by
  by_cases hu : u < s.tasks.length
  · unfold Bus.pc
    rw [List.getD_eq_getElem _ _ hu]
    exact h.idle _ (List.getElem_mem hu)
  · by_contra hne
    exact hu (Bus.lt_of_pc hne)

theorem Init.inv (h : Init cfg s) : BusInv cfg s := by
  have hidle := h.pc_idle
  have hqueue : ∀ c, queueRefs s c = 0 := fun c => tally_eq_zero fun q hq => by rw [h.empty q hq]; rfl
  have hpcs : ∀ g, g .idle = [] → ∀ c, pcRefs g s c = 0 := fun g hg c =>
    tally_eq_zero fun task htask => by rw [h.idle task htask, hg]; rfl
  have hpipe : ∀ c, pipeRefs s c = 0 := fun c => tally_eq_zero fun p hp => by
    unfold PipeD.held
    rw [h.vacant p hp]
    split_ifs <;> rfl
  have hsend : ∀ c, senderRefs s c = 0 := fun c => by
    unfold senderRefs
    rw [hpcs _ rfl, h.zeroCopyList]
    rfl
  have hrefs : ∀ c, refs s c = 0 := fun c => by
    unfold refs
    rw [hqueue, hpcs _ rfl, hpipe, hsend]
  refine ⟨⟨⟨fun c hc => ?_, fun c hc => ?_, fun c _ => hrefs c⟩, fun c => ?_, fun c hc => ?_⟩,
    ⟨fun c => ?_, fun a c hc => ?_, fun u c hc => ?_⟩, ⟨fun u p i hu => ?_, fun u p i hu => ?_,
      fun u u' p i i' hu => ?_, fun u i hu => ?_⟩, fun r hr => ?_⟩
  · rw [h.bufs] at hc
    cases hc
  · rw [h.bufs] at hc
    cases hc
  · rw [hrefs]
    exact Nat.zero_le _
  · rw [hsend] at hc
    cases hc
  · unfold claims
    rw [hpcs _ rfl, h.handles]
    exact Nat.zero_le _
  · rw [h.handles] at hc
    cases hc
  · rw [hidle] at hc
    cases hc
  · rw [hidle] at hu
    cases hu
  · rw [hidle] at hu
    cases hu
  · rw [hidle] at hu
    cases hu
  · rw [hidle] at hu
    cases hu
  · rw [h.routes] at hr
    cases hr

/-- Every action keeps the invariant. -/
theorem step_inv (h : BusInv cfg s) (hok : ReleaseQuiet s action)
    (hstep : step cfg s action = some s') : BusInv cfg s' := by
  obtain ⟨t, hcase⟩ := step_cases hstep
  cases hcase with
  | refused => exact h
  | validated hidle => exact h.setPc hidle.1 hidle.2 rfl rfl rfl (.inl rfl) (.inl rfl)
  | noBuffer hpc =>
    exact h.setPc (Bus.lt_of_pc_eq hpc) hpc rfl rfl rfl (.inl rfl) (.inl rfl)
  | allocated hpc => exact h.allocated hpc
  | filled hpc =>
    exact BusInv.setPc (h.modifyBuf (fun _ => rfl) (fun _ => rfl) fun _ => rfl)
      (Bus.lt_of_pc_eq hpc) hpc rfl rfl rfl (.inl rfl) (.inl rfl)
  | broadcast hsends => exact h.broadcast hsends
  | @reported granted b e events hpc =>
    obtain ⟨hdequeued, hsending, hzero, hslot, hdel⟩ := @reportPc_cases b events
    exact h.setPc (Bus.lt_of_pc_eq hpc) hpc hdequeued hsending hzero
      (.inl hslot) (.inl hdel)
  | zeroCopyAllocated hidle => exact h.zeroCopyAllocated hidle rfl
  | @cleared b hpc =>
    have hbuf : BusInv cfg (s.modifyBuf b fun d => { d with content := default }) :=
      h.modifyBuf (fun _ => rfl) (fun _ => rfl) fun _ => rfl
    exact hbuf.toHandle hpc Pc.noConfusion rfl rfl rfl
  | written => exact h.modifyBuf (fun _ => rfl) (fun _ => rfl) fun _ => rfl
  | zeroCopyValidated hidle hb => exact h.ofHandle hidle hb rfl rfl rfl rfl rfl
  | @notRouted inc b hpc =>
    have hbuf : BusInv cfg (stamped cfg s b) := h.stamped
    exact hbuf.toHandle hpc Pc.noConfusion rfl rfl rfl
  | @routed inc b routeId hpc =>
    have hbuf : BusInv cfg (stamped cfg s b) := h.stamped
    exact BusInv.setPc (hbuf.modifyBuf (fun _ => rfl) (fun _ => rfl) fun _ => rfl)
      (Bus.lt_of_pc_eq hpc) hpc rfl rfl rfl (.inl rfl) (.inl rfl)
  | releaseValidated hidle hb => exact h.ofHandle hidle hb rfl rfl rfl rfl rfl
  | released hpc =>
    exact h.giveUp (Bus.lt_of_pc_eq hpc) hpc rfl (.inr ⟨rfl, rfl⟩)
      ⟨rfl, rfl, rfl, rfl, rfl⟩ (Nat.zero_le _) Sent.refl h.route (.inr ⟨rfl, rfl⟩)
  | receiving hidle hguard hmatch hlast => exact h.receiving hidle hguard hmatch hlast
  | receivingNext hidle hguard hmatch hlast => exact h.receivingNext hidle hguard hmatch hlast
  | queueEmpty hpc =>
    exact h.setPc (Bus.lt_of_pc_eq hpc) hpc rfl rfl rfl (.inl rfl) (.inl rfl)
  | dequeued hpc hitems =>
    exact h.dequeue (Bus.lt_of_pc_eq hpc) hpc hitems rfl rfl rfl rfl (.inr rfl)
      (.inl rfl)
  | stored hpc hid hroutes => exact h.stored hpc hid hroutes
  | notStored hpc =>
    exact h.dropDequeued (Bus.lt_of_pc_eq hpc) hpc rfl rfl rfl rfl (.inl rfl)
      (.inl rfl)
  | deleting hidle hmatch => exact h.deleting hidle.1 hidle.2 rfl rfl rfl hmatch
  | deletingNext hpc hmatch =>
    exact h.deleting (Bus.lt_of_pc_eq hpc) hpc rfl rfl rfl hmatch
  | dropped hpc =>
    exact h.dropDequeued (Bus.lt_of_pc_eq hpc) hpc rfl rfl rfl rfl (.inl rfl)
      (.inr rfl)
  | drained hpc =>
    exact h.setPc (Bus.lt_of_pc_eq hpc) hpc rfl rfl rfl (.inl rfl) (.inr rfl)
  | drains hpc hitems =>
    exact h.dequeue (Bus.lt_of_pc_eq hpc) hpc hitems rfl rfl rfl rfl (.inl rfl)
      (.inr rfl)
  | freed hpc => exact h.freed hpc
  | collected hidle => exact h.setPc hidle.1 hidle.2 rfl rfl rfl (.inl rfl) (.inl rfl)
  | skipped hpc =>
    exact h.setPc (Bus.lt_of_pc_eq hpc) hpc rfl rfl rfl (.inl rfl) (.inl rfl)
  | zeroCopyReleased hpc =>
    refine h.zeroCopyReleased hpc (hok _ ?_)
    rw [Action.releases, hpc]
    exact List.mem_singleton_self _
  | stopped => exact h.disown
  | subscribed hstep => exact subscribe_inv h hstep
  | unsubscribed hstep => exact unsubscribe_inv h hstep
  | routeSet => exact setRoute_inv h

/-- Every state of a quiet run has the invariant. -/
theorem Run.inv (h : Run cfg ReleaseQuiet s) : BusInv cfg s := by
  induction h with
  | init h => exact h.inv
  | step _ hok hstep ih => exact step_inv ih hok hstep

/-! ## Buffers are not taken back from the pool -/

/-- New buffers may come, and none loses a return. -/
structure Grew (s s' : Bus) : Prop where
  length : s.bufs.length ≤ s'.bufs.length
  returns : ∀ c < s.bufs.length, (s.buf c).returns ≤ (s'.buf c).returns

theorem Grew.of_bufs (h : s'.bufs = s.bufs) : Grew s s' where
  length := by rw [h]
  returns c _ := by
    unfold Bus.buf
    rw [h]

theorem Grew.setPc {pc : Pc} : Grew s (s.setPc t pc) := Grew.of_bufs rfl

theorem Grew.trans {s'' : Bus} (h : Grew s s') (h' : Grew s' s'') : Grew s s'' where
  length := Nat.le_trans h.length h'.length
  returns c hc := Nat.le_trans (h.returns c hc) (h'.returns c (Nat.lt_of_lt_of_le hc h.length))

theorem Grew.modifyBuf {f : BufferD → BufferD} (hf : ∀ d, (f d).returns = d.returns) :
    Grew s (s.modifyBuf b f) where
  length := Nat.le_of_eq Bus.length_modifyBuf.symm
  returns _ _ := Nat.le_of_eq (Bus.buf_modifyBuf_of_eq (v := BufferD.returns) hf).symm

theorem Grew.decr : Grew s (decrBufUseCnt s b) where
  length := Nat.le_of_eq length_decrBufUseCnt.symm
  returns c _ := by
    rw [returns_decrBufUseCnt]
    exact Nat.le_add_right _ _

theorem Grew.incr : Grew s (incrBufUseCnt s b) := by
  unfold incrBufUseCnt
  split_ifs
  · exact Grew.modifyBuf fun _ => rfl
  · exact Grew.of_bufs rfl

theorem Grew.create : Grew s (getBufferFromPool s).2 where
  length := by simp [getBufferFromPool]
  returns c hc := by rw [buf_getBufferFromPool, if_neg (by omega)]

theorem Grew.sendToDests {appId : Nat} (dests : List Dest) :
    Grew s (sendToDests cfg s appId b dests).2 := by
  induction dests generalizing s with
  | nil => exact Grew.of_bufs rfl
  | cons d rest ih =>
    refine Grew.trans ?_ ih
    cases (if d.active then matchPipe cfg s d.pipeId else none) with
    | none => exact Grew.of_bufs rfl
    | some =>
      rw [Option.elim_some, sendToPipe]
      split_ifs
      · exact Grew.of_bufs rfl
      · exact Grew.of_bufs rfl
      split
      · exact Grew.of_bufs rfl
      rename_i s₁ hput
      obtain ⟨-, hs₁⟩ := osQueuePut_eq_some hput
      have hqueue : Grew s s₁ := Grew.of_bufs (by rw [hs₁]; rfl)
      exact hqueue.trans (Grew.incr.trans (Grew.of_bufs rfl))

theorem Grew.broadcastBufferToRoute {appId : Nat} {routeId : Option Nat} :
    Grew s (broadcastBufferToRoute cfg s appId b routeId).2 := by
  have hend : ∀ y : Bus, Grew y (decrBufUseCnt ({ y with zeroCopyList := y.zeroCopyList.erase b
      }.modifyBuf b fun d => { d with appId := 0 }) b) := by
    intro y
    have hlist : Grew y { y with zeroCopyList := y.zeroCopyList.erase b } := Grew.of_bufs rfl
    refine hlist.trans (Grew.trans ?_ Grew.decr)
    exact Grew.modifyBuf fun _ => rfl
  cases routeId with
  | none => exact hend s
  | some r =>
    have hseq : Grew s (setSequence s r b) := by
      unfold setSequence
      split_ifs
      · have hroute : Grew s
            (s.modifyRoute r fun x => { x with seqCnt := getNextSequenceCount x.seqCnt }) :=
          Grew.of_bufs rfl
        refine hroute.trans ?_
        exact Grew.modifyBuf fun _ => rfl
      · exact Grew.of_bufs rfl
    generalize hres : Sb.sendToDests cfg (setSequence s r b) appId b
      ((setSequence s r b).route r).dests = result
    have hloop : Grew (setSequence s r b) result.2 := hres ▸ Grew.sendToDests _
    have hroute : Grew result.2 (result.2.modifyRoute r fun x => { x with dests := result.1.1 }) :=
      Grew.of_bufs rfl
    have heq : (Sb.broadcastBufferToRoute cfg s appId b (some r)).2 = decrBufUseCnt
        ({ result.2.modifyRoute r (fun x => { x with dests := result.1.1 }) with
          zeroCopyList := result.2.zeroCopyList.erase b }.modifyBuf b
          fun d => { d with appId := 0 }) b := by
      rw [← hres]
      rfl
    rw [heq]
    exact (hseq.trans (hloop.trans hroute)).trans (hend _)

theorem Grew.disown {appId : Nat} : Grew s (s.disown appId) := Grew.of_bufs rfl

theorem Grew.zeroCopyReleaseAppId {appId : Nat} (list : List Nat) :
    Grew s (zeroCopyReleaseAppId s appId list) := by
  induction list generalizing s with
  | nil => exact Grew.of_bufs rfl
  | cons b rest ih =>
    refine Grew.trans ?_ ih
    split_ifs
    · exact Grew.decr
    · exact Grew.of_bufs rfl

theorem bufs_addRoute {msgId : Nat} : (addRoute cfg s msgId).bufs = s.bufs := by
  unfold addRoute
  split_ifs <;> rfl

theorem bufs_subscribe {msgId pipeId msgLim scope : Nat}
    (h : subscribe cfg s t msgId pipeId msgLim scope = some s') : s'.bufs = s.bufs := by
  obtain rfl | ⟨-, rfl | ⟨r, rfl⟩⟩ := subscribe_cases h
  · rfl
  · exact bufs_addRoute
  · exact bufs_addRoute

theorem bufs_unsubscribe {msgId pipeId scope : Nat}
    (h : unsubscribe cfg s t msgId pipeId scope = some s') : s'.bufs = s.bufs := by
  obtain rfl | ⟨r, rfl⟩ := unsubscribe_cases h <;> rfl

theorem bufs_setRoute {msgId pipeId : Nat} {active : Bool} :
    (setRoute cfg s msgId pipeId active).bufs = s.bufs := by
  unfold setRoute
  cases matchPipe cfg s pipeId with
  | none => rfl
  | some =>
    split <;> rfl

/-- No action loses a return. -/
theorem step_grew (hstep : step cfg s action = some s') : Grew s s' := by
  obtain ⟨t, hcase⟩ := step_cases hstep
  cases hcase with
  | allocated => exact Grew.create.trans Grew.setPc
  | filled =>
    refine Grew.trans (Grew.modifyBuf ?_) Grew.setPc
    exact fun _ => rfl
  | broadcast => exact Grew.trans Grew.broadcastBufferToRoute Grew.setPc
  | zeroCopyAllocated =>
    refine Grew.create.trans (Grew.trans (Grew.modifyBuf ?_) (Grew.of_bufs rfl))
    exact fun _ => rfl
  | cleared | notRouted =>
    refine Grew.trans (Grew.modifyBuf ?_) (Grew.of_bufs rfl)
    exact fun _ => rfl
  | written => exact Grew.modifyBuf fun _ => rfl
  | routed =>
    refine Grew.trans (Grew.modifyBuf ?_) (Grew.trans (Grew.modifyBuf ?_) Grew.setPc)
    · exact fun _ => rfl
    · exact fun _ => rfl
  | released =>
    refine Grew.trans (Grew.trans (Grew.modifyBuf ?_) Grew.decr) Grew.setPc
    exact fun _ => rfl
  | receivingNext => exact Grew.decr.trans (Grew.of_bufs rfl)
  | @stored p i b =>
    refine Grew.trans (Grew.trans ?_ Grew.decr) Grew.setPc
    exact Grew.trans (Grew.incr (b := b)) (Grew.of_bufs rfl)
  | notStored | dropped => exact Grew.decr.trans Grew.setPc
  | zeroCopyReleased =>
    split_ifs
    · exact Grew.setPc
    · exact (Grew.disown.trans (Grew.zeroCopyReleaseAppId _)).trans Grew.setPc
  | subscribed hstep => exact Grew.of_bufs (bufs_subscribe hstep)
  | unsubscribed hstep => exact Grew.of_bufs (bufs_unsubscribe hstep)
  | routeSet => exact Grew.of_bufs bufs_setRoute
  | _ => exact Grew.of_bufs rfl

/-! ## Ownership -/

/-- At every point of a run the use count of a buffer is the number of its references. It
has been returned to the pool once if there are none and not at all otherwise, and a step
returns it exactly if it takes the last reference. -/
theorem useCount_eq_refs (h : Run cfg ReleaseQuiet s) :
    (∀ b < s.bufs.length, (s.buf b).useCount = refs s b ∧
      (s.buf b).returns = if refs s b = 0 then 1 else 0) ∧
    ∀ action s', ReleaseQuiet s action → step cfg s action = some s' → ∀ b < s.bufs.length,
      (s'.buf b).returns = (s.buf b).returns + if 0 < refs s b ∧ refs s' b = 0 then 1 else 0 := by
  have hcounted := h.inv.count.counted
  refine ⟨fun b hb => ⟨hcounted.use b hb, hcounted.ret b hb⟩, fun action s' hok hstep b hb => ?_⟩
  have hcounted' := (step_inv h.inv hok hstep).count.counted
  have hgrew := step_grew hstep
  have hle := hgrew.returns b hb
  have hret := hcounted.ret b hb
  have hret' := hcounted'.ret b (Nat.lt_of_lt_of_le hb hgrew.length)
  rw [hret, hret'] at hle ⊢
  -- a buffer that has been returned is not taken back
  by_cases hzero : refs s b = 0
  · have hzero' : refs s' b = 0 := by
      by_contra hne
      rw [if_pos hzero, if_neg hne] at hle
      cases hle
    rw [if_pos hzero, if_pos hzero', if_neg (by omega)]
  · rw [if_neg hzero, Nat.zero_add]
    simp only [Nat.pos_of_ne_zero hzero, true_and]

/-- The zero copy buffer that an application may write has one handle and one entry of the zero copy
list; no queue, pipe, receiver or sender has it, and no call works on it. -/
theorem zeroCopy_exclusive {a : Nat} (h : Run cfg ReleaseQuiet s) (hc : (a, c) ∈ s.handles) :
    (s.handles.map Prod.snd).count c = 1 ∧ s.zeroCopyList.count c = 1 ∧
      queueRefs s c + pipeRefs s c + pcRefs Pc.dequeued s c = 0 ∧
      pcRefs Pc.sending s c + pcRefs Pc.zeroCopy s c = 0 := by
  have hmem : 0 < (s.handles.map Prod.snd).count c :=
    List.count_pos_iff.2 (List.mem_map_of_mem hc)
  have hclaimed := h.inv.claim.claimed c
  unfold claims at hclaimed
  have hone := h.inv.count.exclusive c (by unfold senderRefs; omega)
  unfold refs senderRefs at hone
  omega

/-- The values of `cpu1_platform_cfg.h`. -/
def sampleConfig : SbConfig where
  maxPipes := 64
  maxDestPerPkt := 16
  maxMsgIds := 256
  highestValidMsgId := 0x1fff
  maxSbMsgSize := 32768
  hpipes := by decide
  hdest := by decide

/-- One pipe of application 3, with a queue of two entries, and a task of each of three
applications. -/
def sampleBus : Bus where
  bufs := []
  zeroCopyList := []
  handles := []
  pipes := [default, ⟨0x02160001, false, 3, 0, 0, 0, none⟩]
  queues := [⟨2, []⟩]
  routes := []
  tasks := [⟨1, .idle⟩, ⟨2, .idle⟩, ⟨3, .idle⟩]

theorem init_sampleBus : Init sampleConfig sampleBus where
  bufs := rfl
  zeroCopyList := rfl
  handles := rfl
  routes := rfl
  idle := by decide
  empty := by decide
  vacant := by decide
  located := by decide
  ownQueue := by decide

/-- A telemetry message. -/
def sampleMessage : Message := ⟨5, .tlm, 0, 16, []⟩

/-- A message is sent and received. -/
theorem useCount_eq_refs_sample : ∃ s, Run sampleConfig ReleaseQuiet s ∧
    s.bufs.length = 1 ∧ (s.buf 0).useCount = refs s 0 ∧ refs s 0 = 1 ∧ (s.buf 0).returns = 0 := by
  have hinit : Run sampleConfig ReleaseQuiet sampleBus := Run.init init_sampleBus
  obtain ⟨s, hrun, hlen, hrefs⟩ := hinit.exists_exec (P := fun s => s.bufs.length = 1 ∧ refs s 0 = 1)
    [.subscribe 2 5 0x02160001 4 1, .transmitMsg 0 sampleMessage true, .getBuffer 0 true,
      .fillBuffer 0, .broadcast 0, .receiveBuffer 2 0x02160001, .queueGet 2, .storeBuffer 2]
    (by decide +kernel)
  have hcount := (useCount_eq_refs hrun).1 0 (by omega)
  exact ⟨s, hrun, hlen, hcount.1, hrefs, by rw [hcount.2, hrefs]; rfl⟩

/-- Applications 1 and 2 have a buffer each. That of application 2 is returned by its clean-up,
and that of application 1 is still its own. -/
theorem zeroCopy_exclusive_sample : ∃ s, Run sampleConfig ReleaseQuiet s ∧ s.handles = [(1, 0)] ∧
    (s.buf 1).returns = 1 ∧ s.zeroCopyList.count 0 = 1 ∧
    queueRefs s 0 + pipeRefs s 0 + pcRefs Pc.dequeued s 0 = 0 := by
  have hinit : Run sampleConfig ReleaseQuiet sampleBus := Run.init init_sampleBus
  obtain ⟨s, hrun, hhandles, hreturns⟩ := hinit.exists_exec
    (P := fun s => s.handles = [(1, 0)] ∧ (s.buf 1).returns = 1)
    [.allocateMessageBuffer 0 16 true, .clearBuffer 0, .allocateMessageBuffer 1 16 true,
      .clearBuffer 1, .cleanUpApp 2 2, .zeroCopyRelease 2] (by decide +kernel)
  obtain ⟨-, hlist, hothers, -⟩ := zeroCopy_exclusive (a := 1) (c := 0) hrun (by simp [hhandles])
  exact ⟨s, hrun, hhandles, hreturns, hlist, hothers⟩

/-- The buffer of application 1 is returned by the clean-up between the check and the
sending in `CFE_SB_TransmitBuffer`. It is then put into a queue and returned again. -/
theorem cleanup_returns_twice : ∃ s, Run sampleConfig (fun _ _ => True) s ∧
    s.bufs.length = 1 ∧ (s.buf 0).useCount = 0 ∧ queueRefs s 0 = 1 ∧ (s.buf 0).returns = 2 :=
  Run.exists_exec [.subscribe 2 5 0x02160001 4 1, .allocateMessageBuffer 0 16 true, .clearBuffer 0,
      .writeBuffer 0 0 sampleMessage, .transmitBuffer 0 0 false, .cleanUpApp 1 1,
      .zeroCopyRelease 1, .routeBuffer 0, .broadcast 0]
    (Run.init init_sampleBus) (by decide +kernel)

end CfsEds.Sb
