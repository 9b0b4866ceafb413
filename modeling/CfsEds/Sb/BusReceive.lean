import CfsEds.Sb.BusSteps

/-!
# Receiving and deletion keep the invariant

The outcomes of the other actions. None of them makes a reference: they move one, or give one up
by `CFE_SB_DecrBufUseCnt`. All work on buffers whose sender is done, since a queue has them
(`CountInv.no_sender`), and so the zero copy list is out of reach.

A receiver gives up the last buffer of its pipe, waits without the lock, takes a buffer from the
queue and makes it the last one. The reference it has taken is counted with its task in between
(`BusInv.dequeue`). When it has the lock again the source raises the counter for the pipe and
then lowers it for the queue; in this order it does not reach zero (`BusInv.store`). The pipe
has no last buffer at that moment, which is `PipeInv.vacant`: without it the reference of an
overwritten one would be lost. It holds because one task at a time receives from a pipe, which
is assumed, and because a pipe that was deleted meanwhile no longer has the ID that the receiver
looks for.

A deletion makes the pipe unusable first and takes over its last buffer (`BusInv.beginDelete`),
then those in the queue, one by one, without the lock.

The release of the zero copy buffers of an application is the one action with a condition. It
gives up the reference of every entry of the list with the application's ID, so no claim to one
may be left. The application's own claims end with the clean-up (`Bus.disown`); a call that is
under way would go on to use the buffer, so there must be none (`CallsOver`).
-/

namespace CfsEds.Sb

open CfsEds.Es CfsEds.Lib.Memory CfsEds.Lib.RefCount List

variable {cfg : SbConfig} {s s' : Bus} {b c t u i j r : Nat} {pc : Pc}

variable {appId msgId p pipeId q scope : Nat} {old : Pc}

/-! ## Receiving -/

/-- A pipe ID is neither undefined nor reserved. -/
theorem live_of_locate (h : locatePipeDescByID cfg c = some i) : Live c := by
  have hserial : ¬ (uint32 (c + 2 ^ 32 - pipeIdBase) > resourceIdMax) := by
    intro hbad
    rw [locatePipeDescByID, resourceIdToIndex, if_pos (.inl hbad)] at h
    cases h
  refine ⟨fun hc => hserial ?_, fun hc => hserial ?_⟩ <;> subst hc <;> decide

theorem live_of_match (h : matchPipe cfg s c = some i) : Live c :=
  live_of_locate (Option.filter_eq_some_iff.1 h).1

theorem pipeId_of_match (h : matchPipe cfg s c = some i) : (s.pipe i).pipeId = c := by
  simpa using (Option.filter_eq_some_iff.1 h).2

theorem matchPipe_congr (h : ∀ i, (s'.pipe i).pipeId = (s.pipe i).pipeId) (p : Nat) :
    matchPipe cfg s' p = matchPipe cfg s p := by
  unfold matchPipe
  congr 1
  funext i
  rw [h i]

/-- A reference is given up by `CFE_SB_DecrBufUseCnt`. -/
theorem CountInv.decr (h : CountInv cfg s) (hb : 0 < refs s b)
    (hbufs : s'.bufs = (decrBufUseCnt s b).bufs)
    (hrefs : ∀ c, refs s' c + (if c = b then 1 else 0) = refs s c)
    (hsend : ∀ c, 0 < senderRefs s' c → c ≠ b ∧ 0 < senderRefs s c) : CountInv cfg s' := by
  have hbuf : ∀ c, s'.buf c = (decrBufUseCnt s b).buf c := fun c => by
    unfold Bus.buf
    rw [hbufs]
  refine h.release hb ?_ (fun c => ?_) (fun c => ?_) hrefs hsend
  · rw [hbufs, length_decrBufUseCnt]
  · rw [hbuf, useCount_decrBufUseCnt]
  · rw [hbuf, returns_decrBufUseCnt]

/-- Who has a buffer but its sender has it when there is no sender any more. -/
theorem CountInv.no_sender (h : CountInv cfg s)
    (hb : 0 < queueRefs s b + pcRefs Pc.dequeued s b + pipeRefs s b) : senderRefs s b = 0 := by
  by_contra hne
  have := h.exclusive b (by omega)
  unfold refs at this
  omega

theorem decrBufUseCnt_list_of_no_sender (h : senderRefs s b = 0) :
    (decrBufUseCnt s b).zeroCopyList = s.zeroCopyList := by
  have hnot : b ∉ s.zeroCopyList := by
    rw [← count_eq_zero]
    unfold senderRefs at h
    omega
  rw [decrBufUseCnt_zeroCopyList, erase_of_not_mem hnot, ite_self]

theorem senderRefs_decrBufUseCnt (h : senderRefs s b = 0) :
    senderRefs (decrBufUseCnt s b) c = senderRefs s c := by
  unfold senderRefs
  rw [pcRefs_decrBufUseCnt, decrBufUseCnt_list_of_no_sender h]

theorem refs_decrBufUseCnt (h : senderRefs s b = 0) : refs (decrBufUseCnt s b) c = refs s c := by
  unfold refs
  rw [queueRefs_decrBufUseCnt, pcRefs_decrBufUseCnt, pipeRefs_decrBufUseCnt,
    senderRefs_decrBufUseCnt h]

theorem ClaimInv.decr (h : ClaimInv s) (hb : senderRefs s b = 0) : ClaimInv (decrBufUseCnt s b) :=
  h.congr (decrBufUseCnt_list_of_no_sender hb) decrBufUseCnt_handles decrBufUseCnt_tasks
    fun _ _ => buf_decrBufUseCnt_of_eq (v := BufferD.appId) fun _ _ _ => rfl

theorem PipeInv.decr (h : PipeInv s) : PipeInv (decrBufUseCnt s b) :=
  h.congr decrBufUseCnt_tasks (fun _ => by rw [pipe_decrBufUseCnt])
    fun _ => by rw [pipe_decrBufUseCnt]

theorem RouteInv.decr (h : RouteInv cfg s) : RouteInv cfg (decrBufUseCnt s b) := by
  intro x hx
  rw [decrBufUseCnt_routes] at hx
  exact h x hx

theorem refs_modifyPipe {f : PipeD → PipeD} (hi : i < s.pipes.length) :
    refs (s.modifyPipe i f) c + (s.pipe i).held.count c =
      refs s c + (f (s.pipe i)).held.count c := by
  have hsum : pipeRefs (s.modifyPipe i f) c + (s.pipe i).held.count c =
      pipeRefs s c + (f (s.pipe i)).held.count c := tally_modify hi
  have hqueue : queueRefs (s.modifyPipe i f) c = queueRefs s c := rfl
  have hpcs : pcRefs Pc.dequeued (s.modifyPipe i f) c = pcRefs Pc.dequeued s c := rfl
  have hsend : senderRefs (s.modifyPipe i f) c = senderRefs s c := rfl
  unfold refs
  omega

theorem refs_modifyQueue {f : OsQueue → OsQueue} (hq : q < s.queues.length) :
    refs (s.modifyQueue q f) c + (s.queue q).items.count c =
      refs s c + (f (s.queue q)).items.count c := by
  have hsum : queueRefs (s.modifyQueue q f) c + (s.queue q).items.count c =
      queueRefs s c + (f (s.queue q)).items.count c := tally_modify hq
  have hpipe : pipeRefs (s.modifyQueue q f) c = pipeRefs s c := rfl
  have hpcs : pcRefs Pc.dequeued (s.modifyQueue q f) c = pcRefs Pc.dequeued s c := rfl
  have hsend : senderRefs (s.modifyQueue q f) c = senderRefs s c := rfl
  unfold refs
  omega

theorem held_le_pipeRefs (hi : i < s.pipes.length) : (s.pipe i).held.count c ≤ pipeRefs s c :=
  le_tally (f := fun p => p.held.count c) hi

theorem held_eq {p : PipeD} (h : Live p.pipeId) : p.held = p.lastBuffer.toList := if_pos h

theorem receiving_of_slot (h : pc.slot = some (p, i)) : pc.receiving = some p := by
  cases pc <;> simp_all [Pc.slot, Pc.receiving]

/-- A task starts to receive from a pipe that has given up its last buffer. -/
theorem PipeInv.receive (h : PipeInv s) (ht : t < s.tasks.length) (hlive : Live p)
    (hnone : (s.pipe i).lastBuffer = none) (hguard : ∀ task ∈ s.tasks, task.pc.receiving ≠ some p) :
    PipeInv (s.setPc t (.receiveWaiting p i q)) := by
  -- no other task has the pipe
  have hother : ∀ u i', (s.pc u).slot ≠ some (p, i') := by
    intro u i' hslot
    have hu : u < s.tasks.length := Bus.lt_of_pc (fun hidle => by rw [hidle] at hslot; cases hslot)
    refine hguard (s.tasks.getD u default) ?_ (receiving_of_slot hslot)
    rw [getD_eq_getElem _ _ hu]
    exact getElem_mem hu
  have hcases : ∀ u p' i', ((s.setPc t (.receiveWaiting p i q)).pc u).slot = some (p', i') →
      (u = t ∧ p' = p ∧ i' = i) ∨ (u ≠ t ∧ (s.pc u).slot = some (p', i')) := by
    intro u p' i' hslot
    by_cases hut : u = t
    · rw [hut, Bus.pc_setPc_self ht] at hslot
      obtain ⟨rfl, rfl⟩ := Prod.mk.inj (Option.some.inj hslot)
      exact .inl ⟨hut, rfl, rfl⟩
    · rw [Bus.pc_setPc_of_ne hut] at hslot
      exact .inr ⟨hut, hslot⟩
  refine ⟨fun u p' i' hu => ?_, fun u p' i' hu hid => ?_, fun u u' p' i' i'' hu hu' => ?_,
    fun u i' hu => ?_⟩
  · obtain ⟨-, rfl, -⟩ | ⟨-, hu⟩ := hcases u p' i' hu
    · exact hlive
    · exact h.live u p' i' hu
  · obtain ⟨-, -, rfl⟩ | ⟨-, hu⟩ := hcases u p' i' hu
    · exact hnone
    · exact h.vacant u p' i' hu hid
  · obtain ⟨rfl, rfl, -⟩ | ⟨-, hold⟩ := hcases u p' i' hu
    · obtain ⟨rfl, -, -⟩ | ⟨-, hold'⟩ := hcases u' p' i'' hu'
      · rfl
      · exact absurd hold' (hother u' i'')
    · obtain ⟨-, rfl, -⟩ | ⟨-, hold'⟩ := hcases u' p' i'' hu'
      · exact absurd hold (hother u i')
      · exact h.single u u' p' i' i'' hold hold'
  · exact h.deleting u i' (Bus.of_setPc ht (.inl rfl) hu)

/-- A pipe gives up its last buffer. -/
theorem PipeInv.clearLast (h : PipeInv s) :
    PipeInv (s.modifyPipe i fun p => { p with lastBuffer := none }) := by
  have hid : ∀ j, ((s.modifyPipe i fun p => { p with lastBuffer := none }).pipe j).pipeId =
      (s.pipe j).pipeId := fun j => by
    refine Bus.pipe_modifyPipe_of_eq (v := PipeD.pipeId) ?_
    exact fun _ => rfl
  refine ⟨h.live, fun u p j hu hp => ?_, h.single, fun u j hu => ?_⟩
  · have hnone := h.vacant u p j hu (hid j ▸ hp)
    by_cases hj : j = i
    · subst hj
      have hne : (s.pipe j).pipeId ≠ 0 := by
        rw [← hid, hp]
        exact (h.live u p j hu).1
      rw [Bus.pipe_modifyPipe_self (Bus.lt_of_pipeId hne)]
    · rw [Bus.pipe_modifyPipe_of_ne hj]
      exact hnone
  · rw [hid]
    exact h.deleting u j hu

theorem BusInv.receiving (h : BusInv cfg s) (hidle : s.Idle t)
    (hguard : ∀ task ∈ s.tasks, task.pc.receiving ≠ some pipeId)
    (hmatch : matchPipe cfg s pipeId = some i) (hlast : (s.pipe i).lastBuffer = none) :
    BusInv cfg (s.setPc t (.receiveWaiting pipeId i q)) := by
  obtain ⟨ht, hpc⟩ := hidle
  refine ⟨h.count.congr rfl (fun _ => rfl) (fun _ => rfl) (fun c => ?_) fun c => ?_,
    h.claim.setPc ht (congrArg Pc.zeroCopy hpc).symm,
    h.pipe.receive ht (live_of_match hmatch) hlast hguard, h.route⟩
  · exact @refs_setPc s c t (.receiveWaiting pipeId i q) _ ht hpc
  · exact @senderRefs_setPc s c t (.receiveWaiting pipeId i q) _ ht hpc

/-- The pipe gives up the buffer of the last message. -/
theorem BusInv.dropLast (h : BusInv cfg s) (hlive : Live (s.pipe i).pipeId)
    (hlast : (s.pipe i).lastBuffer = some b) :
    BusInv cfg ((decrBufUseCnt s b).modifyPipe i fun p => { p with lastBuffer := none }) := by
  have hi : i < s.pipes.length := Bus.lt_of_pipeId hlive.1
  have hheld : (s.pipe i).held = [b] := by
    rw [held_eq hlive, hlast]
    rfl
  have hpos : 0 < pipeRefs s b := by
    have hle := held_le_pipeRefs (c := b) hi
    rw [hheld, count_singleton_self] at hle
    exact hle
  have hnone := h.count.no_sender (b := b) (by omega)
  refine ⟨h.count.decr (b := b) (by unfold refs; omega) rfl (fun c => ?_) fun c hc => ?_,
    (h.claim.decr hnone).congr rfl rfl rfl fun _ _ => rfl, h.pipe.decr.clearLast, h.route.decr⟩
  · have hmod := refs_modifyPipe (s := decrBufUseCnt s b) (c := c)
      (f := fun p => { p with lastBuffer := none }) (by rwa [decrBufUseCnt_pipes])
    have hempty : ({ s.pipe i with lastBuffer := none } : PipeD).held = [] := by
      unfold PipeD.held
      split_ifs <;> rfl
    rw [pipe_decrBufUseCnt, hheld, count_one, refs_decrBufUseCnt hnone, hempty, count_nil,
      Nat.add_zero] at hmod
    exact hmod
  · replace hc : 0 < senderRefs (decrBufUseCnt s b) c := hc
    rw [senderRefs_decrBufUseCnt hnone] at hc
    refine ⟨fun hcb => ?_, hc⟩
    rw [hcb, hnone] at hc
    cases hc

theorem BusInv.receivingNext (h : BusInv cfg s) (hidle : s.Idle t)
    (hguard : ∀ task ∈ s.tasks, task.pc.receiving ≠ some pipeId)
    (hmatch : matchPipe cfg s pipeId = some i) (hlast : (s.pipe i).lastBuffer = some b) :
    BusInv cfg (((decrBufUseCnt s b).modifyPipe i fun p => { p with lastBuffer := none }).setPc t
      (.receiveWaiting pipeId i q)) := by
  have hlive : Live (s.pipe i).pipeId := by
    rw [pipeId_of_match hmatch]
    exact live_of_match hmatch
  have hi : i < (decrBufUseCnt s b).pipes.length := by
    rw [decrBufUseCnt_pipes]
    exact Bus.lt_of_pipeId hlive.1
  have htasks : (decrBufUseCnt s b).tasks = s.tasks := decrBufUseCnt_tasks
  have hpipe := @Bus.pipe_modifyPipe_self _ _ (fun p => { p with lastBuffer := none }) hi
  refine (h.dropLast hlive hlast).receiving ⟨?_, ?_⟩ ?_ ?_ ?_
  · exact htasks ▸ hidle.1
  · exact (Bus.pc_congr htasks t).trans hidle.2
  · exact htasks ▸ hguard
  · rw [← hmatch]
    refine matchPipe_congr (fun j => ?_) pipeId
    rw [← pipe_decrBufUseCnt (s := s) (b := b)]
    refine Bus.pipe_modifyPipe_of_eq (v := PipeD.pipeId) ?_
    exact fun _ => rfl
  · rw [hpipe]

/-- A task takes a buffer from a queue. -/
theorem BusInv.dequeue {items : List Nat} (h : BusInv cfg s) (ht : t < s.tasks.length)
    (hpc : s.pc t = old) (hitems : (s.queue q).items = b :: items) (hold : old.dequeued = [])
    (hnew : pc.dequeued = [b]) (hsending : pc.sending = old.sending)
    (hzero : pc.zeroCopy = old.zeroCopy) (hslot : pc.slot = none ∨ pc.slot = old.slot)
    (hdel : pc.deleting = none ∨ pc.deleting = old.deleting) :
    BusInv cfg ((s.modifyQueue q fun queue => { queue with items := items }).setPc t pc) := by
  subst hpc
  have hq : q < s.queues.length := Bus.lt_of_items (by rw [hitems]; exact cons_ne_nil _ _)
  refine ⟨h.count.congr rfl (fun _ => rfl) (fun _ => rfl) (fun c => ?_) fun c => ?_, ?_, ?_,
    h.route⟩
  · have hset := @refs_setPc (s.modifyQueue q fun queue => { queue with items := items }) c t pc _
      ht rfl
    have hmod := refs_modifyQueue (s := s) (c := c)
      (f := fun queue => { queue with items := items }) hq
    have hold' : ((s.modifyQueue q fun queue => { queue with items := items }).pc t).dequeued = [] :=
      hold
    have hsending' : pc.sending =
      ((s.modifyQueue q fun queue => { queue with items := items }).pc t).sending := hsending
    rw [hold', hnew, ← hsending', count_nil] at hset
    rw [hitems, count_cons] at hmod
    rw [count_singleton] at hset
    simp only at hmod
    omega
  · have hset := @senderRefs_setPc s c t pc _ ht rfl
    rw [hsending] at hset
    exact Nat.add_right_cancel hset
  · have hclaim : ClaimInv (s.modifyQueue q fun queue => { queue with items := items }) :=
      h.claim.congr rfl rfl rfl fun _ _ => rfl
    exact hclaim.setPc ht hzero
  · have hpipe : PipeInv (s.modifyQueue q fun queue => { queue with items := items }) :=
      h.pipe.congr rfl (fun _ => rfl) fun _ => rfl
    exact hpipe.setPc ht hslot hdel

theorem pcRefs_dequeued_pos (hpc : s.pc t = old) (hold : old.dequeued = [b]) :
    0 < pcRefs Pc.dequeued s b := by
  have hle := @count_le_pcRefs s b t Pc.dequeued
  have hidle : Pc.dequeued .idle = [] := rfl
  rw [hpc, hold, hidle, count_singleton_self] at hle
  exact hle

/-- A task gives up the buffer that it has taken from a queue. -/
theorem BusInv.dropDequeued (h : BusInv cfg s) (ht : t < s.tasks.length) (hpc : s.pc t = old)
    (hold : old.dequeued = [b]) (hnew : pc.dequeued = []) (hsending : pc.sending = old.sending)
    (hzero : pc.zeroCopy = old.zeroCopy) (hslot : pc.slot = none ∨ pc.slot = old.slot)
    (hdel : pc.deleting = none ∨ pc.deleting = old.deleting) :
    BusInv cfg ((decrBufUseCnt s b).setPc t pc) := by
  have hpos := pcRefs_dequeued_pos hpc hold
  have hnone := h.count.no_sender (b := b) (by omega)
  have ht' : t < (decrBufUseCnt s b).tasks.length := by rwa [decrBufUseCnt_tasks]
  have hpc' : (decrBufUseCnt s b).pc t = old := by rw [pc_decrBufUseCnt, hpc]
  refine ⟨h.count.decr (b := b) (by unfold refs; omega) rfl (fun c => ?_) fun c hc => ?_,
    (h.claim.decr hnone).setPc ht' (by rw [hpc', hzero]),
    h.pipe.decr.setPc ht' (by rw [hpc']; exact hslot) (by rw [hpc']; exact hdel),
    h.route.decr (b := b)⟩
  · have hset := @refs_setPc (decrBufUseCnt s b) c t pc _ ht' hpc'
    rw [hold, hnew, hsending, refs_decrBufUseCnt hnone, count_one, count_nil] at hset
    omega
  · have hset := @senderRefs_setPc (decrBufUseCnt s b) c t pc _ ht' hpc'
    rw [hsending, senderRefs_decrBufUseCnt hnone] at hset
    refine ⟨fun hcb => ?_, by omega⟩
    subst hcb
    omega

/-- The task puts the buffer it has taken into the pipe it receives from. -/
theorem PipeInv.store {x : PipeD → PipeD} (h : PipeInv s) (ht : t < s.tasks.length)
    (hslot : (s.pc t).slot = some (p, i)) (hp : (s.pipe i).pipeId = p)
    (hid : ∀ d, (x d).pipeId = d.pipeId) (hnew : pc.slot = none ∧ pc.deleting = none) :
    PipeInv ((s.modifyPipe i x).setPc t pc) := by
  have hid' : ∀ j, ((s.modifyPipe i x).pipe j).pipeId = (s.pipe j).pipeId := fun j =>
    Bus.pipe_modifyPipe_of_eq (v := PipeD.pipeId) hid
  have hother : ∀ u p' j, (((s.modifyPipe i x).setPc t pc).pc u).slot = some (p', j) →
      u ≠ t ∧ (s.pc u).slot = some (p', j) := by
    intro u p' j hu
    replace hu : ((s.setPc t pc).pc u).slot = some (p', j) := hu
    refine ⟨?_, Bus.of_setPc ht (.inl hnew.1) hu⟩
    rintro rfl
    rw [Bus.pc_setPc_self ht, hnew.1] at hu
    cases hu
  refine ⟨fun u p' j hu => h.live u p' j (hother u p' j hu).2, fun u p' j hu hp' => ?_,
    fun u u' p' j j' hu hu' =>
      h.single u u' p' j j' (hother u p' j hu).2 (hother u' p' j' hu').2, fun u j hu => ?_⟩
  · obtain ⟨hut, hslotu⟩ := hother u p' j hu
    replace hp' : ((s.modifyPipe i x).pipe j).pipeId = p' := hp'
    rw [hid'] at hp'
    -- another task does not receive from this pipe
    have hji : j ≠ i := by
      rintro rfl
      rw [hp] at hp'
      subst hp'
      exact hut (h.single u t _ j j hslotu hslot)
    show ((s.modifyPipe i x).pipe j).lastBuffer = none
    rw [Bus.pipe_modifyPipe_of_ne hji]
    exact h.vacant u p' j hslotu hp'
  · replace hu : ((s.setPc t pc).pc u).deleting = some j := hu
    show ¬ Live ((s.modifyPipe i x).pipe j).pipeId
    rw [hid']
    exact h.deleting u j (Bus.of_setPc ht (.inl hnew.2) hu)

theorem length_updateDest {f : Dest → Dest} (dests : List Dest) :
    (updateDest p f dests).length = dests.length := by
  induction dests with
  | nil => rfl
  | cons d rest ih =>
    rw [updateDest]
    split_ifs
    · rfl
    · rw [length_cons, length_cons, ih]

/-- The state in which the receiver has its reference in the pipe, and gives up the one
that it had from the queue. -/
theorem BusInv.store {x : PipeD → PipeD} {routes : List Route} (h : BusInv cfg s)
    (ht : t < s.tasks.length) (hpc : s.pc t = .receiveHolding p i b) (hp : (s.pipe i).pipeId = p)
    (hid : ∀ d, (x d).pipeId = d.pipeId) (hlast : ∀ d, (x d).lastBuffer = some b)
    (hroutes : ∀ r ∈ routes, r.dests.length ≤ cfg.maxDestPerPkt) :
    BusInv cfg ((decrBufUseCnt { (incrBufUseCnt s b).modifyPipe i x with routes := routes } b).setPc
      t .idle) := by
  have hslot : (s.pc t).slot = some (p, i) := by rw [hpc]; rfl
  have hlive := h.pipe.live t p i hslot
  have hi : i < s.pipes.length := Bus.lt_of_pipeId (by rw [hp]; exact hlive.1)
  have hvacant := h.pipe.vacant t p i hslot hp
  have hpos := pcRefs_dequeued_pos (b := b) hpc rfl
  have hnone := h.count.no_sender (b := b) (by omega)
  have hrefs : 0 < refs s b := by unfold refs; omega
  have hlt := h.count.counted.lt hrefs
  have huse := h.count.counted.use b hlt
  have hmax : (s.buf b).useCount < 0x7fff := by
    have := h.count.few b
    have := cfg.hdest
    omega
  have hincr : incrBufUseCnt s b = s.modifyBuf b fun d => { d with useCount := d.useCount + 1 } :=
    if_pos hmax
  generalize hs₃ : ({ (incrBufUseCnt s b).modifyPipe i x with routes := routes } : Bus) = s₃
  have hbuf : ∀ c, s₃.buf c =
      { s.buf c with useCount := (s.buf c).useCount + if c = b then 1 else 0 } := fun c => by
    rw [← hs₃]
    exact buf_incrBufUseCnt hlt hmax
  have huse₃ : ∀ c, (s₃.buf c).useCount = (s.buf c).useCount + if c = b then 1 else 0 :=
    fun c => by rw [hbuf]
  have hret₃ : ∀ c, (s₃.buf c).returns = (s.buf c).returns := fun c => by rw [hbuf]
  have htasks : s₃.tasks = s.tasks := by rw [← hs₃, hincr]; rfl
  have hzero : s₃.zeroCopyList = s.zeroCopyList := by rw [← hs₃, hincr]; rfl
  have hsend : ∀ c, senderRefs s₃ c = senderRefs s c := fun c => by rw [← hs₃, hincr]; rfl
  have hnone₃ : senderRefs s₃ b = 0 := by rw [hsend, hnone]
  have hpc₃ : (decrBufUseCnt s₃ b).pc t = .receiveHolding p i b := by
    rw [pc_decrBufUseCnt, Bus.pc_congr htasks, hpc]
  have ht₃ : t < (decrBufUseCnt s₃ b).tasks.length := by rwa [decrBufUseCnt_tasks, htasks]
  refine ⟨h.count.congr ?_ (fun c => ?_) (fun c => ?_) (fun c => ?_) fun c => ?_, ?_, ?_, ?_⟩
  · show (decrBufUseCnt s₃ b).bufs.length = _
    rw [length_decrBufUseCnt, ← hs₃, hincr]
    exact Bus.length_modifyBuf
  · show ((decrBufUseCnt s₃ b).buf c).useCount = _
    rw [useCount_decrBufUseCnt, huse₃, Nat.add_sub_cancel]
  · -- the counter was raised first, so that it does not become zero
    show ((decrBufUseCnt s₃ b).buf c).returns = _
    rw [returns_decrBufUseCnt, huse₃, hret₃, if_pos rfl, if_neg (by omega), Nat.add_zero]
  · have hset := @refs_setPc (decrBufUseCnt s₃ b) c t .idle _ ht₃ hpc₃
    have hmod : refs s₃ c + (s.pipe i).held.count c = refs s c + (x (s.pipe i)).held.count c := by
      have : refs s₃ c = refs (s.modifyPipe i x) c := by rw [← hs₃, hincr]; rfl
      rw [this]
      exact refs_modifyPipe hi
    -- the pipe gains the reference that the task loses
    have hheld : (s.pipe i).held = [] := by
      rw [held_eq (by rw [hp]; exact hlive), hvacant]
      rfl
    have hheld' : (x (s.pipe i)).held = [b] := by
      rw [held_eq (by rw [hid, hp]; exact hlive), hlast]
      rfl
    rw [hheld, hheld', count_nil] at hmod
    rw [refs_decrBufUseCnt hnone₃] at hset
    simp only [Pc.dequeued, Pc.sending, count_nil] at hset
    omega
  · have hset := @senderRefs_setPc (decrBufUseCnt s₃ b) c t .idle _ ht₃ hpc₃
    rw [senderRefs_decrBufUseCnt hnone₃, hsend] at hset
    exact hset
  · have hclaim : ClaimInv s₃ := h.claim.congr hzero (by rw [← hs₃, hincr]; rfl) htasks
      fun c _ => by rw [hbuf]
    exact (hclaim.decr hnone₃).setPc ht₃ (congrArg Pc.zeroCopy hpc₃).symm
  · have hpipe : PipeInv ((s.modifyPipe i x).setPc t .idle) :=
      h.pipe.store ht hslot hp hid ⟨rfl, rfl⟩
    have hpipes : ∀ j, ((decrBufUseCnt s₃ b).setPc t .idle).pipe j =
        ((s.modifyPipe i x).setPc t .idle).pipe j := fun j => by
      show (decrBufUseCnt s₃ b).pipe j = (s.modifyPipe i x).pipe j
      rw [pipe_decrBufUseCnt, ← hs₃, hincr]
      rfl
    refine hpipe.congr ?_ (fun j => by rw [hpipes]) fun j => by rw [hpipes]
    unfold Bus.setPc
    rw [decrBufUseCnt_tasks, htasks]
    rfl
  · intro y hy
    have hroutes' : ((decrBufUseCnt s₃ b).setPc t .idle).routes = routes := by
      show (decrBufUseCnt s₃ b).routes = _
      rw [decrBufUseCnt_routes, ← hs₃]
    rw [hroutes'] at hy
    exact hroutes y hy

theorem BusInv.stored {routes : List Route} (h : BusInv cfg s)
    (hpc : s.pc t = .receiveHolding p i b) (hid : (s.pipe i).pipeId = p)
    (hroutes : routes = s.routes ∨ ∃ r, routes = s.routes.modify r fun x =>
      { x with dests := updateDest p Dest.countDown x.dests }) :
    BusInv cfg ((decrBufUseCnt { (incrBufUseCnt s b).modifyPipe i (fun p => { p with
      lastBuffer := some b, currentQueueDepth := p.currentQueueDepth - 1 }) with
        routes := routes } b).setPc t .idle) := by
  refine h.store (Bus.lt_of_pc_eq hpc) hpc hid (fun _ => rfl) (fun _ => rfl) ?_
  obtain rfl | ⟨r, rfl⟩ := hroutes
  · exact h.route
  · refine h.route.modifyRoute fun x hx => ?_
    rw [length_updateDest]
    exact hx

/-! ## Deletion -/

/-- A pipe goes out of use. -/
theorem PipeInv.retire {n : Nat} (h : PipeInv s) (hn : ¬ Live n) :
    PipeInv (s.modifyPipe i fun p => { p with pipeId := n }) := by
  have hcases : ∀ j, ((s.modifyPipe i fun p => { p with pipeId := n }).pipe j) = s.pipe j ∨
      ((s.modifyPipe i fun p => { p with pipeId := n }).pipe j).pipeId = n := by
    intro j
    by_cases hj : j = i
    · subst hj
      by_cases hlt : j < s.pipes.length
      · exact .inr (by rw [Bus.pipe_modifyPipe_self hlt])
      · refine .inl ?_
        unfold Bus.modifyPipe
        rw [modify_eq_self (Nat.le_of_not_lt hlt)]
    · exact .inl (Bus.pipe_modifyPipe_of_ne hj)
  refine ⟨h.live, fun u p j hu hp => ?_, h.single, fun u j hu => ?_⟩
  · rcases hcases j with heq | heq
    · rw [heq] at hp ⊢
      exact h.vacant u p j hu hp
    · rw [heq] at hp
      exact absurd (hp ▸ h.live u p j hu) hn
  · rcases hcases j with heq | heq
    · rw [heq]
      exact h.deleting u j hu
    · rw [heq]
      exact hn

/-- A task starts to delete a pipe that is out of use. -/
theorem PipeInv.delete (h : PipeInv s) (ht : t < s.tasks.length) (hslot : pc.slot = none)
    (hdel : pc.deleting = some i) (hi : ¬ Live (s.pipe i).pipeId) : PipeInv (s.setPc t pc) := by
  have hslot' : ∀ u x, ((s.setPc t pc).pc u).slot = some x → (s.pc u).slot = some x :=
    fun u x hu => Bus.of_setPc ht (.inl hslot) hu
  refine ⟨fun u p j hu => h.live u p j (hslot' u _ hu),
    fun u p j hu hp => h.vacant u p j (hslot' u _ hu) hp,
    fun u u' p j j' hu hu' => h.single u u' p j j' (hslot' u _ hu) (hslot' u' _ hu'),
    fun u j hu => ?_⟩
  by_cases hut : u = t
  · rw [hut, Bus.pc_setPc_self ht, hdel] at hu
    cases hu
    exact hi
  · rw [Bus.pc_setPc_of_ne hut] at hu
    exact h.deleting u j hu

theorem length_removeDest (dests : List Dest) : (removeDest p dests).length ≤ dests.length :=
  length_eraseP_le

theorem not_live_reserved : ¬ Live resourceIdReserved := fun h => h.2 rfl

theorem not_live_zero : ¬ Live 0 := fun h => h.1 rfl

theorem held_of_not_live {p : PipeD} (h : ¬ Live p.pipeId) : p.held = [] := if_neg h

section

variable (h : BusInv cfg s)
include h

/-- The deletion takes over the last buffer of the pipe. -/
theorem BusInv.beginDelete {rest : Option (Nat × List Nat)} (ht : t < s.tasks.length)
    (hpc : s.pc t = old) (hdequeued : old.dequeued = []) (hsending : old.sending = [])
    (hzero : old.zeroCopy = []) (hlive : Live (s.pipe i).pipeId) :
    BusInv cfg ((s.modifyPipe i fun p => { p with pipeId := resourceIdReserved }).setPc t
      (.deleteDraining i q (s.pipe i).lastBuffer rest)) := by
  have hi : i < s.pipes.length := Bus.lt_of_pipeId hlive.1
  have hlast : (Pc.deleteDraining i q (s.pipe i).lastBuffer rest).dequeued = (s.pipe i).held := by
    rw [held_eq hlive]
    cases (s.pipe i).lastBuffer <;> rfl
  generalize hs₁ : s.modifyPipe i (fun p => { p with pipeId := resourceIdReserved }) = s₁
  have ht₁ : t < s₁.tasks.length := hs₁ ▸ ht
  have hpc₁ : s₁.pc t = old := hs₁ ▸ hpc
  -- no counter changes: what the pipe had is counted with the task from now on
  refine ⟨h.count.congr (by rw [← hs₁]; rfl) (fun c => by rw [← hs₁]; rfl)
    (fun c => by rw [← hs₁]; rfl) (fun c => ?_) fun c => ?_, ?_, ?_, by rw [← hs₁]; exact h.route⟩
  · have hset := @refs_setPc s₁ c t (.deleteDraining i q (s.pipe i).lastBuffer rest) _ ht₁ hpc₁
    have hmod : refs s₁ c + _ = _ := hs₁ ▸ refs_modifyPipe (c := c) hi
    rw [held_of_not_live (p := { s.pipe i with pipeId := resourceIdReserved }) not_live_reserved,
      count_nil] at hmod
    rw [hdequeued, hsending, hlast] at hset
    simp only [Pc.sending, count_nil] at hset
    omega
  · have hset := @senderRefs_setPc s₁ c t (.deleteDraining i q (s.pipe i).lastBuffer rest) _ ht₁
      hpc₁
    have hmod : senderRefs s₁ c = senderRefs s c := by
      rw [← hs₁]
      rfl
    rw [hsending, hmod] at hset
    exact hset
  · have hclaim : ClaimInv s₁ := hs₁ ▸ h.claim.congr rfl rfl rfl fun _ _ => rfl
    exact hclaim.setPc ht₁ (by rw [hpc₁, hzero]; rfl)
  · have hpipe : PipeInv s₁ := hs₁ ▸ h.pipe.retire not_live_reserved
    refine hpipe.delete ht₁ rfl rfl ?_
    rw [← hs₁, Bus.pipe_modifyPipe_self hi]
    exact not_live_reserved

theorem BusInv.deleting {rest : Option (Nat × List Nat)} (ht : t < s.tasks.length)
    (hpc : s.pc t = old) (hdequeued : old.dequeued = []) (hsending : old.sending = [])
    (hzero : old.zeroCopy = []) (hmatch : matchPipe cfg s pipeId = some i) :
    BusInv cfg ((reserved s pipeId i).setPc t
      (.deleteDraining i (s.pipe i).sysQueueId (s.pipe i).lastBuffer rest)) := by
  have hroutes : ∀ r ∈ s.routes.map fun r => { r with dests := removeDest pipeId r.dests },
      r.dests.length ≤ cfg.maxDestPerPkt := by
    intro r hr
    obtain ⟨r', hr', rfl⟩ := mem_map.1 hr
    exact Nat.le_trans (length_removeDest r'.dests) (h.route r' hr')
  have hlive : Live (s.pipe i).pipeId := by
    rw [pipeId_of_match hmatch]
    exact live_of_match hmatch
  exact (h.withRoutes hroutes).beginDelete ht hpc hdequeued hsending hzero hlive

theorem BusInv.freed {rest : Option (Nat × List Nat)} (hpc : s.pc t = .deleteDrained i rest) :
    BusInv cfg ((s.modifyPipe i fun p => { p with pipeId := 0 }).setPc t (afterDelete rest)) := by
  have ht := Bus.lt_of_pc_eq hpc
  have hdead : ¬ Live (s.pipe i).pipeId := h.pipe.deleting t i (by rw [hpc]; rfl)
  have hfree : BusInv cfg (s.modifyPipe i fun p => { p with pipeId := 0 }) := by
    refine ⟨h.count.congr rfl (fun _ => rfl) (fun _ => rfl) (fun c => ?_) fun _ => rfl,
      h.claim.congr rfl rfl rfl fun _ _ => rfl, h.pipe.retire not_live_zero, h.route⟩
    by_cases hi : i < s.pipes.length
    · have hmod := refs_modifyPipe (c := c) (f := fun p => { p with pipeId := 0 }) hi
      rw [held_of_not_live hdead,
        held_of_not_live (p := { s.pipe i with pipeId := 0 }) not_live_zero] at hmod
      exact Nat.add_right_cancel hmod
    · unfold Bus.modifyPipe
      rw [modify_eq_self (Nat.le_of_not_lt hi)]
  have hafter : (afterDelete rest).dequeued = [] ∧ (afterDelete rest).sending = [] ∧
      (afterDelete rest).zeroCopy = [] ∧ (afterDelete rest).slot = none ∧
      (afterDelete rest).deleting = none := by
    cases rest <;> exact ⟨rfl, rfl, rfl, rfl, rfl⟩
  exact hfree.setPc ht hpc hafter.1 hafter.2.1 hafter.2.2.1 (.inl hafter.2.2.2.1)
    (.inl hafter.2.2.2.2)

end

/-! ## The end of an application -/

/-- No task of the application is in a call with a zero copy buffer. -/
def CallsOver (s : Bus) (appId : Nat) : Prop :=
  ∀ task ∈ s.tasks, task.appId = appId → task.pc.zeroCopy = []

instance (s : Bus) (appId : Nat) : Decidable (CallsOver s appId) :=
  inferInstanceAs (Decidable (∀ _ ∈ _, _))

/-- No task of the application has a zero copy buffer, or is in a call with one. -/
def ZeroCopyQuiet (s : Bus) (appId : Nat) : Prop :=
  (∀ h ∈ s.handles, h.1 ≠ appId) ∧ CallsOver s appId

/-- Nobody claims the buffers of a quiet application. -/
theorem ClaimInv.no_claim (h : ClaimInv s) (hquiet : ZeroCopyQuiet s appId)
    (hb : (s.buf b).appId = appId) : claims s b = 0 := by
  unfold claims
  have htasks : pcRefs Pc.zeroCopy s b = 0 := by
    refine tally_eq_zero fun task htask => count_eq_zero.2 fun hmem => ?_
    obtain ⟨u, hu, rfl⟩ := mem_iff_getElem.1 htask
    have htask' : s.tasks.getD u default = s.tasks[u] := getD_eq_getElem _ _ hu
    have happ : (s.buf b).appId = s.app u := h.taskApp u b (by unfold Bus.pc; rwa [htask'])
    have hnil := hquiet.2 s.tasks[u] htask (by rw [← hb, happ, Bus.app, htask'])
    rw [hnil] at hmem
    cases hmem
  have hhandles : (s.handles.map Prod.snd).count b = 0 := by
    refine count_eq_zero.2 fun hmem => ?_
    obtain ⟨⟨a, b'⟩, ha, rfl⟩ := mem_map.1 hmem
    exact hquiet.1 _ ha ((h.handleApp a b' ha).symm.trans hb)
  omega

/-- A buffer on the zero copy list that nobody claims is given up. -/
theorem BusInv.dropZeroCopy (h : BusInv cfg s) (hb : b ∈ s.zeroCopyList) (hclaims : claims s b = 0) :
    BusInv cfg (decrBufUseCnt s b) ∧ ∀ c, (decrBufUseCnt s b).zeroCopyList.count c =
        s.zeroCopyList.count c - if c = b then 1 else 0 := by
  have hone := h.count.pos_of_zeroCopy hb
  have hin := count_pos_iff.2 hb
  have huse := h.count.counted.use b (h.count.counted.lt (by omega))
  have hlist : ∀ c, (decrBufUseCnt s b).zeroCopyList.count c =
      s.zeroCopyList.count c - if c = b then 1 else 0 := by
    intro c
    rw [decrBufUseCnt_zeroCopyList, if_pos (by omega)]
    split_ifs with hcb
    · rw [hcb, count_erase_self]
    · rw [count_erase_of_ne hcb, Nat.sub_zero]
  have hsend : ∀ c, senderRefs (decrBufUseCnt s b) c + (if c = b then 1 else 0) =
      senderRefs s c := by
    intro c
    have hlistc := hlist c
    unfold senderRefs
    rw [pcRefs_decrBufUseCnt]
    split_ifs at * with hcb
    · subst hcb
      omega
    · omega
  have hle : senderRefs s b ≤ 1 := by
    unfold refs at hone
    omega
  refine ⟨⟨h.count.decr (b := b) (by omega) rfl (fun c => ?_) fun c hc => ?_, ?_, h.pipe.decr,
    h.route.decr⟩, hlist⟩
  · have hsendc := hsend c
    unfold refs
    rw [queueRefs_decrBufUseCnt, pcRefs_decrBufUseCnt, pipeRefs_decrBufUseCnt]
    omega
  · have hsendc := hsend c
    refine ⟨fun hcb => ?_, by omega⟩
    rw [if_pos hcb] at hsendc
    rw [hcb] at hsendc hc
    omega
  · have hclaims' : ∀ c, claims (decrBufUseCnt s b) c = claims s c := by
      intro c
      unfold claims
      rw [pcRefs_decrBufUseCnt, decrBufUseCnt_handles]
    refine ⟨fun c => ?_, fun a c hc => ?_, fun u c hc => ?_⟩
    · have := h.claim.claimed c
      rw [hclaims', hlist]
      split_ifs with hcb
      · rw [hcb, hclaims]
        exact Nat.zero_le _
      · omega
    · rw [decrBufUseCnt_handles] at hc
      rw [buf_decrBufUseCnt_of_eq (v := BufferD.appId) fun _ _ _ => rfl]
      exact h.claim.handleApp a c hc
    · rw [pc_decrBufUseCnt] at hc
      rw [buf_decrBufUseCnt_of_eq (v := BufferD.appId) fun _ _ _ => rfl, app_decrBufUseCnt]
      exact h.claim.taskApp u c hc

/-- The loop over the zero copy list. What is left of it at the start is still on it. -/
theorem zeroCopyReleaseAppId_inv (list : List Nat) (h : BusInv cfg s)
    (hquiet : ZeroCopyQuiet s appId) (hlist : ∀ c, list.count c ≤ s.zeroCopyList.count c) :
    BusInv cfg (zeroCopyReleaseAppId s appId list) ∧
      (zeroCopyReleaseAppId s appId list).tasks = s.tasks := by
  -- the loop goes over the list as it was and takes entries off the list as it is
  induction list generalizing s with
  | nil => exact ⟨h, rfl⟩
  | cons b rest ih =>
    rw [zeroCopyReleaseAppId]
    have hcount : ∀ c, rest.count c + (if c = b then 1 else 0) ≤ s.zeroCopyList.count c := by
      intro c
      have hc := hlist c
      rw [count_cons] at hc
      split_ifs with hcb
      · rw [if_pos (by simp [hcb])] at hc
        exact hc
      · exact Nat.le_trans (Nat.le_add_right _ _) hc
    split_ifs with happ
    · have hb : b ∈ s.zeroCopyList := by
        have := hcount b
        rw [if_pos rfl] at this
        exact count_pos_iff.1 (by omega)
      obtain ⟨hinv, hlist'⟩ := h.dropZeroCopy hb (h.claim.no_claim hquiet happ)
      have hquiet' : ZeroCopyQuiet (decrBufUseCnt s b) appId := by
        unfold ZeroCopyQuiet CallsOver
        rw [decrBufUseCnt_handles, decrBufUseCnt_tasks]
        exact hquiet
      obtain ⟨hrun, htasks⟩ := ih hinv hquiet' fun c => by
        have := hcount c
        rw [hlist']
        omega
      exact ⟨hrun, htasks.trans decrBufUseCnt_tasks⟩
    · exact ih h hquiet fun c => Nat.le_trans (Nat.le_add_right _ _) (hcount c)

theorem BusInv.disown (h : BusInv cfg s) : BusInv cfg (s.disown appId) := by
  refine ⟨h.count.congr rfl (fun _ => rfl) (fun _ => rfl) (fun _ => rfl) fun _ => rfl, ?_,
    h.pipe.congr rfl (fun _ => rfl) fun _ => rfl, h.route⟩
  refine ⟨fun c => ?_, fun a c hc => h.claim.handleApp a c (mem_of_mem_filter hc), h.claim.taskApp⟩
  have hle := h.claim.claimed c
  have hsub := ((filter_sublist (p := fun h : Nat × Nat => decide (h.1 ≠ appId))
    (l := s.handles)).map Prod.snd).count_le c
  exact Nat.le_trans (Nat.add_le_add_left hsub _) hle

/-- The buffers are released after the application has lost its handles, so that only its
calls in progress could still claim one. -/
theorem BusInv.zeroCopyReleased (h : BusInv cfg s) (hpc : s.pc t = .cleaning appId [])
    (hover : CallsOver s appId) :
    BusInv cfg ((if appId = 0 then s else
      zeroCopyReleaseAppId (s.disown appId) appId s.zeroCopyList).setPc t .idle) := by
  have ht := Bus.lt_of_pc_eq hpc
  split_ifs
  · exact h.setPc ht hpc rfl rfl rfl (.inl rfl) (.inl rfl)
  · have hquiet : ZeroCopyQuiet (s.disown appId) appId :=
      ⟨fun held hheld => of_decide_eq_true (mem_filter.1 hheld).2, hover⟩
    obtain ⟨hinv, htasks⟩ :=
      zeroCopyReleaseAppId_inv s.zeroCopyList h.disown hquiet fun _ => Nat.le_refl _
    have hpc' := (Bus.pc_congr htasks t).trans hpc
    exact hinv.setPc (by rwa [htasks]) hpc' rfl rfl rfl (.inl rfl) (.inl rfl)

/-! ## Subscriptions -/

theorem length_addDest {msgLim : Nat} {dests : List Dest} (h : dests.length ≤ cfg.maxDestPerPkt) :
    (addDest cfg p msgLim scope dests).length ≤ cfg.maxDestPerPkt := by
  unfold addDest
  split_ifs with hfull
  · exact h
  · rw [length_cons]
    omega

theorem addRoute_inv (h : BusInv cfg s) : BusInv cfg (addRoute cfg s msgId) := by
  unfold addRoute
  split_ifs
  · refine h.withRoutes fun r hr => ?_
    rcases mem_append.1 hr with hr | hr
    · exact h.route r hr
    · rw [mem_singleton.1 hr]
      exact Nat.zero_le _
  · exact h

/-- What a subscription can do. -/
theorem subscribe_cases {msgLim : Nat}
    (hstep : subscribe cfg s t msgId pipeId msgLim scope = some s') :
    s' = s ∨ isValidMsgId cfg msgId = true ∧ (s' = addRoute cfg s msgId ∨
      ∃ r, s' = (addRoute cfg s msgId).modifyRoute r fun x =>
        { x with dests := addDest cfg pipeId msgLim scope x.dests }) := by
  unfold subscribe at hstep
  split_ifs at hstep
  cases hmatch : matchPipe cfg s pipeId with
  | none =>
    rw [hmatch] at hstep
    exact .inl (Option.some.inj hstep).symm
  | some =>
    rw [hmatch, Option.elim_some] at hstep
    split_ifs at hstep with hbad
    · exact .inl (Option.some.inj hstep).symm
    refine .inr ⟨?_, ?_⟩
    · cases hvalid : isValidMsgId cfg msgId
      · exact absurd (.inr (.inl hvalid)) hbad
      · rfl
    · dsimp only at hstep
      split at hstep
      · exact .inl (Option.some.inj hstep).symm
      · exact .inr ⟨_, (Option.some.inj hstep).symm⟩

theorem unsubscribe_cases (hstep : unsubscribe cfg s t msgId pipeId scope = some s') :
    s' = s ∨ ∃ r, s' = s.modifyRoute r fun x => { x with dests := removeDest pipeId x.dests } := by
  unfold unsubscribe at hstep
  split_ifs at hstep
  cases hmatch : matchPipe cfg s pipeId with
  | none =>
    rw [hmatch] at hstep
    exact .inl (Option.some.inj hstep).symm
  | some =>
    rw [hmatch, Option.elim_some] at hstep
    split_ifs at hstep
    · exact .inl (Option.some.inj hstep).symm
    · split at hstep
      · exact .inl (Option.some.inj hstep).symm
      · exact .inr ⟨_, (Option.some.inj hstep).symm⟩

theorem subscribe_inv {msgLim : Nat} (h : BusInv cfg s)
    (hstep : subscribe cfg s t msgId pipeId msgLim scope = some s') : BusInv cfg s' := by
  have hroute : BusInv cfg (addRoute cfg s msgId) := addRoute_inv h
  obtain rfl | ⟨-, rfl | ⟨r, rfl⟩⟩ := subscribe_cases hstep
  · exact h
  · exact hroute
  · exact hroute.modifyRoute fun x hx => length_addDest hx

theorem unsubscribe_inv (h : BusInv cfg s)
    (hstep : unsubscribe cfg s t msgId pipeId scope = some s') : BusInv cfg s' := by
  obtain rfl | ⟨r, rfl⟩ := unsubscribe_cases hstep
  · exact h
  · exact h.modifyRoute fun x hx => Nat.le_trans (length_removeDest x.dests) hx

theorem setRoute_inv {active : Bool} (h : BusInv cfg s) :
    BusInv cfg (setRoute cfg s msgId pipeId active) := by
  unfold setRoute
  cases matchPipe cfg s pipeId with
  | none => exact h
  | some =>
    split
    · exact h
    · refine h.modifyRoute fun x hx => ?_
      rw [length_updateDest]
      exact hx

end CfsEds.Sb
