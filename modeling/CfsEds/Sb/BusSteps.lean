import CfsEds.Sb.BusCases

/-!
# Sending keeps the invariant

The outcomes of the actions that send, in the order of `CfsEds.Sb.Bus`: a buffer comes from the
pool, its broadcast gives it to queues, and the sender gives up its own reference.

The broadcast is one section under the lock, but `BusInv` does not hold inside of it, as the
sender has its reference while the queues get theirs. What the loop over the destinations does
is therefore said apart, as `Sent s s' b k`: `k` queues have got `b`, its counter has grown by
`k`, and nothing else that the invariant is about has changed. Each destination adds one or none
(`sendToPipe_sent`), so by induction over the destinations `k` is at most their number
(`sendToDests_sent`), which `RouteInv` bounds by what the platform allows. That is why the
counter, of 16 bits and not raised beyond `0x7fff`, loses no reference: before the loop the
buffer has one only, its sender's (`BusInv.owner`).

`BusInv.giveUp` closes the section. The counter is lowered by one while the sender's reference
goes, so both are right again, and the buffer is given back to the pool if and only if no queue
took it. The entry of a zero copy buffer leaves the list with the sender, which keeps `ClaimInv`
since no other call and no application claims the buffer (`ClaimInv.drop`).

With zero copy the reference is that of the entry on the list from the allocation on, and only
the claim moves between the application and its calls (`BusInv.toHandle`, `BusInv.ofHandle`). An
application has a buffer until it passes it to a send or a release, as the documentation of
these calls demands.
-/

namespace CfsEds.Sb

open CfsEds.Es CfsEds.Lib.RefCount List

variable {cfg : SbConfig} {s s' : Bus} {b c t u i j r : Nat} {pc : Pc}

variable {msg : Message} {appId k : Nat} {routeId : Option Nat} {old : Pc}

/-! ## Sending a copy -/

theorem buf_getBufferFromPool : (getBufferFromPool s).2.buf c = if c = s.bufs.length then
      ⟨0, 0, 0, .invalid, false, 1, default, 0⟩
    else s.buf c :=
  getD_concat _

/-- A buffer from the pool, for the call of a task or the zero copy list. -/
theorem CountInv.newBuffer (h : CountInv cfg s) (hlen : s'.bufs.length = s.bufs.length + 1)
    (huse : ∀ c, (s'.buf c).useCount = ((getBufferFromPool s).2.buf c).useCount)
    (hret : ∀ c, (s'.buf c).returns = ((getBufferFromPool s).2.buf c).returns)
    (hrefs : ∀ c, refs s' c = refs s c + [s.bufs.length].count c)
    (hsend : ∀ c, senderRefs s' c = senderRefs s c + [s.bufs.length].count c) :
    CountInv cfg s' := by
  refine h.create hlen (fun c => ?_) (fun c => ?_) (fun c => ?_) fun c => ?_
  · rw [huse, buf_getBufferFromPool]
    split_ifs <;> rfl
  · rw [hret, buf_getBufferFromPool]
    split_ifs <;> rfl
  · rw [hrefs, count_one]
  · rw [hsend, count_one]

theorem BusInv.allocated {inc : Bool} (h : BusInv cfg s)
    (hpc : s.pc t = .transmitValidated msg inc (some r)) : BusInv cfg
      ((getBufferFromPool s).2.setPc t (.transmitAllocated msg inc r s.bufs.length)) := by
  have ht := Bus.lt_of_pc_eq hpc
  refine ⟨?_, ?_, ?_, h.route⟩
  · refine h.count.newBuffer (by simp [Bus.setPc, getBufferFromPool]) (fun _ => rfl) (fun _ => rfl) (fun c => ?_)
      fun c => ?_
    · have hrefs := @refs_setPc s c t (.transmitAllocated msg inc r s.bufs.length) _ ht hpc
      simp only [Pc.dequeued, Pc.sending, count_nil, Nat.zero_add] at hrefs
      exact hrefs
    · have hsend := @senderRefs_setPc s c t (.transmitAllocated msg inc r s.bufs.length) _ ht hpc
      exact hsend
  · have hclaim : ClaimInv (getBufferFromPool s).2 := h.claim.congr rfl rfl rfl fun c hc => by
      have := h.claim.lt h.count hc
      rw [buf_getBufferFromPool, if_neg (by omega)]
    exact hclaim.setPc ht (congrArg Pc.zeroCopy hpc).symm
  · have hpipe : PipeInv (getBufferFromPool s).2 := h.pipe.congr rfl (fun _ => rfl) fun _ => rfl
    exact hpipe.setPc ht (.inl rfl) (.inl rfl)

/-! ## The broadcast -/

/-- What the loop over the destinations does to the references: `k` queues have got `b`. -/
structure Sent (s s' : Bus) (b k : Nat) : Prop where
  length : s'.bufs.length = s.bufs.length
  useCount : ∀ c, (s'.buf c).useCount = (s.buf c).useCount + if c = b then k else 0
  returns : ∀ c, (s'.buf c).returns = (s.buf c).returns
  appId : ∀ c, (s'.buf c).appId = (s.buf c).appId
  queueRefs : ∀ c, queueRefs s' c = queueRefs s c + if c = b then k else 0
  pipeRefs : ∀ c, pipeRefs s' c = pipeRefs s c
  pipeId : ∀ i, (s'.pipe i).pipeId = (s.pipe i).pipeId
  lastBuffer : ∀ i, (s'.pipe i).lastBuffer = (s.pipe i).lastBuffer
  zeroCopyList : s'.zeroCopyList = s.zeroCopyList
  handles : s'.handles = s.handles
  tasks : s'.tasks = s.tasks

theorem Sent.refl : Sent s s b 0 where
  length := rfl
  useCount c := by split_ifs <;> rfl
  returns _ := rfl
  appId _ := rfl
  queueRefs c := by split_ifs <;> rfl
  pipeRefs _ := rfl
  pipeId _ := rfl
  lastBuffer _ := rfl
  zeroCopyList := rfl
  handles := rfl
  tasks := rfl

theorem Sent.trans {s'' : Bus} {k' : Nat} (h : Sent s s' b k) (h' : Sent s' s'' b k') :
    Sent s s'' b (k + k') where
  length := h'.length.trans h.length
  useCount c := by
    rw [h'.useCount, h.useCount]
    split_ifs <;> omega
  returns c := (h'.returns c).trans (h.returns c)
  appId c := (h'.appId c).trans (h.appId c)
  queueRefs c := by
    rw [h'.queueRefs, h.queueRefs]
    split_ifs <;> omega
  pipeRefs c := (h'.pipeRefs c).trans (h.pipeRefs c)
  pipeId i := (h'.pipeId i).trans (h.pipeId i)
  lastBuffer i := (h'.lastBuffer i).trans (h.lastBuffer i)
  zeroCopyList := h'.zeroCopyList.trans h.zeroCopyList
  handles := h'.handles.trans h.handles
  tasks := h'.tasks.trans h.tasks

theorem Sent.trans_zero {s'' : Bus} (h : Sent s s' b k) (h' : Sent s' s'' b 0) : Sent s s'' b k :=
  h.trans h'

theorem Sent.modifyRoute {f : Route → Route} : Sent s (s.modifyRoute r f) b 0 where
  __ := (Sent.refl : Sent s s b 0)

theorem Sent.modifyBuf {f : BufferD → BufferD} (huse : ∀ d, (f d).useCount = d.useCount)
    (hret : ∀ d, (f d).returns = d.returns) (happ : ∀ d, (f d).appId = d.appId) :
    Sent s (s.modifyBuf c f) b 0 where
  __ := (Sent.refl : Sent s s b 0)
  length := Bus.length_modifyBuf
  useCount c := by
    rw [Bus.buf_modifyBuf_of_eq (v := BufferD.useCount) huse]
    split_ifs <;> rfl
  returns _ := Bus.buf_modifyBuf_of_eq (v := BufferD.returns) hret
  appId _ := Bus.buf_modifyBuf_of_eq (v := BufferD.appId) happ

theorem Sent.modifyPipe {f : PipeD → PipeD} (hid : ∀ p, (f p).pipeId = p.pipeId)
    (hlast : ∀ p, (f p).lastBuffer = p.lastBuffer) : Sent s (s.modifyPipe i f) b 0 where
  __ := (Sent.refl : Sent s s b 0)
  pipeRefs c := tally_modify_of_eq fun p => by
    unfold PipeD.held
    rw [hid, hlast]
  pipeId _ := Bus.pipe_modifyPipe_of_eq (v := PipeD.pipeId) hid
  lastBuffer _ := Bus.pipe_modifyPipe_of_eq (v := PipeD.lastBuffer) hlast

theorem setSequence_sent : Sent s (setSequence s r b) b 0 := by
  unfold setSequence
  split_ifs
  · have hroute : Sent s
        (s.modifyRoute r fun x => { x with seqCnt := getNextSequenceCount x.seqCnt }) b 0 :=
      Sent.modifyRoute
    refine hroute.trans_zero ?_
    exact Sent.modifyBuf (fun _ => rfl) (fun _ => rfl) fun _ => rfl
  · exact Sent.refl

theorem setSequence_route (h : RouteInv cfg s) : RouteInv cfg (setSequence s r b) := by
  unfold setSequence
  split_ifs
  · exact h.modifyRoute fun _ hx => hx
  · exact h

theorem osQueuePut_eq_some {q : Nat} (h : osQueuePut s q b = some s') : q < s.queues.length ∧
      s' = s.modifyQueue q fun queue => { queue with items := queue.items ++ [b] } := by
  unfold osQueuePut at h
  split_ifs at h with hroom
  refine ⟨?_, (Option.some.inj h).symm⟩
  by_contra hge
  rw [show s.queue q = default from getD_eq_default s.queues default (by omega)] at hroom
  cases hroom

/-- The queue and the counter go together. -/
theorem osQueuePut_sent {q : Nat} (hput : osQueuePut s q b = some s') (hb : b < s.bufs.length)
    (hmax : (s.buf b).useCount < 0x7fff) : Sent s (incrBufUseCnt s' b) b 1 := by
  obtain ⟨hq, rfl⟩ := osQueuePut_eq_some hput
  have hincr : incrBufUseCnt
      (s.modifyQueue q fun queue => { queue with items := queue.items ++ [b] }) b =
      (s.modifyQueue q fun queue => { queue with items := queue.items ++ [b] }).modifyBuf b
        fun d => { d with useCount := d.useCount + 1 } := if_pos hmax
  rw [hincr]
  refine ⟨Bus.length_modifyBuf, fun c => ?_, fun c => ?_, fun c => ?_, fun c => ?_, fun _ => rfl,
    fun _ => rfl, fun _ => rfl, rfl, rfl, rfl⟩
  · by_cases hcb : c = b
    · subst hcb
      rw [Bus.buf_modifyBuf_self (s := s.modifyQueue q _) hb, if_pos rfl]
      rfl
    · rw [Bus.buf_modifyBuf_of_ne hcb, if_neg hcb]
      rfl
  · exact Bus.buf_modifyBuf_of_eq (v := BufferD.returns) fun _ => rfl
  · exact Bus.buf_modifyBuf_of_eq (v := BufferD.appId) fun _ => rfl
  · have hsum := tally_modify (f := fun q : OsQueue => q.items.count c)
      (g := fun queue => { queue with items := queue.items ++ [b] }) hq
    rw [count_append, count_one] at hsum
    unfold queueRefs
    simp only [Bus.modifyBuf, Bus.modifyQueue]
    omega

theorem sendToPipe_sent {d : Dest} (hb : b < s.bufs.length) (hmax : (s.buf b).useCount < 0x7fff) :
    ∃ k ≤ 1, Sent s (sendToPipe s appId b d i).2 b k := by
  unfold sendToPipe
  split_ifs
  · exact ⟨0, by omega, Sent.refl⟩
  · exact ⟨0, by omega, Sent.refl⟩
  split
  · exact ⟨0, by omega, Sent.refl⟩
  rename_i s₁ hput
  have hcount : Sent (incrBufUseCnt s₁ b) ((incrBufUseCnt s₁ b).modifyPipe i PipeD.countUp) b 0 :=
    Sent.modifyPipe (fun _ => rfl) fun _ => rfl
  exact ⟨1, Nat.le_refl 1, (osQueuePut_sent hput hb hmax).trans_zero hcount⟩

/-- Each destination gets the buffer at most once. -/
theorem sendToDests_sent {appId : Nat} (dests : List Dest) (hb : b < s.bufs.length)
    (hmax : (s.buf b).useCount + dests.length ≤ 0x7fff) :
    ∃ k ≤ dests.length, Sent s (sendToDests cfg s appId b dests).2 b k := by
  induction dests generalizing s with
  | nil => exact ⟨0, Nat.le_refl 0, Sent.refl⟩
  | cons d rest ih =>
    rw [length_cons] at hmax
    have hone : ∃ k ≤ 1, Sent s ((if d.active then matchPipe cfg s d.pipeId else none).elim
        ((d, none), s) (sendToPipe s appId b d)).2 b k := by
      cases (if d.active then matchPipe cfg s d.pipeId else none) with
      | none => exact ⟨0, by omega, Sent.refl⟩
      | some i => exact sendToPipe_sent hb (by omega)
    obtain ⟨k, hk, hsent⟩ := hone
    have huse := hsent.useCount b
    rw [if_pos rfl] at huse
    obtain ⟨k', hk', hsent'⟩ := ih (hsent.length ▸ hb) (by omega)
    exact ⟨k + k', by rw [length_cons]; omega, hsent.trans hsent'⟩

theorem length_sendToDests (dests : List Dest) :
    (sendToDests cfg s appId b dests).1.1.length = dests.length := by
  induction dests generalizing s with
  | nil => rfl
  | cons d rest ih =>
    simp only [sendToDests, length_cons]
    rw [ih]

theorem sendToDests_routes {appId : Nat} (dests : List Dest) :
    (sendToDests cfg s appId b dests).2.routes = s.routes := by
  induction dests generalizing s with
  | nil => rfl
  | cons d rest ih =>
    simp only [sendToDests]
    rw [ih]
    cases (if d.active then matchPipe cfg s d.pipeId else none) with
    | none => rfl
    | some =>
      simp only [Option.elim_some, sendToPipe]
      split_ifs
      · rfl
      · rfl
      split
      · rfl
      rename_i s₁ hput
      obtain ⟨-, rfl⟩ := osQueuePut_eq_some hput
      simp only [incrBufUseCnt]
      split_ifs <;> rfl

/-- The claims to `b` end with the call that has the only one. -/
theorem ClaimInv.drop (h : ClaimInv s) (ht : t < s.tasks.length) (hpc : s.pc t = old)
    (hold : ∀ c, old.zeroCopy.count c = if c = b then s.zeroCopyList.count b else 0)
    (hnew : pc.zeroCopy = []) (htasks : s'.tasks = (s.setPc t pc).tasks)
    (hhandles : s'.handles = s.handles)
    (hlist : ∀ c, s'.zeroCopyList.count c = if c = b then 0 else s.zeroCopyList.count c)
    (happ : ∀ c, c ≠ b → (s'.buf c).appId = (s.buf c).appId) : ClaimInv s' := by
  subst hpc
  have hclaims : ∀ c, claims s' c = if c = b then 0 else claims s c := by
    intro c
    have hsum := @pcRefs_setPc s c t pc Pc.zeroCopy ht
    have hle := h.claimed c
    rw [hold, hnew, count_nil] at hsum
    unfold claims at hle ⊢
    rw [pcRefs_congr htasks, hhandles]
    split_ifs at hsum ⊢ with hcb
    · subst hcb
      omega
    · omega
  -- a claim that is left is to another buffer
  have hne : ∀ c, 0 < claims s' c → c ≠ b := by
    intro c hc hcb
    rw [hclaims, if_pos hcb] at hc
    cases hc
  refine .of_setPc ht htasks (fun c _ => ?_) (fun a c hc => ?_) (fun c hc => ?_)
    fun u c hc hut => ?_
  · have := h.claimed c
    rw [hclaims, hlist]
    split_ifs <;> omega
  · rw [happ c (hne c (claims_pos_of_handle hc))]
    exact h.handleApp a c (hhandles ▸ hc)
  · rw [hnew] at hc
    cases hc
  · have hc' : c ∈ (s'.pc u).zeroCopy := by
      rwa [Bus.pc_congr htasks, Bus.pc_setPc_of_ne hut]
    rw [happ c (hne c (claims_pos_of_task hc'))]
    exact h.taskApp u c hc

/-- The section under the lock, up to the end of the loop. -/
theorem broadcastBufferToRoute_eq {appId : Nat} {routeId : Option Nat} (h : BusInv cfg s)
    (hb : refs s b = 1) : ∃ k s₁, k ≤ cfg.maxDestPerPkt ∧ Sent s s₁ b k ∧ RouteInv cfg s₁ ∧
      (broadcastBufferToRoute cfg s appId b routeId).2 =
        decrBufUseCnt ({ s₁ with zeroCopyList := s₁.zeroCopyList.erase b }.modifyBuf b
          fun d => { d with appId := 0 }) b := by
  cases routeId with
  | none => exact ⟨0, s, Nat.zero_le _, Sent.refl, h.route, rfl⟩
  | some r =>
    have hlt := h.count.counted.lt (b := b) (by omega)
    have huse := h.count.counted.use b hlt
    have hseq : Sent s (setSequence s r b) b 0 := setSequence_sent
    have huse' := hseq.useCount b
    have hroute : RouteInv cfg (setSequence s r b) := setSequence_route h.route
    have hdests := hroute.length_dests (r := r)
    have hmax := cfg.hdest
    rw [ite_self] at huse'
    obtain ⟨k, hk, hsent⟩ := @sendToDests_sent cfg (setSequence s r b) b appId
      ((setSequence s r b).route r).dests (by rw [hseq.length]; exact hlt) (by omega)
    refine ⟨k, _, by omega, ?_, ?_, rfl⟩
    · have hboth := hseq.trans hsent
      rw [Nat.zero_add] at hboth
      exact hboth.trans_zero Sent.modifyRoute
    · have hroute' : RouteInv cfg (sendToDests cfg (setSequence s r b) appId b
          ((setSequence s r b).route r).dests).2 := by
        intro x hx
        rw [sendToDests_routes] at hx
        exact hroute x hx
      refine hroute'.modifyRoute fun x _ => ?_
      rw [length_sendToDests]
      exact hdests

theorem reportPc_cases {events : List (Nat × SendErr)} :
    (reportPc b events).dequeued = [] ∧ (reportPc b events).sending = [] ∧
      (reportPc b events).zeroCopy = [] ∧ (reportPc b events).slot = none ∧
      (reportPc b events).deleting = none := by
  cases events <;> exact ⟨rfl, rfl, rfl, rfl, rfl⟩

/-- The sender gives up its reference, after the queues have got theirs. -/
theorem CountInv.broadcast {k : Nat} (h : CountInv cfg s) (hb : senderRefs s b = 1)
    (hk : k ≤ cfg.maxDestPerPkt) (hlen : s'.bufs.length = s.bufs.length)
    (huse : ∀ c, (s'.buf c).useCount =
      (s.buf c).useCount + (if c = b then k else 0) - if c = b then 1 else 0)
    (hret : ∀ c, (s'.buf c).returns =
      (s.buf c).returns + if c = b ∧ (s.buf b).useCount + k = 1 then 1 else 0)
    (hrefs : ∀ c, refs s' c + (if c = b then 1 else 0) = refs s c + if c = b then k else 0)
    (hsend : ∀ c, senderRefs s' c + (if c = b then 1 else 0) = senderRefs s c) :
    CountInv cfg s' := by
  have hone := h.exclusive b (by omega)
  have hcount := h.counted.use b (h.counted.lt (by omega))
  refine ⟨?_, fun c => ?_, fun c hc => ?_⟩
  · have hmany := h.counted.acquire (k := k) (b := b) (by omega) (fun _ => rfl) (fun _ => rfl)
      fun _ => rfl
    refine hlen ▸ hmany.release (b := b) (by rw [if_pos rfl]; omega) huse (fun c => ?_) fun c => ?_
    · rw [hret, if_pos rfl, hcount]
    · have := hrefs c
      omega
  · have := hrefs c
    have := h.few c
    split_ifs at * with hcb
    · subst hcb
      omega
    · omega
  · have hsendc := hsend c
    have hrefsc := hrefs c
    split_ifs at * with hcb
    · subst hcb
      omega
    · have := h.exclusive c (by omega)
      omega

/-- The sender of a buffer, in its call or on the zero copy list, is the only reference. -/
theorem BusInv.owner (h : BusInv cfg s) (hpc : s.pc t = old)
    (hown : (old.sending = [b] ∧ old.zeroCopy = []) ∨ (old.sending = [] ∧ old.zeroCopy = [b])) :
    senderRefs s b = 1 ∧ refs s b = 1 ∧
      (∀ c, old.sending.count c + (if c = b then s.zeroCopyList.count b else 0) =
        if c = b then 1 else 0) ∧
      ∀ c, old.zeroCopy.count c = if c = b then s.zeroCopyList.count b else 0 := by
  have hexclusive := h.count.exclusive b
  have hle : senderRefs s b ≤ refs s b := Nat.le_add_left ..
  rcases hown with ⟨hsending, hzero⟩ | ⟨hsending, hzero⟩
  · have hcount := @count_le_pcRefs s b t Pc.sending
    have hidle : Pc.sending .idle = [] := rfl
    rw [hpc, hsending, hidle, count_nil, count_singleton_self] at hcount
    have hnone : s.zeroCopyList.count b = 0 := by
      unfold senderRefs at hexclusive hle
      omega
    unfold senderRefs at hexclusive hle ⊢
    have hone := hexclusive (by omega)
    refine ⟨by omega, hone, fun c => ?_, fun c => ?_⟩
    · rw [hsending, count_one, hnone, ite_self, Nat.add_zero]
    · rw [hzero, hnone, ite_self, count_nil]
  · have hpos : 0 < claims s b := claims_pos_of_task (u := t) (by rw [hpc, hzero]; simp)
    have hclaimed := h.claim.claimed b
    unfold senderRefs at hexclusive hle ⊢
    have hone := hexclusive (by omega)
    have hlist : s.zeroCopyList.count b = 1 := by omega
    refine ⟨by omega, hone, fun c => ?_, fun c => ?_⟩
    · rw [hsending, hlist, count_nil, Nat.zero_add]
    · rw [hzero, hlist, count_one]

/-- The sender gives up its buffer after `k` queues have got it. The zero copy list is
edited before the counter, or by the counter if there is no other reference. -/
theorem BusInv.giveUp {s₁ : Bus} {list : List Nat} (h : BusInv cfg s) (ht : t < s.tasks.length)
    (hpc : s.pc t = old) (hdequeued : old.dequeued = [])
    (hown : (old.sending = [b] ∧ old.zeroCopy = []) ∨ (old.sending = [] ∧ old.zeroCopy = [b]))
    (hnew : pc.dequeued = [] ∧ pc.sending = [] ∧ pc.zeroCopy = [] ∧ pc.slot = none ∧
      pc.deleting = none) (hk : k ≤ cfg.maxDestPerPkt) (hsent : Sent s s₁ b k)
    (hroute : RouteInv cfg s₁)
    (hlists : list = s.zeroCopyList.erase b ∨ (list = s.zeroCopyList ∧ k = 0)) :
    BusInv cfg ((decrBufUseCnt ({ s₁ with zeroCopyList := list }.modifyBuf b
      fun d => { d with appId := 0 }) b).setPc t pc) := by
  obtain ⟨hsender, hone, hsending, hzero⟩ := h.owner hpc hown
  obtain ⟨hdequeued', hsending', hzero', hslot', hdel'⟩ := hnew
  generalize hs₂ : { s₁ with zeroCopyList := list }.modifyBuf b
    (fun d => { d with appId := 0 }) = s₂
  have huse : ∀ c, (s₂.buf c).useCount = (s.buf c).useCount + if c = b then k else 0 := by
    intro c
    rw [← hs₂]
    refine Eq.trans (Bus.buf_modifyBuf_of_eq (v := BufferD.useCount) ?_) (hsent.useCount c)
    exact fun _ => rfl
  have hret : ∀ c, (s₂.buf c).returns = (s.buf c).returns := by
    intro c
    rw [← hs₂]
    refine Eq.trans (Bus.buf_modifyBuf_of_eq (v := BufferD.returns) ?_) (hsent.returns c)
    exact fun _ => rfl
  have happ : ∀ c, c ≠ b → (s₂.buf c).appId = (s.buf c).appId := by
    intro c hcb
    rw [← hs₂, Bus.buf_modifyBuf_of_ne hcb]
    exact hsent.appId c
  have htasks : s₂.tasks = s.tasks := hs₂ ▸ hsent.tasks
  -- an entry that the broadcast has taken off already is not taken off a second time
  have hlist : ∀ c, (decrBufUseCnt s₂ b).zeroCopyList.count c =
      if c = b then 0 else s.zeroCopyList.count c := by
    intro c
    have hle : s.zeroCopyList.count b ≤ 1 := by
      unfold senderRefs at hsender
      omega
    have hcount := h.count.counted.use b (h.count.counted.lt (by omega))
    have hs₂list : s₂.zeroCopyList = list := by
      rw [← hs₂]
      rfl
    have huseb := huse b
    rw [if_pos rfl] at huseb
    rw [decrBufUseCnt_zeroCopyList, hs₂list]
    rcases hlists with rfl | ⟨rfl, rfl⟩
    · split_ifs with hlast hcb hcb
      · rw [hcb, count_erase_self, count_erase_self]
        omega
      · rw [count_erase_of_ne hcb, count_erase_of_ne hcb]
      · rw [hcb, count_erase_self]
        omega
      · rw [count_erase_of_ne hcb]
    · rw [if_pos (by omega)]
      split_ifs with hcb
      · rw [hcb, count_erase_self]
        omega
      · rw [count_erase_of_ne hcb]
  have htasks' : ((decrBufUseCnt s₂ b).setPc t pc).tasks = (s.setPc t pc).tasks := by
    unfold Bus.setPc
    rw [decrBufUseCnt_tasks, htasks]
  have hpcs : ∀ g c, pcRefs g ((decrBufUseCnt s₂ b).setPc t pc) c = pcRefs g (s.setPc t pc) c := by
    intro g c
    exact pcRefs_congr htasks'
  -- the reference is the call's own or the entry's, and one of the two is gone
  have hsend : ∀ c, senderRefs ((decrBufUseCnt s₂ b).setPc t pc) c +
      (if c = b then 1 else 0) = senderRefs s c := by
    intro c
    have hsum := @pcRefs_setPc s c t pc Pc.sending ht
    have hsendingc := hsending c
    have hlistc := hlist c
    rw [hpc, hsending', count_nil] at hsum
    unfold senderRefs
    rw [hpcs]
    have hz : ((decrBufUseCnt s₂ b).setPc t pc).zeroCopyList =
      (decrBufUseCnt s₂ b).zeroCopyList := rfl
    rw [hz]
    split_ifs at * with hcb
    · subst hcb
      omega
    · omega
  refine ⟨h.count.broadcast hsender hk ?_ (fun c => ?_) (fun c => ?_) (fun c => ?_) hsend,
    ?_, ?_, ?_⟩
  · show (decrBufUseCnt s₂ b).bufs.length = s.bufs.length
    rw [length_decrBufUseCnt, ← hs₂, Bus.length_modifyBuf]
    exact hsent.length
  · show ((decrBufUseCnt s₂ b).buf c).useCount = _
    rw [useCount_decrBufUseCnt, huse]
  · show ((decrBufUseCnt s₂ b).buf c).returns = _
    rw [returns_decrBufUseCnt, huse, hret, if_pos rfl]
  · have hsum := @pcRefs_setPc s c t pc Pc.dequeued ht
    have hsendc := hsend c
    have hqueue : queueRefs ((decrBufUseCnt s₂ b).setPc t pc) c =
        queueRefs s c + if c = b then k else 0 := by
      show queueRefs (decrBufUseCnt s₂ b) c = _
      rw [queueRefs_decrBufUseCnt, ← hs₂]
      exact hsent.queueRefs c
    have hpipe : pipeRefs ((decrBufUseCnt s₂ b).setPc t pc) c = pipeRefs s c := by
      show pipeRefs (decrBufUseCnt s₂ b) c = _
      rw [pipeRefs_decrBufUseCnt, ← hs₂]
      exact hsent.pipeRefs c
    rw [hpc, hdequeued, hdequeued'] at hsum
    unfold refs
    rw [hpcs, hpipe]
    omega
  · refine h.claim.drop ht hpc hzero hzero' htasks' ?_ hlist fun c hcb => ?_
    · show (decrBufUseCnt s₂ b).handles = s.handles
      rw [decrBufUseCnt_handles, ← hs₂]
      exact hsent.handles
    · show ((decrBufUseCnt s₂ b).buf c).appId = _
      rw [buf_decrBufUseCnt_of_ne hcb, happ c hcb]
  · have hpipe : PipeInv (decrBufUseCnt s₂ b) := h.pipe.congr (by rw [decrBufUseCnt_tasks, htasks])
      (fun i => by rw [pipe_decrBufUseCnt, ← hs₂]; exact hsent.pipeId i)
      fun i => by rw [pipe_decrBufUseCnt, ← hs₂]; exact hsent.lastBuffer i
    exact hpipe.setPc (by rw [decrBufUseCnt_tasks, htasks]; exact ht) (.inl hslot') (.inl hdel')
  · intro x hx
    have hroutes : ((decrBufUseCnt s₂ b).setPc t pc).routes = s₁.routes := by
      show (decrBufUseCnt s₂ b).routes = _
      rw [decrBufUseCnt_routes, ← hs₂]
      rfl
    rw [hroutes] at hx
    exact hroute x hx

theorem Pc.of_sendsTo (h : pc.sendsTo = some (routeId, b)) : pc ≠ .idle ∧ pc.dequeued = [] ∧
      ((pc.sending = [b] ∧ pc.zeroCopy = []) ∨ (pc.sending = [] ∧ pc.zeroCopy = [b])) := by
  cases pc with
  | transmitFilled =>
    cases h
    exact ⟨Pc.noConfusion, rfl, .inl ⟨rfl, rfl⟩⟩
  | zeroCopyRouted =>
    cases h
    exact ⟨Pc.noConfusion, rfl, .inr ⟨rfl, rfl⟩⟩
  | _ => cases h

theorem BusInv.broadcast {appId : Nat} {routeId : Option Nat} {events : List (Nat × SendErr)}
    (h : BusInv cfg s) (hsends : (s.pc t).sendsTo = some (routeId, b)) :
    BusInv cfg ((broadcastBufferToRoute cfg s appId b routeId).2.setPc t (reportPc b events)) := by
  obtain ⟨hne, hdequeued, hown⟩ := Pc.of_sendsTo hsends
  obtain ⟨-, hone, -, -⟩ := h.owner rfl hown
  obtain ⟨k, s₁, hk, hsent, hroute, heq⟩ := @broadcastBufferToRoute_eq cfg s b appId routeId h hone
  rw [heq]
  exact h.giveUp (Bus.lt_of_pc hne) rfl hdequeued hown reportPc_cases hk hsent hroute
    (.inl (by rw [hsent.zeroCopyList]))

/-! ## Zero copy -/

/-- The owner of the new buffer is on the zero copy list. -/
theorem ClaimInv.newBuffer (h : ClaimInv s) (hcount : CountInv cfg s) (ht : t < s.tasks.length)
    (hold : (s.pc t).zeroCopy = []) (hnew : pc.zeroCopy = [s.bufs.length])
    (htasks : s'.tasks = (s.setPc t pc).tasks) (hhandles : s'.handles = s.handles)
    (hlist : s'.zeroCopyList = s.zeroCopyList ++ [s.bufs.length])
    (happ : ∀ c, (s'.buf c).appId = if c = s.bufs.length then s.app t else (s.buf c).appId) :
    ClaimInv s' := by
  refine .of_setPc ht htasks (fun c hsum => ?_) (fun a c hc => ?_) (fun c hc => ?_)
    fun u c hc hut => ?_
  · have hle := h.claimed c
    rw [hold, hnew] at hsum
    unfold claims at hle ⊢
    rw [hhandles, hlist, count_append]
    omega
  · rw [hhandles] at hc
    have hlt := h.lt hcount (claims_pos_of_handle hc)
    rw [happ, if_neg (by omega)]
    exact h.handleApp a c hc
  · rw [hnew, mem_singleton] at hc
    rw [happ, if_pos hc]
  · have hlt := h.lt hcount (claims_pos_of_task hc)
    rw [happ, if_neg (by omega)]
    exact h.taskApp u c hc

section

variable (h : BusInv cfg s)
include h

theorem BusInv.zeroCopyAllocated (hidle : s.Idle t) (hs' : s' =
      { (getBufferFromPool s).2.modifyBuf s.bufs.length fun d => { d with appId := s.app t } with
        zeroCopyList := s.zeroCopyList ++ [s.bufs.length] }.setPc t
          (.bufferAllocated s.bufs.length)) : BusInv cfg s' := by
  obtain ⟨ht, hpc⟩ := hidle
  have hbuf : ∀ c, s'.buf c = ((getBufferFromPool s).2.modifyBuf s.bufs.length
      fun d => { d with appId := s.app t }).buf c := fun c => by
    rw [hs']
    rfl
  have hlt : s.bufs.length < (getBufferFromPool s).2.bufs.length := by
    simp [getBufferFromPool]
  have hlist : s'.zeroCopyList = s.zeroCopyList ++ [s.bufs.length] := by
    rw [hs']
    rfl
  have htasks : s'.tasks = (s.setPc t (.bufferAllocated s.bufs.length)).tasks := by
    rw [hs']
    rfl
  have hpcs : ∀ g c, pcRefs g s' c = pcRefs g (s.setPc t (.bufferAllocated s.bufs.length)) c := by
    intro g c
    exact pcRefs_congr htasks
  have hsend : ∀ c, senderRefs s' c = senderRefs s c + [s.bufs.length].count c := by
    intro c
    have := @pcRefs_setPc_of_eq s c t (.bufferAllocated s.bufs.length) Pc.sending ht
      (by rw [hpc]; rfl)
    unfold senderRefs
    rw [hpcs, hlist, count_append]
    omega
  refine ⟨h.count.newBuffer ?_ (fun c => ?_) (fun c => ?_) (fun c => ?_) hsend, ?_, ?_, ?_⟩
  · subst hs'
    simp [Bus.setPc, Bus.modifyBuf, getBufferFromPool]
  · rw [hbuf]
    refine Bus.buf_modifyBuf_of_eq (v := BufferD.useCount) ?_
    exact fun _ => rfl
  · rw [hbuf]
    refine Bus.buf_modifyBuf_of_eq (v := BufferD.returns) ?_
    exact fun _ => rfl
  · have hdequeued := @pcRefs_setPc_of_eq s c t (.bufferAllocated s.bufs.length) Pc.dequeued ht
      (by rw [hpc]; rfl)
    have hqueue : queueRefs s' c = queueRefs s c := by
      rw [hs']
      rfl
    have hpipe : pipeRefs s' c = pipeRefs s c := by
      rw [hs']
      rfl
    have hsendc := hsend c
    unfold refs
    rw [hpipe, hpcs]
    omega
  · refine h.claim.newBuffer h.count ht (by rw [hpc]; rfl) rfl htasks ?_ hlist fun c => ?_
    · subst hs'
      rfl
    · rw [hbuf]
      by_cases hc : c = s.bufs.length
      · rw [hc, Bus.buf_modifyBuf_self hlt, if_pos rfl]
      · rw [Bus.buf_modifyBuf_of_ne hc, buf_getBufferFromPool, if_neg hc, if_neg hc]
  · have hpipe : PipeInv (s.setPc t (.bufferAllocated s.bufs.length)) :=
      h.pipe.setPc ht (.inl rfl) (.inl rfl)
    subst hs'
    exact hpipe.congr rfl (fun _ => rfl) fun _ => rfl
  · subst hs'
    exact h.route

/-- A step in which the owner of a zero copy buffer changes between the application and
its call. -/
theorem BusInv.moveHandle {handles : List (Nat × Nat)} (ht : t < s.tasks.length)
    (hpc : s.pc t = old) (hdequeued : pc.dequeued = old.dequeued)
    (hsending : pc.sending = old.sending) (hslot : pc.slot = none) (hdel : pc.deleting = none)
    (hclaim : ClaimInv ({ s with handles := handles }.setPc t pc)) :
    BusInv cfg ({ s with handles := handles }.setPc t pc) := by
  subst hpc
  refine ⟨h.count.congr rfl (fun _ => rfl) (fun _ => rfl) (fun c => ?_) fun c => ?_, hclaim, ?_,
    h.route⟩
  · have hrefs := @refs_setPc s c t pc _ ht rfl
    rw [hdequeued, hsending] at hrefs
    exact Nat.add_right_cancel hrefs
  · have hsend := @senderRefs_setPc s c t pc _ ht rfl
    rw [hsending] at hsend
    exact Nat.add_right_cancel hsend
  · have hpipe : PipeInv (s.setPc t pc) := h.pipe.setPc ht (.inl hslot) (.inl hdel)
    exact hpipe.congr rfl (fun _ => rfl) fun _ => rfl

/-- The call gives its buffer to the application. -/
theorem BusInv.toHandle (hpc : s.pc t = old) (hne : old ≠ .idle) (hdequeued : old.dequeued = [])
    (hsending : old.sending = []) (hzero : old.zeroCopy = [b]) :
    BusInv cfg ({ s with handles := (s.app t, b) :: s.handles }.setPc t .idle) := by
  have ht := Bus.lt_of_pc_eq hpc hne
  exact h.moveHandle ht hpc hdequeued.symm hsending.symm rfl rfl
    (h.claim.toHandle ht (hpc ▸ hzero) rfl)

/-- The application gives its buffer to a call. -/
theorem BusInv.ofHandle (hidle : s.Idle t) (hb : (s.app t, b) ∈ s.handles)
    (hdequeued : pc.dequeued = []) (hsending : pc.sending = []) (hzero : pc.zeroCopy = [b])
    (hslot : pc.slot = none) (hdel : pc.deleting = none) :
    BusInv cfg ({ s with handles := s.handles.erase (s.app t, b) }.setPc t pc) :=
  h.moveHandle hidle.1 hidle.2 hdequeued hsending hslot hdel
    (h.claim.ofHandle hidle.1 (congrArg Pc.zeroCopy hidle.2) hzero hb)

theorem BusInv.stamped : BusInv cfg (stamped cfg s b) :=
  h.modifyBuf (fun _ => rfl) (fun _ => rfl) fun _ => rfl

end

end CfsEds.Sb
