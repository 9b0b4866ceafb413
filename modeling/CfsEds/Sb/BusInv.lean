import CfsEds.Sb.Bus
import CfsEds.Lib.RefCount

/-!
# References to buffers

`refs s b` is the number of references to the buffer `b` in a state: the queue entries
that hold it, the tasks that have taken it from a queue and not yet locked again, the
pipes it is the last buffer of, and its sender or zero copy owner. `BusInv` says that the
use counts agree with it, and what has to hold besides for every action to keep it so:

* `CountInv`: a buffer that still has a sender has no other reference, and the counter
  does not reach its limit;
* `ClaimInv`: an application that has a zero copy buffer, or a call that works on one,
  has an entry of the zero copy list for it, with the ID of the application;
* `PipeInv`: a pipe has no last buffer while a task is receiving from it.
-/

namespace CfsEds.Sb

open CfsEds.Es CfsEds.Lib.RefCount List

variable {cfg : SbConfig} {s s' : Bus} {b c t u i j : Nat} {pc : Pc}

variable {f : BufferD → BufferD} {r : Nat} {old : Pc}

/-! ## The tables after a change -/

namespace Bus

variable {β : Type}

theorem buf_modifyBuf_self (hb : b < s.bufs.length) : (s.modifyBuf b f).buf b = f (s.buf b) :=
  getD_modify_self hb

theorem buf_modifyBuf_of_ne (h : c ≠ b) : (s.modifyBuf b f).buf c = s.buf c := getD_modify_of_ne h

theorem buf_modifyBuf_of_eq {v : BufferD → β} (h : ∀ d, v (f d) = v d) :
    v ((s.modifyBuf b f).buf c) = v (s.buf c) :=
  getD_modify_of_eq h

@[simp] theorem length_modifyBuf : (s.modifyBuf b f).bufs.length = s.bufs.length := length_modify ..

theorem pipe_modifyPipe_self {f : PipeD → PipeD} (hi : i < s.pipes.length) :
    (s.modifyPipe i f).pipe i = f (s.pipe i) :=
  getD_modify_self hi

theorem pipe_modifyPipe_of_ne {f : PipeD → PipeD} (h : j ≠ i) :
    (s.modifyPipe i f).pipe j = s.pipe j :=
  getD_modify_of_ne h

theorem pipe_modifyPipe_of_eq {f : PipeD → PipeD} {v : PipeD → β} (h : ∀ p, v (f p) = v p) :
    v ((s.modifyPipe i f).pipe j) = v (s.pipe j) :=
  getD_modify_of_eq h

theorem pc_setPc_self (ht : t < s.tasks.length) : (s.setPc t pc).pc t = pc :=
  congrArg Task.pc (getD_modify_self ht)

theorem pc_setPc_of_ne (h : u ≠ t) : (s.setPc t pc).pc u = s.pc u :=
  congrArg Task.pc (getD_modify_of_ne h)

@[simp] theorem app_setPc : (s.setPc t pc).app u = s.app u :=
  getD_modify_of_eq (v := Task.appId) fun _ => rfl

/-- A task in a call is one of the tasks. -/
theorem lt_of_pc (h : s.pc t ≠ .idle) : t < s.tasks.length := by
  by_contra hge
  exact h (congrArg Task.pc (getD_eq_default s.tasks default (by omega)))

theorem lt_of_pc_eq (hpc : s.pc t = pc) (hne : pc ≠ .idle := by exact Pc.noConfusion) :
    t < s.tasks.length :=
  lt_of_pc (hpc ▸ hne)

theorem pc_congr (h : s'.tasks = s.tasks) (u : Nat) : s'.pc u = s.pc u := by
  unfold Bus.pc
  rw [h]

theorem app_congr (h : s'.tasks = s.tasks) (u : Nat) : s'.app u = s.app u := by
  unfold Bus.app
  rw [h]

/-- A pipe with an ID is one of the pipes. -/
theorem lt_of_pipeId (h : (s.pipe i).pipeId ≠ 0) : i < s.pipes.length := by
  by_contra hge
  exact h (congrArg PipeD.pipeId (getD_eq_default s.pipes default (by omega)))

theorem lt_of_items {q : Nat} (h : (s.queue q).items ≠ []) : q < s.queues.length := by
  by_contra hge
  exact h (congrArg OsQueue.items (getD_eq_default s.queues default (by omega)))

end Bus

/-! ## References -/

/-- The ID of a pipe that is there and not being deleted. -/
def Live (pipeId : Nat) : Prop := pipeId ≠ 0 ∧ pipeId ≠ resourceIdReserved

instance (pipeId : Nat) : Decidable (Live pipeId) := inferInstanceAs (Decidable (_ ∧ _))

/-- The buffer that a task has taken from a queue, or from a pipe it deletes, and has
not locked again for. -/
def Pc.dequeued : Pc → List Nat
  | .receiveHolding _ _ b => [b]
  | .deleteDraining _ _ (some b) _ => [b]
  | _ => []

/-- The buffer that a task is sending a copy of a message in. -/
def Pc.sending : Pc → List Nat
  | .transmitAllocated _ _ _ b => [b]
  | .transmitFilled _ _ b => [b]
  | _ => []

/-- The zero copy buffer that a call works on. -/
def Pc.zeroCopy : Pc → List Nat
  | .bufferAllocated b => [b]
  | .zeroCopyValidated _ b => [b]
  | .zeroCopyRouted _ b => [b]
  | .releaseValidated b => [b]
  | _ => []

/-- The buffer that a pipe holds for its receiver. -/
def PipeD.held (p : PipeD) : List Nat := if Live p.pipeId then p.lastBuffer.toList else []

/-- The tasks whose calls hold `b` in the way `g`. -/
def pcRefs (g : Pc → List Nat) (s : Bus) (b : Nat) : Nat :=
  tally (fun task => (g task.pc).count b) s.tasks

/-- The queue entries that hold `b`. -/
def queueRefs (s : Bus) (b : Nat) : Nat := tally (fun q => q.items.count b) s.queues

/-- The pipes whose last buffer is `b`. -/
def pipeRefs (s : Bus) (b : Nat) : Nat := tally (fun p => p.held.count b) s.pipes

/-- The sender or the zero copy owner of `b`. -/
def senderRefs (s : Bus) (b : Nat) : Nat := pcRefs Pc.sending s b + s.zeroCopyList.count b

/-- All references to `b`. -/
def refs (s : Bus) (b : Nat) : Nat :=
  queueRefs s b + pcRefs Pc.dequeued s b + pipeRefs s b + senderRefs s b

/-- The claims of applications and of their calls to the zero copy buffer `b`. -/
def claims (s : Bus) (b : Nat) : Nat :=
  pcRefs Pc.zeroCopy s b + (s.handles.map Prod.snd).count b

theorem count_one (b c : Nat) : [b].count c = if c = b then 1 else 0 := by
  by_cases h : c = b
  · rw [h, if_pos rfl, count_singleton_self]
  · rw [if_neg h, count_eq_zero, mem_singleton]
    exact h

section pcRefs

variable {g : Pc → List Nat}

theorem pcRefs_setPc (ht : t < s.tasks.length) :
    pcRefs g (s.setPc t pc) c + (g (s.pc t)).count c = pcRefs g s c + (g pc).count c :=
  tally_modify ht

theorem pcRefs_congr (h : s'.tasks = s.tasks) : pcRefs g s' c = pcRefs g s c := by
  unfold pcRefs
  rw [h]

theorem pcRefs_setPc_of_eq (ht : t < s.tasks.length) (h : g pc = g (s.pc t)) :
    pcRefs g (s.setPc t pc) c = pcRefs g s c := by
  have hsum := @pcRefs_setPc s c t pc g ht
  rw [h] at hsum
  omega

/-- A buffer that a call holds. -/
theorem count_le_pcRefs : (g (s.pc t)).count c ≤ pcRefs g s c + (g .idle).count c := by
  by_cases ht : t < s.tasks.length
  · have := le_tally (f := fun task : Task => (g task.pc).count c) ht
    exact Nat.le_add_right_of_le this
  have hidle : s.pc t = .idle := by
    by_contra hne
    exact ht (Bus.lt_of_pc hne)
  rw [hidle]
  omega

end pcRefs

theorem refs_setPc {old : Pc} (ht : t < s.tasks.length) (hpc : s.pc t = old) :
    refs (s.setPc t pc) c + (old.dequeued.count c + old.sending.count c) =
      refs s c + (pc.dequeued.count c + pc.sending.count c) := by
  subst hpc
  have hdequeued := @pcRefs_setPc s c t pc Pc.dequeued ht
  have hsending := @pcRefs_setPc s c t pc Pc.sending ht
  have hqueue : queueRefs (s.setPc t pc) c = queueRefs s c := rfl
  have hpipe : pipeRefs (s.setPc t pc) c = pipeRefs s c := rfl
  have hlist : (s.setPc t pc).zeroCopyList = s.zeroCopyList := rfl
  unfold refs senderRefs
  rw [hpipe, hlist]
  omega

theorem senderRefs_setPc {old : Pc} (ht : t < s.tasks.length) (hpc : s.pc t = old) :
    senderRefs (s.setPc t pc) c + old.sending.count c = senderRefs s c + pc.sending.count c := by
  subst hpc
  have hsending := @pcRefs_setPc s c t pc Pc.sending ht
  have hlist : (s.setPc t pc).zeroCopyList = s.zeroCopyList := rfl
  unfold senderRefs
  rw [hlist]
  omega

/-! ## The use counter -/

section decrBufUseCnt

@[simp] theorem decrBufUseCnt_pipes : (decrBufUseCnt s b).pipes = s.pipes := by
  simp only [decrBufUseCnt]
  split_ifs <;> rfl

@[simp] theorem decrBufUseCnt_queues : (decrBufUseCnt s b).queues = s.queues := by
  simp only [decrBufUseCnt]
  split_ifs <;> rfl

@[simp] theorem decrBufUseCnt_routes : (decrBufUseCnt s b).routes = s.routes := by
  simp only [decrBufUseCnt]
  split_ifs <;> rfl

@[simp] theorem decrBufUseCnt_tasks : (decrBufUseCnt s b).tasks = s.tasks := by
  simp only [decrBufUseCnt]
  split_ifs <;> rfl

@[simp] theorem decrBufUseCnt_handles : (decrBufUseCnt s b).handles = s.handles := by
  simp only [decrBufUseCnt]
  split_ifs <;> rfl

/-- The three cases: no reference, the last one, and more. -/
theorem decrBufUseCnt_cases : ((s.buf b).useCount = 0 ∧ decrBufUseCnt s b = s) ∨
      (b < s.bufs.length ∧ (s.buf b).useCount = 1 ∧ decrBufUseCnt s b = returnBufferToPool
        (s.modifyBuf b fun d => { d with useCount := d.useCount - 1 }) b) ∨
      (b < s.bufs.length ∧ 1 < (s.buf b).useCount ∧
        decrBufUseCnt s b = s.modifyBuf b fun d => { d with useCount := d.useCount - 1 }) := by
  by_cases hpos : (s.buf b).useCount > 0
  · have hlt : b < s.bufs.length := by
      by_contra hge
      rw [show s.buf b = default from getD_eq_default s.bufs default (by omega)] at hpos
      cases hpos
    simp only [decrBufUseCnt, if_pos hpos, Bus.buf_modifyBuf_self hlt]
    by_cases hone : (s.buf b).useCount = 1
    · exact .inr (.inl ⟨hlt, hone, by rw [if_pos (by omega)]⟩)
    · exact .inr (.inr ⟨hlt, by omega, by rw [if_neg (by omega)]⟩)
  · exact .inl ⟨by omega, by rw [decrBufUseCnt, if_neg hpos]⟩

@[simp] theorem length_decrBufUseCnt : (decrBufUseCnt s b).bufs.length = s.bufs.length := by
  obtain ⟨-, h⟩ | ⟨-, -, h⟩ | ⟨-, -, h⟩ := @decrBufUseCnt_cases s b
  · rw [h]
  · rw [h]
    simp [returnBufferToPool, Bus.modifyBuf]
  · rw [h, Bus.length_modifyBuf]

/-- The last reference takes the buffer off the zero copy list. -/
theorem decrBufUseCnt_zeroCopyList : (decrBufUseCnt s b).zeroCopyList =
    if (s.buf b).useCount = 1 then s.zeroCopyList.erase b else s.zeroCopyList := by
  obtain ⟨huse, h⟩ | ⟨-, huse, h⟩ | ⟨-, huse, h⟩ := @decrBufUseCnt_cases s b
  · rw [h, if_neg (by omega)]
  · rw [h, if_pos huse]
    rfl
  · rw [h, if_neg (by omega)]
    rfl

theorem buf_decrBufUseCnt_of_ne (h : c ≠ b) : (decrBufUseCnt s b).buf c = s.buf c := by
  obtain ⟨-, heq⟩ | ⟨-, -, heq⟩ | ⟨-, -, heq⟩ := @decrBufUseCnt_cases s b
  · rw [heq]
  · rw [heq]
    exact (Bus.buf_modifyBuf_of_ne h).trans (Bus.buf_modifyBuf_of_ne h)
  · rw [heq, Bus.buf_modifyBuf_of_ne h]

theorem buf_decrBufUseCnt_self : (decrBufUseCnt s b).buf b = { s.buf b with
      useCount := (s.buf b).useCount - 1
      returns := (s.buf b).returns + if (s.buf b).useCount = 1 then 1 else 0 } := by
  obtain ⟨huse, h⟩ | ⟨hlt, huse, h⟩ | ⟨hlt, huse, h⟩ := @decrBufUseCnt_cases s b
  · rw [h]
    generalize s.buf b = d at huse
    cases d
    simp_all
  · have hlt' : b < (s.modifyBuf b fun d => { d with useCount := d.useCount - 1 }).bufs.length := by
      rwa [Bus.length_modifyBuf]
    rw [h, if_pos huse]
    refine (Bus.buf_modifyBuf_self hlt').trans ?_
    rw [Bus.buf_modifyBuf_self hlt]
  · rw [h, Bus.buf_modifyBuf_self hlt, if_neg (by omega)]
    rfl

/-- What a descriptor has besides its counters is left alone. -/
theorem buf_decrBufUseCnt_of_eq {β : Type} {v : BufferD → β}
    (hv : ∀ d n m, v { d with useCount := n, returns := m } = v d) :
    v ((decrBufUseCnt s b).buf c) = v (s.buf c) := by
  by_cases hcb : c = b
  · rw [hcb, buf_decrBufUseCnt_self, hv]
  · rw [buf_decrBufUseCnt_of_ne hcb]

theorem useCount_decrBufUseCnt : ((decrBufUseCnt s b).buf c).useCount =
    (s.buf c).useCount - if c = b then 1 else 0 := by
  by_cases hcb : c = b
  · rw [hcb, buf_decrBufUseCnt_self, if_pos rfl]
  · rw [buf_decrBufUseCnt_of_ne hcb, if_neg hcb]
    rfl

theorem returns_decrBufUseCnt : ((decrBufUseCnt s b).buf c).returns =
    (s.buf c).returns + if c = b ∧ (s.buf b).useCount = 1 then 1 else 0 := by
  by_cases hcb : c = b
  · rw [hcb, buf_decrBufUseCnt_self]
    simp
  · rw [buf_decrBufUseCnt_of_ne hcb, if_neg fun h => hcb h.1]
    rfl

@[simp] theorem queueRefs_decrBufUseCnt : queueRefs (decrBufUseCnt s b) c = queueRefs s c := by
  unfold queueRefs
  rw [decrBufUseCnt_queues]

@[simp] theorem pipeRefs_decrBufUseCnt : pipeRefs (decrBufUseCnt s b) c = pipeRefs s c := by
  unfold pipeRefs
  rw [decrBufUseCnt_pipes]

@[simp] theorem pcRefs_decrBufUseCnt {g : Pc → List Nat} :
    pcRefs g (decrBufUseCnt s b) c = pcRefs g s c := pcRefs_congr decrBufUseCnt_tasks

@[simp] theorem pc_decrBufUseCnt : (decrBufUseCnt s b).pc t = s.pc t :=
  Bus.pc_congr decrBufUseCnt_tasks t

@[simp] theorem app_decrBufUseCnt : (decrBufUseCnt s b).app t = s.app t :=
  Bus.app_congr decrBufUseCnt_tasks t

@[simp] theorem pipe_decrBufUseCnt : (decrBufUseCnt s b).pipe i = s.pipe i := by
  unfold Bus.pipe
  rw [decrBufUseCnt_pipes]

end decrBufUseCnt

/-- The counter of a buffer below its limit. -/
theorem buf_incrBufUseCnt (hb : b < s.bufs.length) (hmax : (s.buf b).useCount < 0x7fff) :
    (incrBufUseCnt s b).buf c =
      { s.buf c with useCount := (s.buf c).useCount + if c = b then 1 else 0 } := by
  rw [incrBufUseCnt, if_pos hmax]
  by_cases hcb : c = b
  · rw [hcb, Bus.buf_modifyBuf_self hb, if_pos rfl]
  · rw [Bus.buf_modifyBuf_of_ne hcb, if_neg hcb]
    rfl

/-! ## The invariant -/

/-- The counters are right, and a buffer with a sender has no other reference. -/
structure CountInv (cfg : SbConfig) (s : Bus) : Prop where
  counted : Counted s.bufs.length (fun c => (s.buf c).useCount) (fun c => (s.buf c).returns) (refs s)
  few : ∀ c, refs s c ≤ cfg.maxDestPerPkt + 1
  exclusive : ∀ c, 0 < senderRefs s c → refs s c = 1

/-- Zero copy buffers in use are on the list, under the ID of their application. -/
structure ClaimInv (s : Bus) : Prop where
  claimed : ∀ c, claims s c ≤ s.zeroCopyList.count c
  handleApp : ∀ a c, (a, c) ∈ s.handles → (s.buf c).appId = a
  taskApp : ∀ u, ∀ c ∈ (s.pc u).zeroCopy, (s.buf c).appId = s.app u

/-- The pipe that a task is receiving from, and its place in the table. -/
def Pc.slot : Pc → Option (Nat × Nat)
  | .receiveWaiting pipeId i _ => some (pipeId, i)
  | .receiveHolding pipeId i _ => some (pipeId, i)
  | _ => none

/-- The place in the table of the pipe that a task is deleting. -/
def Pc.deleting : Pc → Option Nat
  | .deleteDraining i _ _ _ => some i
  | .deleteDrained i _ => some i
  | _ => none

/-- One task receives from a pipe, which has given up its last buffer. A pipe that is
being deleted is not in use. -/
structure PipeInv (s : Bus) : Prop where
  live : ∀ u p i, (s.pc u).slot = some (p, i) → Live p
  vacant : ∀ u p i, (s.pc u).slot = some (p, i) → (s.pipe i).pipeId = p →
    (s.pipe i).lastBuffer = none
  single : ∀ u u' p i i', (s.pc u).slot = some (p, i) → (s.pc u').slot = some (p, i') → u = u'
  deleting : ∀ u i, (s.pc u).deleting = some i → ¬ Live (s.pipe i).pipeId

/-- No route has more destinations than the platform allows. -/
def RouteInv (cfg : SbConfig) (s : Bus) : Prop := ∀ r ∈ s.routes, r.dests.length ≤ cfg.maxDestPerPkt

structure BusInv (cfg : SbConfig) (s : Bus) : Prop where
  count : CountInv cfg s
  claim : ClaimInv s
  pipe : PipeInv s
  route : RouteInv cfg s

/-! ### Counters -/

section CountInv

theorem CountInv.pos_of_zeroCopy (h : CountInv cfg s) (hb : b ∈ s.zeroCopyList) : refs s b = 1 := by
  have := count_pos_iff.2 hb
  exact h.exclusive b (by unfold senderRefs; omega)

/-- Nothing about the counters changes, while references may move. -/
theorem CountInv.congr (h : CountInv cfg s) (hlen : s'.bufs.length = s.bufs.length)
    (huse : ∀ c, (s'.buf c).useCount = (s.buf c).useCount)
    (hret : ∀ c, (s'.buf c).returns = (s.buf c).returns) (hrefs : ∀ c, refs s' c = refs s c)
    (hsend : ∀ c, senderRefs s' c = senderRefs s c) : CountInv cfg s' where
  counted := hlen ▸ h.counted.congr huse hret hrefs
  few c := hrefs c ▸ h.few c
  exclusive c hc := by
    rw [hrefs]
    exact h.exclusive c (hsend c ▸ hc)

/-- A new buffer, for a sender. -/
theorem CountInv.create (h : CountInv cfg s) (hlen : s'.bufs.length = s.bufs.length + 1)
    (huse : ∀ c, (s'.buf c).useCount = if c = s.bufs.length then 1 else (s.buf c).useCount)
    (hret : ∀ c, (s'.buf c).returns = if c = s.bufs.length then 0 else (s.buf c).returns)
    (hrefs : ∀ c, refs s' c = refs s c + if c = s.bufs.length then 1 else 0)
    (hsend : ∀ c, senderRefs s' c = senderRefs s c + if c = s.bufs.length then 1 else 0) :
    CountInv cfg s' where
  counted := hlen ▸ h.counted.create huse hret hrefs
  few c := by
    have hfew := h.few c
    rw [hrefs]
    by_cases hc : c = s.bufs.length
    · have := h.counted.bound c (by omega)
      rw [if_pos hc]
      omega
    · rw [if_neg hc]
      omega
  exclusive c hc := by
    have hsendc := hsend c
    rw [hrefs]
    by_cases hnew : c = s.bufs.length
    · have := h.counted.bound c (by omega)
      rw [if_pos hnew]
      omega
    · rw [if_neg hnew] at hsendc ⊢
      exact h.exclusive c (by omega)

/-- A reference is given up. -/
theorem CountInv.release (h : CountInv cfg s) (hb : 0 < refs s b)
    (hlen : s'.bufs.length = s.bufs.length)
    (huse : ∀ c, (s'.buf c).useCount = (s.buf c).useCount - if c = b then 1 else 0)
    (hret : ∀ c, (s'.buf c).returns =
      (s.buf c).returns + if c = b ∧ (s.buf b).useCount = 1 then 1 else 0)
    (hrefs : ∀ c, refs s' c + (if c = b then 1 else 0) = refs s c)
    (hsend : ∀ c, 0 < senderRefs s' c → c ≠ b ∧ 0 < senderRefs s c) : CountInv cfg s' where
  counted := by
    have hcount := h.counted.use b (h.counted.lt hb)
    refine hlen ▸ h.counted.release hb huse (fun c => ?_) fun c => ?_
    · rw [hret, hcount]
    · have := hrefs c
      omega
  few c := by
    have := hrefs c
    have := h.few c
    omega
  exclusive c hc := by
    obtain ⟨hne, hpos⟩ := hsend c hc
    have hrefsc := hrefs c
    rw [if_neg hne] at hrefsc
    have := h.exclusive c hpos
    omega

end CountInv

/-! ### Claims -/

section ClaimInv

theorem claims_pos_of_handle {a : Nat} (hc : (a, c) ∈ s.handles) : 0 < claims s c := by
  have hmem : c ∈ s.handles.map Prod.snd := mem_map.2 ⟨(a, c), hc, rfl⟩
  have := count_pos_iff.2 hmem
  unfold claims
  omega

theorem claims_pos_of_task (hc : c ∈ (s.pc u).zeroCopy) : 0 < claims s c := by
  have hpos := count_pos_iff.2 hc
  have hle := @count_le_pcRefs s c u Pc.zeroCopy
  have hidle : Pc.zeroCopy .idle = [] := rfl
  rw [hidle, count_nil] at hle
  unfold claims
  omega

theorem ClaimInv.congr (h : ClaimInv s) (hlist : s'.zeroCopyList = s.zeroCopyList)
    (hhandles : s'.handles = s.handles) (htasks : s'.tasks = s.tasks)
    (happ : ∀ c, 0 < claims s c → (s'.buf c).appId = (s.buf c).appId) : ClaimInv s' where
  claimed c := by
    unfold claims
    rw [pcRefs_congr htasks, hhandles, hlist]
    exact h.claimed c
  handleApp a c hc := by
    rw [hhandles] at hc
    rw [happ c (claims_pos_of_handle hc)]
    exact h.handleApp a c hc
  taskApp u c hc := by
    rw [Bus.pc_congr htasks] at hc
    rw [happ c (claims_pos_of_task hc), Bus.app_congr htasks]
    exact h.taskApp u c hc

/-- A call moves on: what is left to show is about the buffers that it has before and after. -/
theorem ClaimInv.of_setPc (ht : t < s.tasks.length) (htasks : s'.tasks = (s.setPc t pc).tasks)
    (hclaimed : ∀ c, pcRefs Pc.zeroCopy s' c + (s.pc t).zeroCopy.count c =
      pcRefs Pc.zeroCopy s c + pc.zeroCopy.count c → claims s' c ≤ s'.zeroCopyList.count c)
    (hhandle : ∀ a c, (a, c) ∈ s'.handles → (s'.buf c).appId = a)
    (hself : ∀ c ∈ pc.zeroCopy, (s'.buf c).appId = s.app t)
    (hother : ∀ u c, c ∈ (s.pc u).zeroCopy → u ≠ t → (s'.buf c).appId = s.app u) :
    ClaimInv s' where
  claimed c := hclaimed c (by rw [pcRefs_congr htasks]; exact pcRefs_setPc ht)
  handleApp := hhandle
  taskApp u c hc := by
    rw [Bus.app_congr htasks, Bus.app_setPc]
    rw [Bus.pc_congr htasks] at hc
    by_cases hut : u = t
    · subst hut
      rw [Bus.pc_setPc_self ht] at hc
      exact hself c hc
    · rw [Bus.pc_setPc_of_ne hut] at hc
      exact hother u c hc hut

theorem ClaimInv.setPc (h : ClaimInv s) (ht : t < s.tasks.length)
    (hzero : pc.zeroCopy = (s.pc t).zeroCopy) : ClaimInv (s.setPc t pc) := by
  refine .of_setPc ht rfl (fun c hsum => ?_) h.handleApp (fun c hc => ?_)
    fun u c hc _ => h.taskApp u c hc
  · rw [hzero] at hsum
    unfold claims
    rw [Nat.add_right_cancel hsum]
    exact h.claimed c
  · exact h.taskApp t c (hzero ▸ hc)

/-- The call hands its buffer to the application. -/
theorem ClaimInv.toHandle (h : ClaimInv s) (ht : t < s.tasks.length)
    (hold : (s.pc t).zeroCopy = [b]) (hnew : pc.zeroCopy = []) :
    ClaimInv ({ s with handles := (s.app t, b) :: s.handles }.setPc t pc) := by
  refine .of_setPc (s := s) ht rfl (fun c hsum => ?_) (fun a c hc => ?_) (fun c hc => ?_)
    fun u c hc _ => h.taskApp u c hc
  · have hclaim := h.claimed c
    rw [hold, hnew] at hsum
    unfold claims at hclaim ⊢
    show _ + ((s.app t, b) :: s.handles |>.map Prod.snd).count c ≤ s.zeroCopyList.count c
    simp only [map_cons, count_cons] at hsum ⊢
    omega
  · rcases mem_cons.1 hc with heq | hc
    · obtain ⟨rfl, rfl⟩ := Prod.mk.inj heq
      exact h.taskApp t c (by rw [hold]; simp)
    · exact h.handleApp a c hc
  · rw [hnew] at hc
    cases hc

/-- The application hands its buffer to a call. -/
theorem ClaimInv.ofHandle (h : ClaimInv s) (ht : t < s.tasks.length)
    (hold : (s.pc t).zeroCopy = []) (hnew : pc.zeroCopy = [b]) (hb : (s.app t, b) ∈ s.handles) :
    ClaimInv ({ s with handles := s.handles.erase (s.app t, b) }.setPc t pc) := by
  refine .of_setPc (s := s) ht rfl (fun c hsum => ?_)
    (fun a c hc => h.handleApp a c (mem_of_mem_erase hc)) (fun c hc => ?_)
    fun u c hc _ => h.taskApp u c hc
  · have hclaim := h.claimed c
    have hperm := ((perm_cons_erase hb).map Prod.snd).count_eq c
    rw [hold, hnew] at hsum
    unfold claims at hclaim ⊢
    show _ + ((s.handles.erase (s.app t, b)).map Prod.snd).count c ≤ s.zeroCopyList.count c
    simp only [map_cons, count_cons] at hsum hperm ⊢
    omega
  · rw [hnew, mem_singleton] at hc
    exact h.handleApp _ c (hc ▸ hb)

/-- A claimed buffer exists. -/
theorem ClaimInv.lt (h : ClaimInv s) (hcount : CountInv cfg s) (hc : 0 < claims s c) :
    c < s.bufs.length := by
  have hclaimed := h.claimed c
  refine hcount.counted.lt (b := c) ?_
  unfold refs senderRefs
  omega

end ClaimInv

/-! ### Pipes -/

section PipeInv

/-- What a call has and did not have before, its new place has. -/
theorem Bus.of_setPc {γ : Type} {g : Pc → Option γ} {x : γ} (ht : t < s.tasks.length)
    (hg : g pc = none ∨ g pc = g (s.pc t)) (hu : g ((s.setPc t pc).pc u) = some x) :
    g (s.pc u) = some x := by
  by_cases hut : u = t
  · rw [hut, Bus.pc_setPc_self ht] at hu
    rcases hg with hnone | heq
    · rw [hnone] at hu
      cases hu
    · rw [hut, ← heq, hu]
  · rwa [Bus.pc_setPc_of_ne hut] at hu

theorem PipeInv.congr (h : PipeInv s) (htasks : s'.tasks = s.tasks)
    (hid : ∀ i, (s'.pipe i).pipeId = (s.pipe i).pipeId)
    (hlast : ∀ i, (s'.pipe i).lastBuffer = (s.pipe i).lastBuffer) : PipeInv s' := by
  have hpc := Bus.pc_congr htasks
  refine ⟨fun u p i hu => ?_, fun u p i hu hp => ?_, fun u u' p i i' hu hu' => ?_, fun u i hu => ?_⟩
  · exact h.live u p i (hpc u ▸ hu)
  · rw [hlast]
    exact h.vacant u p i (hpc u ▸ hu) (hid i ▸ hp)
  · exact h.single u u' p i i' (hpc u ▸ hu) (hpc u' ▸ hu')
  · rw [hid]
    exact h.deleting u i (hpc u ▸ hu)

theorem PipeInv.setPc (h : PipeInv s) (ht : t < s.tasks.length)
    (hslot : pc.slot = none ∨ pc.slot = (s.pc t).slot)
    (hdel : pc.deleting = none ∨ pc.deleting = (s.pc t).deleting) : PipeInv (s.setPc t pc) := by
  have hslot' : ∀ u p i, ((s.setPc t pc).pc u).slot = some (p, i) → (s.pc u).slot = some (p, i) :=
    fun u p i hu => Bus.of_setPc ht hslot hu
  refine ⟨fun u p i hu => ?_, fun u p i hu hp => ?_, fun u u' p i i' hu hu' => ?_, fun u i hu => ?_⟩
  · exact h.live u p i (hslot' u p i hu)
  · exact h.vacant u p i (hslot' u p i hu) hp
  · exact h.single u u' p i i' (hslot' u p i hu) (hslot' u' p i' hu')
  · exact h.deleting u i (Bus.of_setPc ht hdel hu)

end PipeInv

/-! ### Routes -/

theorem RouteInv.modifyRoute {f : Route → Route} (h : RouteInv cfg s)
    (hf : ∀ x, x.dests.length ≤ cfg.maxDestPerPkt → (f x).dests.length ≤ cfg.maxDestPerPkt) :
    RouteInv cfg (s.modifyRoute r f) := by
  intro x hx
  obtain ⟨n, hn⟩ := mem_iff_getElem?.1 hx
  rw [Bus.modifyRoute, getElem?_modify, Option.map_eq_map, Option.map_eq_some_iff] at hn
  obtain ⟨y, hy, rfl⟩ := hn
  have hlen := h y (mem_of_getElem? hy)
  split_ifs
  · exact hf y hlen
  · exact hlen

theorem RouteInv.length_dests (h : RouteInv cfg s) :
    (s.route r).dests.length ≤ cfg.maxDestPerPkt := by
  by_cases hr : r < s.routes.length
  · refine h _ ?_
    rw [Bus.route, getD_eq_getElem _ _ hr]
    exact getElem_mem hr
  · rw [Bus.route, getD_eq_default _ _ (by omega)]
    exact Nat.zero_le _

/-! ### Steps without a change of the references -/

/-- A step of a task that moves no reference. -/
theorem BusInv.setPc (h : BusInv cfg s) (ht : t < s.tasks.length) (hpc : s.pc t = old)
    (hdequeued : pc.dequeued = old.dequeued) (hsending : pc.sending = old.sending)
    (hzero : pc.zeroCopy = old.zeroCopy) (hslot : pc.slot = none ∨ pc.slot = old.slot)
    (hdel : pc.deleting = none ∨ pc.deleting = old.deleting) : BusInv cfg (s.setPc t pc) := by
  subst hpc
  refine ⟨h.count.congr rfl (fun _ => rfl) (fun _ => rfl) (fun c => ?_) fun c => ?_,
    h.claim.setPc ht hzero, h.pipe.setPc ht hslot hdel, h.route⟩
  · have := @refs_setPc s c t pc _ ht rfl
    rw [hdequeued, hsending] at this
    omega
  · have := @senderRefs_setPc s c t pc _ ht rfl
    rw [hsending] at this
    omega

/-- A step that changes neither the counters nor the owner of a buffer. -/
theorem BusInv.modifyBuf (h : BusInv cfg s) (huse : ∀ d, (f d).useCount = d.useCount)
    (hret : ∀ d, (f d).returns = d.returns) (happ : ∀ d, (f d).appId = d.appId) :
    BusInv cfg (s.modifyBuf b f) where
  count := h.count.congr Bus.length_modifyBuf
    (fun _ => Bus.buf_modifyBuf_of_eq (v := BufferD.useCount) huse)
    (fun _ => Bus.buf_modifyBuf_of_eq (v := BufferD.returns) hret) (fun _ => rfl) fun _ => rfl
  claim := h.claim.congr rfl rfl rfl fun _ _ => Bus.buf_modifyBuf_of_eq (v := BufferD.appId) happ
  pipe := h.pipe.congr rfl (fun _ => rfl) fun _ => rfl
  route := h.route

/-- A change to the routes only. -/
theorem BusInv.withRoutes {routes : List Route} (h : BusInv cfg s)
    (hroutes : ∀ r ∈ routes, r.dests.length ≤ cfg.maxDestPerPkt) :
    BusInv cfg { s with routes := routes } where
  count := h.count.congr rfl (fun _ => rfl) (fun _ => rfl) (fun _ => rfl) fun _ => rfl
  claim := h.claim.congr rfl rfl rfl fun _ _ => rfl
  pipe := h.pipe.congr rfl (fun _ => rfl) fun _ => rfl
  route := hroutes

theorem BusInv.modifyRoute {f : Route → Route} (h : BusInv cfg s)
    (hf : ∀ x, x.dests.length ≤ cfg.maxDestPerPkt → (f x).dests.length ≤ cfg.maxDestPerPkt) :
    BusInv cfg (s.modifyRoute r f) :=
  h.withRoutes (h.route.modifyRoute hf)

end CfsEds.Sb
