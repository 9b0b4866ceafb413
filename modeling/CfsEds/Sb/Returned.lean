import CfsEds.Sb.BusRun

/-!
# Use after return

A step of sending or receiving reads or writes the descriptor, or the message, of the
buffers that `touches` lists. None of them has been returned to the pool, in any run that
meets `ReleaseQuiet`, pipe deletions and clean-ups included: by `Run.inv` a buffer that
has a reference has not been returned, and the step is taken by a task that has one.

The events for delivery errors are the exception. `CFE_SB_BroadcastBufferToRoute` gives up
the sender's reference and leaves the lock before it makes the text of an event from the
descriptor. The buffer is still there as long as a destination that took the message has
it: it is in a queue, with the task that has taken it from there, or the last buffer of a
pipe. This is the condition `EventHeld`. A refused message does not break it when another
destination accepts, and an event that is not granted has no text. If no destination took
the message the buffer is gone (`report_uses_returned`).
-/

namespace CfsEds.Sb

open List Option

variable {cfg : SbConfig} {s s' : Bus} {b t i : Nat} {action : Action}

/-! ## What a step uses -/

/-- The buffer that a call is free to write. -/
def Pc.owned (pc : Pc) : List Nat := pc.sending ++ pc.zeroCopy

/-- The buffer of a sender that still has events to send. -/
def Pc.reports : Pc → Option Nat
  | .reporting b _ => some b
  | _ => none

/-- The buffer whose `MsgId` the text of an event has. -/
def Action.reports (s : Bus) : Action → List Nat
  | .reportEvent t granted => if granted then (s.pc t).reports.toList else []
  | _ => []

/-- The buffers whose descriptor or message a step of `CFE_SB_TransmitMsg`,
`CFE_SB_TransmitBuffer` or `CFE_SB_ReceiveBuffer` reads or writes. -/
def touches (cfg : SbConfig) (s : Bus) : Action → List Nat
  | .fillBuffer t => (s.pc t).owned
  | .broadcast t => (s.pc t).owned
  | .reportEvent t granted => Action.reports s (.reportEvent t granted)
  | .transmitBuffer _ b _ => [b]
  | .routeBuffer t => (s.pc t).owned
  | .receiveBuffer _ pipeId => (matchPipe cfg s pipeId).elim [] fun i => (s.pipe i).lastBuffer.toList
  | .storeBuffer t => (s.pc t).dequeued
  | _ => []

/-- The buffer is in a queue, has been taken from one, or is the last buffer of a pipe. -/
def HeldByPipe (s : Bus) (b : Nat) : Prop :=
  0 < queueRefs s b + pcRefs Pc.dequeued s b + pipeRefs s b

instance : Decidable (HeldByPipe s b) := inferInstanceAs (Decidable (_ < _))

/-- A pipe still has the message that an event is about. -/
def EventHeld (s : Bus) (action : Action) : Prop := ∀ b ∈ action.reports s, HeldByPipe s b

instance : Decidable (EventHeld s action) := inferInstanceAs (Decidable (∀ _ ∈ _, _))

/-! ## The task has a reference -/

/-- A buffer that a call owns has a reference. -/
theorem BusInv.refs_pos_of_owned (h : BusInv cfg s) (hb : b ∈ (s.pc t).owned) : 0 < refs s b := by
  rcases mem_append.1 hb with hsending | hzero
  · have hle := @count_le_pcRefs s b t Pc.sending
    have hidle : Pc.sending .idle = [] := rfl
    have hpos := count_pos_iff.2 hsending
    rw [hidle, count_nil] at hle
    unfold refs senderRefs
    omega
  · have hpos := claims_pos_of_task hzero
    have hclaimed := h.claim.claimed b
    unfold refs senderRefs
    omega

theorem BusInv.refs_pos_of_handle {a : Nat} (h : BusInv cfg s) (hb : (a, b) ∈ s.handles) :
    0 < refs s b := by
  have hpos := claims_pos_of_handle hb
  have hclaimed := h.claim.claimed b
  unfold refs senderRefs
  omega

/-- The last buffer of a pipe that is in use has a reference. -/
theorem refs_pos_of_lastBuffer {pipeId : Nat} (hmatch : matchPipe cfg s pipeId = some i)
    (hb : b ∈ (s.pipe i).lastBuffer.toList) : 0 < refs s b := by
  have hid := pipeId_of_match hmatch
  have hlive := live_of_match hmatch
  rw [← held_eq (by rw [hid]; exact hlive)] at hb
  have hpos := count_pos_iff.2 hb
  have hle := held_le_pipeRefs (s := s) (i := i) (c := b)
    (Bus.lt_of_pipeId (by rw [hid]; exact hlive.1))
  unfold refs
  omega

theorem refs_pos_of_dequeued (hb : b ∈ (s.pc t).dequeued) : 0 < refs s b := by
  have hpos := count_pos_iff.2 hb
  have hle := @count_le_pcRefs s b t Pc.dequeued
  have hidle : Pc.dequeued .idle = [] := rfl
  rw [hidle, count_nil] at hle
  unfold refs
  omega

theorem HeldByPipe.refs_pos (h : HeldByPipe s b) : 0 < refs s b := by
  unfold HeldByPipe at h
  unfold refs
  omega

/-- A step uses buffers that have a reference, apart from the events. -/
theorem BusInv.refs_pos_of_touches (h : BusInv cfg s) (hstep : step cfg s action = some s')
    (hheld : EventHeld s action) (hb : b ∈ touches cfg s action) : 0 < refs s b := by
  cases action with
  | fillBuffer t | broadcast t | routeBuffer t => exact h.refs_pos_of_owned hb
  | reportEvent t => exact (hheld b hb).refs_pos
  | transmitBuffer =>
    -- the caller has the buffer, whether the check of its descriptor passes or not
    rw [mem_singleton.1 hb]
    simp only [step, transmitBuffer] at hstep
    split_ifs at hstep with hidle
    · exact h.refs_pos_of_handle hidle.2
    · exact h.refs_pos_of_handle hidle.2
  | receiveBuffer t pipeId =>
    rw [touches] at hb
    cases hmatch : matchPipe cfg s pipeId with
    | none =>
      rw [hmatch] at hb
      cases hb
    | some i =>
      rw [hmatch, elim_some] at hb
      exact refs_pos_of_lastBuffer hmatch hb
  | storeBuffer t => exact refs_pos_of_dequeued hb
  | _ => cases hb

/-- No step of sending or receiving uses a buffer that has been returned, if the message of
every event is still with a pipe. -/
theorem touches_not_returned (h : Run cfg ReleaseQuiet s) (hstep : step cfg s action = some s')
    (hheld : EventHeld s action) : ∀ b ∈ touches cfg s action, (s.buf b).returns = 0 := by
  intro b hb
  exact h.inv.count.counted.returns_eq_zero (h.inv.refs_pos_of_touches hstep hheld hb)

/-- Application 2 has a pipe too. -/
def samplePipes : Bus :=
  { sampleBus with
    pipes := sampleBus.pipes ++ [⟨0x02160002, false, 2, 1, 0, 0, none⟩]
    queues := [⟨2, []⟩, ⟨2, []⟩] }

theorem init_samplePipes : Init sampleConfig samplePipes where
  bufs := rfl
  zeroCopyList := rfl
  handles := rfl
  routes := rfl
  idle := by decide
  empty := by decide
  vacant := by decide
  located := by decide
  ownQueue := by decide

/-- The pipe of application 3 has reached its limit with the first message. The second goes
to the pipe of application 2 only, where it is when the event about the limit is sent. -/
theorem touches_not_returned_sample : ∃ s s', Run sampleConfig ReleaseQuiet s ∧
    step sampleConfig s (.reportEvent 0 true) = some s' ∧
    touches sampleConfig s (.reportEvent 0 true) = [1] ∧ (s.buf 1).returns = 0 := by
  have hinit : Run sampleConfig ReleaseQuiet samplePipes := Run.init init_samplePipes
  obtain ⟨s, hrun, hsome, hheld, htouches⟩ := hinit.exists_exec
    (P := fun s => (step sampleConfig s (.reportEvent 0 true)).isSome ∧
      EventHeld s (.reportEvent 0 true) ∧ touches sampleConfig s (.reportEvent 0 true) = [1])
    [.subscribe 2 5 0x02160001 1 1, .subscribe 1 5 0x02160002 4 1,
      .transmitMsg 0 sampleMessage true, .getBuffer 0 true, .fillBuffer 0, .broadcast 0,
      .transmitMsg 0 sampleMessage true, .getBuffer 0 true, .fillBuffer 0, .broadcast 0]
    (by decide +kernel)
  obtain ⟨s', hstep⟩ := isSome_iff_exists.1 hsome
  exact ⟨s, s', hrun, hstep, htouches,
    touches_not_returned hrun hstep hheld 1 (by rw [htouches]; simp)⟩

/-- The only destination of the second message has reached its limit. The buffer is
returned in the broadcast, and the event about the limit then reads its descriptor. -/
theorem report_uses_returned : ∃ s s', Run sampleConfig ReleaseQuiet s ∧
    step sampleConfig s (.reportEvent 0 true) = some s' ∧
    1 ∈ touches sampleConfig s (.reportEvent 0 true) ∧ (s.buf 1).returns = 1 := by
  have hinit : Run sampleConfig ReleaseQuiet sampleBus := Run.init init_sampleBus
  obtain ⟨s, hrun, hsome, htouches, hreturns⟩ := hinit.exists_exec
    (P := fun s => (step sampleConfig s (.reportEvent 0 true)).isSome ∧
      1 ∈ touches sampleConfig s (.reportEvent 0 true) ∧ (s.buf 1).returns = 1)
    [.subscribe 2 5 0x02160001 1 1, .transmitMsg 0 sampleMessage true, .getBuffer 0 true,
      .fillBuffer 0, .broadcast 0, .transmitMsg 0 sampleMessage true, .getBuffer 0 true,
      .fillBuffer 0, .broadcast 0] (by decide +kernel)
  obtain ⟨s', hstep⟩ := isSome_iff_exists.1 hsome
  exact ⟨s, s', hrun, hstep, htouches, hreturns⟩

end CfsEds.Sb
