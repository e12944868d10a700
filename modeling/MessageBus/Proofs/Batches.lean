import MessageBus.Proofs.Broadcasts.Attempts
import MessageBus.Proofs.Wakeups

/-!
# Batches, one message at a time

A batch does what its messages do one after the other. `sendEach` sends them with one send each
until one is refused, and `recvEach` takes them with one receive each. A batch sends and receives
the same messages, and leaves the same queue.

It is sparing with wakeups, though. A batch that was sent wakes a receiver for each message, as the
single sends do, and then one sender to go on, which they do not. A batch that was received wakes
one sender, where the single receives wake one each. The batch receive of a caller that is able to
wait wakes a receiver too, if it leaves messages behind.
-/

namespace MessageBus

variable {ω : Type}

/-- Waking some callers takes them from the front of the line. -/
theorem WaitLine.wakeUpTo_eq (l : WaitLine ω) (n : Nat) :
    l.wakeUpTo n = (⟨l.waiters.drop n⟩, (l.waiters.take n).map (·.waker)) := by
  induction n generalizing l with
  | zero => rfl
  | succ n ih =>
    rcases l with ⟨_ | ⟨first, later⟩⟩
    · rfl
    · rw [wakeUpTo]
      simp only [wakeFirst, ih, List.drop_succ_cons, List.take_succ_cons, List.map_cons]

/-- The first caller is woken before those behind it. -/
theorem WaitLine.wakers_succ (l : WaitLine ω) (n : Nat) :
    (l.waiters.take 1).map (·.waker) ++ ((l.waiters.drop 1).take n).map (·.waker) =
      (l.waiters.take (n + 1)).map (·.waker) := by
  rw [Nat.add_comm, List.take_add, List.map_append]

namespace Channel

variable {c : Channel ω} {m : Message} {ms : List Message} {n limit : Nat}

/-! ### Sending -/

/-- Sends messages one by one, until one is refused, and answers how many were sent. -/
def sendEach (c : Channel ω) : List Message → Outcome (Channel ω) ω Nat
  | [] => { answer := 0, state := c }
  | m :: ms =>
    let sent := c.trySend m
    match sent.answer with
    | .error _ => { answer := 0, state := sent.state, woken := sent.woken }
    | .ok _ =>
      let later := sent.state.sendEach ms
      { answer := later.answer + 1, state := later.state, woken := sent.woken ++ later.woken }

/-- A channel after some messages came in, each of which called a receiver. -/
def received (c : Channel ω) (ms : List Message) : Channel ω :=
  { c with
    queue := ⟨c.queue.items ++ ms⟩
    receivers := ⟨c.receivers.waiters.drop ms.length⟩ }

theorem received_cons (c : Channel ω) (m : Message) (ms : List Message) :
    c.received (m :: ms) = (c.received [m]).received ms := by
  simp only [received, List.append_assoc, List.singleton_append, List.drop_drop,
    List.length_cons, List.length_nil, Nat.zero_add, Nat.add_comm]

theorem fitting_of_full (full : c.hasSpace = false) (ms : List Message) : c.fitting ms = 0 := by
  rw [hasSpace_eq_false_iff] at full
  rw [fitting, freeSlots, Nat.sub_eq_zero_of_le full, Nat.min_zero]

/-- One message more fits than after it was sent. -/
theorem fitting_cons (space : c.hasSpace = true) (m : Message) (ms : List Message) :
    c.fitting (m :: ms) = (c.received [m]).fitting ms + 1 := by
  rw [hasSpace_iff] at space
  simp only [fitting, freeSlots, received, Fifo.size, List.length_cons, List.length_append,
    List.length_nil] at space ⊢
  omega

theorem trySend_eq (space : c.hasSpace = true) (m : Message) : c.trySend m =
    { answer := .ok (), state := c.received [m],
      woken := (c.receivers.waiters.take 1).map (·.waker) } := by
  rw [trySend, if_pos space, wakeFirst_eq]
  simp only [received, setLine, line, Fifo.push, List.length_singleton, List.drop_one]

/-- The messages are sent that fit, and each calls a receiver as long as one waits. -/
theorem sendEach_eq (c : Channel ω) (ms : List Message) : c.sendEach ms =
    { answer := c.fitting ms, state := c.received (ms.take (c.fitting ms)),
      woken := (c.receivers.waiters.take (c.fitting ms)).map (·.waker) } := by
  induction ms generalizing c with
  | nil => simp [sendEach, fitting, received]
  | cons m ms ih =>
    cases space : c.hasSpace with
    | false => simp [sendEach, trySend_of_full space, fitting_of_full space, received]
    | true =>
      -- What is left to be sent fits as it did before, on a channel that holds one message more.
      rw [sendEach, trySend_eq space, fitting_cons space, List.take_succ_cons,
        received_cons c m (List.take _ ms)]
      simp only [ih (c.received [m])]
      rw [← c.receivers.wakers_succ ((c.received [m]).fitting ms)]
      rfl

/-- How a batch is sent: without a free slot it is refused and nothing changes. Otherwise it does
what sending its messages one by one does, and at the end it takes the sender that has waited
longest out of its line and wakes it. -/
structure SendsAsEach (c : Channel ω) (ms : List Message) : Prop where
  full : c.freeSlots = 0 → c.trySendMany ms = { answer := .error .wouldBlock, state := c }
  each : c.freeSlots ≠ 0 → c.trySendMany ms =
    { answer := .ok (c.sendEach ms).answer
      state := { (c.sendEach ms).state with senders := ⟨c.senders.waiters.tail⟩ }
      woken := (c.sendEach ms).woken ++ (c.senders.waiters.take 1).map (·.waker) }
  /-- What was not sent is the rest of the messages. -/
  front : (c.sendEach ms).answer ≤ ms.length ∧ (c.sendEach ms).state.queue.items =
    c.queue.items ++ ms.take (c.sendEach ms).answer
  /-- Nothing more would have been sent. -/
  stops : (c.sendEach ms).answer < ms.length → ∀ m,
    (c.sendEach ms).state.trySend m =
      { answer := .error .wouldBlock, state := (c.sendEach ms).state }

theorem length_take_fitting (c : Channel ω) (ms : List Message) :
    (ms.take (c.fitting ms)).length = c.fitting ms := by
  rw [List.length_take, Nat.min_eq_left (c.fitting_le_length ms)]

theorem trySendMany_eq (free : c.freeSlots ≠ 0) (ms : List Message) : c.trySendMany ms =
    { answer := .ok (c.fitting ms)
      state := { c.received (ms.take (c.fitting ms)) with senders := ⟨c.senders.waiters.tail⟩ }
      woken := (c.receivers.waiters.take (c.fitting ms)).map (·.waker) ++
        (c.senders.waiters.take 1).map (·.waker) } := by
  rw [trySendMany, if_neg free]
  simp only [WaitLine.wakeUpTo_eq, received, length_take_fitting, Fifo.pushMany, wakeFirst_eq,
    setLine, line]

theorem sendsAsEach (c : Channel ω) (ms : List Message) : c.SendsAsEach ms where
  full full := by rw [trySendMany, if_pos full]
  each free := by rw [trySendMany_eq free, sendEach_eq]
  front := by
    rw [sendEach_eq]
    exact ⟨c.fitting_le_length ms, rfl⟩
  stops less m := by
    rw [sendEach_eq] at less ⊢
    have less : c.fitting ms < ms.length := less
    have full : (c.received (ms.take (c.fitting ms))).hasSpace = false := by
      rw [hasSpace_eq_false_iff]
      simp only [received, Fifo.size, List.length_append, length_take_fitting]
      simp only [fitting, freeSlots, Fifo.size] at less ⊢
      omega
    exact trySend_of_full full

/-! ### Receiving -/

/-- Receives so many times, one message each time, and answers what came of it. -/
def recvEach (c : Channel ω) : Nat → Outcome (Channel ω) ω (List (Except BusError Message))
  | 0 => { answer := [], state := c }
  | n + 1 =>
    let taken := c.tryRecv
    let later := taken.state.recvEach n
    { answer := taken.answer :: later.answer
      state := later.state
      woken := taken.woken ++ later.woken }

/-- A channel after so many messages were taken out, each of which called a sender. -/
def drained (c : Channel ω) (n : Nat) : Channel ω :=
  { c with queue := ⟨c.queue.items.drop n⟩, senders := ⟨c.senders.waiters.drop n⟩ }

theorem drained_succ (c : Channel ω) (n : Nat) : c.drained (n + 1) = (c.drained 1).drained n := by
  simp only [drained, List.drop_drop, Nat.add_comm]

theorem tryRecv_eq {later : List Message} (items : c.queue.items = m :: later) : c.tryRecv =
    { answer := .ok m, state := c.drained 1,
      woken := (c.senders.waiters.take 1).map (·.waker) } := by
  simp only [tryRecv, Fifo.pop?, items, wakeFirst_eq, drained, setLine, line, List.drop_one,
    List.tail_cons]

/-- As many messages are taken as there are, and each calls a sender as long as one waits. -/
theorem recvEach_eq (enough : n ≤ c.queue.size) : c.recvEach n =
    { answer := (c.queue.items.take n).map .ok, state := c.drained n,
      woken := (c.senders.waiters.take n).map (·.waker) } := by
  induction n generalizing c with
  | zero => rfl
  | succ n ih =>
    obtain ⟨m, later, items⟩ := List.exists_cons_of_length_pos (Nat.zero_lt_of_lt enough)
    have left : (c.drained 1).queue.items = later := by rw [drained, items]; rfl
    have enough' : n ≤ (c.drained 1).queue.size := by
      rw [Fifo.size, items, List.length_cons] at enough
      rw [Fifo.size, left]
      omega
    rw [recvEach, tryRecv_eq items, drained_succ c n, items]
    simp only [ih enough', left, List.take_succ_cons, List.map_cons]
    rw [← c.senders.wakers_succ n]
    rfl

theorem tryRecvMany_eq (some : 0 < c.queue.size) (limit : Nat) : c.tryRecvMany limit = .ok
    { answer := .ok (c.queue.items.take (min limit c.queue.size))
      state := { c with
        queue := ⟨c.queue.items.drop (min limit c.queue.size)⟩
        senders := ⟨c.senders.waiters.tail⟩ }
      woken := (c.senders.waiters.take 1).map (·.waker) } := by
  have holds : ¬c.queue.isEmpty = true := by
    rw [Fifo.isEmpty_iff_size]
    omega
  rw [tryRecvMany, if_neg holds, Fifo.popMany_of_le (Nat.min_le_right _ _)]
  simp only [Except.map, wakeFirst_eq, setLine, line]

/-- How a batch of messages is received: they are those that as many single receives take, and the
channel is left as they leave it, except that only one sender was woken. -/
structure ReceivesAsEach (c : Channel ω) (limit : Nat)
    (o : Outcome (Channel ω) ω (Except BusError (List Message))) (ms : List Message) : Prop where
  answer : o.answer = .ok ms
  each : (c.recvEach (min limit c.queue.size)).answer = ms.map .ok
  state : o.state = { (c.recvEach (min limit c.queue.size)).state with
    senders := ⟨c.senders.waiters.tail⟩ }
  woken : o.woken = (c.senders.waiters.take 1).map (·.waker)
  first : 1 ≤ limit → o.woken = (c.recvEach (min limit c.queue.size)).woken.take 1
  some : 1 ≤ limit → ms ≠ []

theorem receivesAsEach (some : c.queue.items ≠ []) (limit : Nat) :
    ∃ o ms, c.tryRecvMany limit = .ok o ∧ c.ReceivesAsEach limit o ms := by
  have pos : 0 < c.queue.size := List.length_pos_iff.2 some
  have each := recvEach_eq (c := c) (Nat.min_le_right limit c.queue.size)
  refine ⟨_, _, tryRecvMany_eq pos limit, rfl, ?_, ?_, rfl, fun least => ?_, fun least none => ?_⟩
  · rw [each]
  · rw [each]
    rfl
  · have count : min 1 (min limit c.queue.size) = 1 := by omega
    rw [each, ← List.map_take, List.take_take, count]
  · rw [List.take_eq_nil_iff] at none
    rcases none with zero | none
    · omega
    · exact some none

/-- How the batch receive of a caller that is able to wait goes on from the messages that were
taken: if some are left it wakes the receiver that has waited longest, and otherwise nobody. -/
structure HandsOn (taken o : Outcome (Channel ω) ω (Except BusError (List Message))) : Prop where
  answer : o.answer = taken.answer
  left : taken.state.queue.items ≠ [] →
    o.state = { taken.state with receivers := ⟨taken.state.receivers.waiters.tail⟩ } ∧
    o.woken = taken.woken ++ (taken.state.receivers.waiters.take 1).map (·.waker)
  nothing : taken.state.queue.items = [] → o.state = taken.state ∧ o.woken = taken.woken

theorem handsOn {taken : Outcome (Channel ω) ω (Except BusError (List Message))}
    (ran : c.tryRecvMany limit = .ok taken) (answer : taken.answer = .ok ms) :
    ∃ o, c.recvManyStep limit = .ok o ∧ HandsOn taken o := by
  have step : c.recvManyStep limit = .ok
      { answer := .ok ms
        state := taken.state.passOnLeftovers.1
        woken := taken.woken ++ taken.state.passOnLeftovers.2 } := by
    simp only [recvManyStep, ran, Except.map, answer]
  refine ⟨_, step, answer.symm, fun left => ?_, fun nothing => ?_⟩
  · have left : ¬taken.state.queue.isEmpty = true := mt List.isEmpty_iff.1 left
    rw [passOnLeftovers, if_neg left, wakeFirst_eq]
    exact ⟨rfl, rfl⟩
  · have nothing : taken.state.queue.isEmpty = true := List.isEmpty_iff.2 nothing
    rw [passOnLeftovers, if_pos nothing]
    exact ⟨rfl, List.append_nil _⟩

end Channel

end MessageBus
