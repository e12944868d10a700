import MessageBus.Proofs.Tickets

/-!
# What the operations do to the numbers of a channel

How a channel can go on depends on few numbers: its bound, how many messages are buffered, and how
many callers wait on each side. `c.Becomes c' q s r` says that `c'` is a later state of the channel
`c` with `q` messages, `s` senders and `r` receivers, in which nobody new waits. There is one such
statement for every operation that goes ahead, and one equation for every operation that does not.
-/

namespace MessageBus.Channel

variable {ω : Type} {c c' : Channel ω} {m : Message} {ms : List Message}

/-- A later state of a channel, and its numbers. -/
structure Becomes (c c' : Channel ω) (messages senders receivers : Nat) : Prop where
  shrinks : c.Shrinks c'
  capacity : c'.capacity = c.capacity
  messages : c'.queue.size = messages
  senders : c'.senders.size = senders
  receivers : c'.receivers.size = receivers

theorem shrinks_wakeFirst (c : Channel ω) (side : Side) : c.Shrinks (c.wakeFirst side).1 := by
  refine ⟨c.id_wakeFirst side, fun s => ?_⟩
  have shorter (l : WaitLine ω) : (l.wakeFirst.1.tickets).Sublist l.tickets := by
    rw [WaitLine.tickets_wakeFirst]
    exact List.tail_sublist _
  cases side <;> cases s
  · exact shorter c.senders
  · exact List.Sublist.refl _
  · exact List.Sublist.refl _
  · exact shorter c.receivers

/-- A change of the queue moves nobody in the lines. -/
theorem shrinks_queue (c : Channel ω) (q : Fifo Message) : c.Shrinks { c with queue := q } :=
  ⟨rfl, fun side => by cases side <;> exact List.Sublist.refl _⟩

theorem becomes_wakeFirst_senders (c : Channel ω) :
    c.Becomes (c.wakeFirst .senders).1 c.queue.size (c.senders.size - 1) c.receivers.size :=
  ⟨c.shrinks_wakeFirst .senders, rfl, rfl, c.senders.size_wakeFirst, rfl⟩

theorem becomes_wakeFirst_receivers (c : Channel ω) :
    c.Becomes (c.wakeFirst .receivers).1 c.queue.size c.senders.size (c.receivers.size - 1) :=
  ⟨c.shrinks_wakeFirst .receivers, rfl, rfl, rfl, c.receivers.size_wakeFirst⟩

theorem becomes_queue (c : Channel ω) (q : Fifo Message) :
    c.Becomes { c with queue := q } q.size c.senders.size c.receivers.size :=
  ⟨c.shrinks_queue q, rfl, rfl, rfl, rfl⟩

/-- What one operation leaves may be the start of the next. -/
theorem Becomes.trans {d e : Channel ω} {q s r q' s' r' : Nat} (h : c.Becomes d q s r)
    (h' : d.Becomes e q' s' r') : c.Becomes e q' s' r' :=
  ⟨h.shrinks.trans h'.shrinks, h'.capacity.trans h.capacity, h'.messages, h'.senders,
    h'.receivers⟩

/-! ### Sending -/

theorem trySend_of_full (h : c.hasSpace = false) :
    c.trySend m = { answer := .error .wouldBlock, state := c } := by
  simp [trySend, h]

theorem becomes_commit (c : Channel ω) (m : Message) :
    c.Becomes (c.commit m false).1 (c.queue.size + 1) c.senders.size (c.receivers.size - 1) := by
  have put := c.becomes_queue (c.queue.push m)
  have woken := put.trans (becomes_wakeFirst_receivers _)
  rwa [Fifo.size_push] at woken

theorem becomes_commit_cascade (c : Channel ω) (m : Message) :
    c.Becomes (c.commit m true).1 (c.queue.size + 1) (c.senders.size - 1)
      (c.receivers.size - 1) := by
  have sent := c.becomes_commit m
  have next := sent.trans (becomes_wakeFirst_senders _)
  rwa [sent.messages, sent.senders, sent.receivers] at next

/-- A send that goes ahead commits its message. -/
theorem trySend_of_hasSpace (h : c.hasSpace = true) :
    (c.trySend m).answer = .ok () ∧ (c.trySend m).state = (c.commit m false).1 := by
  simp [trySend, h, commit]

theorem sendStep_of_full (h : c.hasSpace = false) :
    c.sendStep m = { answer := false, state := c } := by
  simp [sendStep, trySend_of_full h]

theorem sendStep_of_hasSpace (h : c.hasSpace = true) :
    (c.sendStep m).answer = true ∧ (c.sendStep m).state = (c.commit m true).1 := by
  simp [sendStep, trySend, h, commit]

theorem trySendMany_of_full (h : c.hasSpace = false) :
    c.trySendMany ms = { answer := .error .wouldBlock, state := c } := by
  have none : c.freeSlots = 0 := by
    by_contra free
    rw [(c.hasSpace_iff_freeSlots).2 free] at h
    cases h
  simp [trySendMany, none]

theorem answer_trySendMany_of_hasSpace (h : c.hasSpace = true) :
    (c.trySendMany ms).answer = .ok (c.fitting ms) := by
  simp [trySendMany, (c.hasSpace_iff_freeSlots).1 h]

theorem becomes_trySendMany (h : c.hasSpace = true) (ms : List Message) :
    c.Becomes (c.trySendMany ms).state (c.queue.size + c.fitting ms) (c.senders.size - 1)
      (c.receivers.size - c.fitting ms) := by
  have free := (c.hasSpace_iff_freeSlots).1 h
  let sent : Channel ω :=
    { c with
      queue := c.queue.pushMany (ms.take (c.fitting ms))
      receivers := (c.receivers.wakeUpTo (c.fitting ms)).1 }
  have state : (c.trySendMany ms).state = (sent.wakeFirst .senders).1 := by
    simp [trySendMany, free, sent]
  have length : sent.queue.size = c.queue.size + c.fitting ms := by
    simp [sent, Nat.min_eq_left (c.fitting_le_length ms)]
  have woken : c.Becomes sent (c.queue.size + c.fitting ms) c.senders.size
      (c.receivers.size - c.fitting ms) := by
    refine ⟨⟨rfl, fun side => ?_⟩, rfl, length, rfl, c.receivers.size_wakeUpTo _⟩
    cases side with
    | senders => exact List.Sublist.refl _
    | receivers =>
      change (c.receivers.wakeUpTo _).1.tickets.Sublist c.receivers.tickets
      rw [WaitLine.tickets_wakeUpTo]
      exact List.drop_sublist _ _
  have next := woken.trans (becomes_wakeFirst_senders sent)
  rw [state]
  rwa [woken.messages, woken.senders, woken.receivers] at next

/-! ### Receiving -/

theorem tryRecv_of_empty (h : c.queue.size = 0) :
    c.tryRecv = { answer := .error .wouldBlock, state := c } := by
  have nothing : c.queue.items = [] := List.eq_nil_of_length_eq_zero h
  simp [tryRecv, Fifo.pop?, nothing]

theorem becomes_tryRecv (h : 0 < c.queue.size) :
    (∃ m, c.tryRecv.answer = .ok m) ∧
      c.Becomes c.tryRecv.state (c.queue.size - 1) (c.senders.size - 1) c.receivers.size := by
  obtain ⟨m, rest, items⟩ := List.exists_cons_of_length_pos h
  have popped : c.queue.pop? = some (m, ⟨rest⟩) := by simp [Fifo.pop?, items]
  have size : c.queue.size - 1 = (⟨rest⟩ : Fifo Message).size := by simp [Fifo.size, items]
  have taken := c.becomes_queue ⟨rest⟩
  have next := taken.trans (becomes_wakeFirst_senders _)
  refine ⟨⟨m, by simp [tryRecv, popped]⟩, ?_⟩
  have state : c.tryRecv.state =
      (({ c with queue := ⟨rest⟩ } : Channel ω).wakeFirst .senders).1 := by
    simp [tryRecv, popped]
  rw [state, size]
  exact next

theorem tryRecvMany_of_empty (h : c.queue.size = 0) (limit : Nat) :
    c.tryRecvMany limit = .ok { answer := .error .wouldBlock, state := c } := by
  simp [tryRecvMany, (c.queue.isEmpty_iff_size).2 h]

/-- A batch receive never asks for more than there is. -/
theorem becomes_tryRecvMany (h : 0 < c.queue.size) (limit : Nat) :
    ∃ o ms, c.tryRecvMany limit = .ok o ∧ o.answer = .ok ms ∧
      c.Becomes o.state (c.queue.size - limit) (c.senders.size - 1) c.receivers.size := by
  have some : ¬ c.queue.isEmpty = true := by
    rw [Fifo.isEmpty_iff_size]
    omega
  have enough : min limit c.queue.size ≤ c.queue.size := Nat.min_le_right _ _
  have popped := Fifo.popMany_of_le enough
  have size : c.queue.size - limit
      = (⟨c.queue.items.drop (min limit c.queue.size)⟩ : Fifo Message).size := by
    simp only [Fifo.size, List.length_drop]
    omega
  rw [tryRecvMany, if_neg some, popped]
  refine ⟨_, _, rfl, rfl, ?_⟩
  have taken := c.becomes_queue ⟨c.queue.items.drop (min limit c.queue.size)⟩
  rw [size]
  exact taken.trans (becomes_wakeFirst_senders _)

theorem recvManyStep_of_empty (h : c.queue.size = 0) (limit : Nat) :
    c.recvManyStep limit = .ok { answer := .error .wouldBlock, state := c } := by
  simp [recvManyStep, tryRecvMany_of_empty h, Except.map]

/-- What a batch receive leaves wakes one receiver more. -/
theorem becomes_recvManyStep (h : 0 < c.queue.size) (limit : Nat) :
    ∃ o ms, c.recvManyStep limit = .ok o ∧ o.answer = .ok ms ∧
      c.Becomes o.state (c.queue.size - limit) (c.senders.size - 1)
        (if c.queue.size ≤ limit then c.receivers.size else c.receivers.size - 1) := by
  obtain ⟨o, ms, ran, answer, taken⟩ := becomes_tryRecvMany h limit
  have step : c.recvManyStep limit = .ok
      { answer := .ok ms
        state := o.state.passOnLeftovers.1
        woken := o.woken ++ o.state.passOnLeftovers.2 } := by
    simp [recvManyStep, ran, Except.map, answer]
  refine ⟨_, ms, step, rfl, ?_⟩
  by_cases all : c.queue.size ≤ limit
  · have none : o.state.queue.isEmpty = true := by
      rw [Fifo.isEmpty_iff_size, taken.messages]
      omega
    rw [if_pos all]
    simpa [passOnLeftovers, none] using taken
  · have left : o.state.queue.isEmpty = false := by
      rw [← Bool.not_eq_true, Fifo.isEmpty_iff_size, taken.messages]
      omega
    have next := taken.trans (becomes_wakeFirst_receivers o.state)
    rw [taken.messages, taken.senders, taken.receivers] at next
    rw [if_neg all]
    simpa [passOnLeftovers, left] using next

/-! ### Waiting -/

/-- A receiver that waits on an empty channel without a slot wakes all its senders. -/
theorem becomes_receiverParked (c : Channel ω) :
    c.Becomes c.receiverParked.1 c.queue.size
      (if c.queue.size = 0 ∧ c.hasSpace = false then 0 else c.senders.size) c.receivers.size := by
  by_cases h : c.queue.size = 0 ∧ c.hasSpace = false
  · have opens : (c.queue.isEmpty && !c.hasSpace) = true := by
      simp [(c.queue.isEmpty_iff_size).2 h.1, h.2]
    rw [if_pos h, receiverParked, if_pos opens]
    refine ⟨⟨rfl, fun side => ?_⟩, rfl, rfl, rfl, rfl⟩
    cases side with
    | senders => exact List.nil_sublist _
    | receivers => exact List.Sublist.refl _
  · have stays : ¬ (c.queue.isEmpty && !c.hasSpace) = true := by
      simpa [Fifo.isEmpty_iff_size] using h
    rw [if_neg h, receiverParked, if_neg stays]
    exact ⟨Shrinks.refl c, rfl, rfl, rfl, rfl⟩

end MessageBus.Channel
