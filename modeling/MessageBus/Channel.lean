import MessageBus.Basic
import MessageBus.Fifo
import MessageBus.Outcome
import MessageBus.WaitLine

/-!
# One bounded channel

A channel is a queue of messages, a bound on their number, and two waiting lines: callers that wait
for a free slot and callers that wait for a message. Every operation here is one atomic change; it
says what it did and which waiters it owes a wakeup.

The rule of waking is sparing. A message that comes in wakes one receiver, and a receive wakes one
sender, however many slots it freed. Those that are woken pass it on: a send that was made by a
caller able to wait wakes the next sender, and a batch receive that leaves messages behind wakes
the next receiver.

The bound may be zero. Such a channel is always full, and only a broadcast can get a message
through it, to a receiver that already waits (`acceptsBroadcast`).
-/

namespace MessageBus

/-- A bounded channel with its waiting callers. -/
structure Channel (ω : Type) where
  id : ChannelId
  capacity : Nat
  queue : Fifo Message
  senders : WaitLine ω
  receivers : WaitLine ω
deriving Repr

namespace Channel

variable {ω : Type}

/-- A channel in which nothing is buffered and nobody waits. -/
def fresh (id : ChannelId) (capacity : Nat) : Channel ω :=
  ⟨id, capacity, .empty, .empty, .empty⟩

/-- How many messages are buffered. -/
def size (c : Channel ω) : Nat := c.queue.size

/-- Whether one more message fits. -/
def hasSpace (c : Channel ω) : Bool := c.queue.size < c.capacity

/-- How many more messages fit. A channel that holds more than its bound has no free slot. -/
def freeSlots (c : Channel ω) : Nat := c.capacity - c.queue.size

/-- The callers that wait on one side. -/
def line (c : Channel ω) : Side → WaitLine ω
  | .senders => c.senders
  | .receivers => c.receivers

/-- Replaces the line of one side. -/
def setLine (c : Channel ω) : Side → WaitLine ω → Channel ω
  | .senders, l => { c with senders := l }
  | .receivers, l => { c with receivers := l }

/-- Wakes the caller that has waited longest on one side, if anybody waits there. -/
def wakeFirst (c : Channel ω) (side : Side) : Channel ω × List ω :=
  let woken := (c.line side).wakeFirst
  (c.setLine side woken.1, woken.2.toList)

/-- Sends a message if it fits, and wakes one receiver for it. -/
def trySend (c : Channel ω) (m : Message) : Outcome (Channel ω) ω (Except BusError Unit) :=
  if c.hasSpace then
    let woken := { c with queue := c.queue.push m }.wakeFirst .receivers
    { answer := .ok (), state := woken.1, woken := woken.2 }
  else
    { answer := .error .wouldBlock, state := c }

/-- The send of a caller that is able to wait: once it has sent, it wakes the next sender, so that
the senders woken one by one take up all the slots that a receive has freed. -/
def sendStep (c : Channel ω) (m : Message) : Outcome (Channel ω) ω Bool :=
  let sent := c.trySend m
  match sent.answer with
  | .error _ => { sent with answer := false }
  | .ok _ =>
    let next := sent.state.wakeFirst .senders
    { answer := true, state := next.1, woken := sent.woken ++ next.2 }

/-- Takes the oldest message, and wakes one sender for the slot that it leaves. -/
def tryRecv (c : Channel ω) : Outcome (Channel ω) ω (Except BusError Message) :=
  match c.queue.pop? with
  | none => { answer := .error .wouldBlock, state := c }
  | some (m, rest) =>
    let woken := { c with queue := rest }.wakeFirst .senders
    { answer := .ok m, state := woken.1, woken := woken.2 }

/-- How many of these messages fit. -/
def fitting (c : Channel ω) (ms : List Message) : Nat := min ms.length c.freeSlots

/-- Sends the first of these messages, as many as fit, and answers their number. Each wakes one
receiver, as long as one waits; at the end one sender is woken to go on. -/
def trySendMany (c : Channel ω) (ms : List Message) :
    Outcome (Channel ω) ω (Except BusError Nat) :=
  if c.freeSlots = 0 then { answer := .error .wouldBlock, state := c }
  else
    let count := c.fitting ms
    let woken := c.receivers.wakeUpTo count
    let sent := { c with queue := c.queue.pushMany (ms.take count), receivers := woken.1 }
    let next := sent.wakeFirst .senders
    { answer := .ok count, state := next.1, woken := woken.2 ++ next.2 }

/-- Takes the oldest messages, at most `limit` of them, and wakes one sender. -/
def tryRecvMany (c : Channel ω) (limit : Nat) :
    Except Fault (Outcome (Channel ω) ω (Except BusError (List Message))) :=
  if c.queue.isEmpty then .ok { answer := .error .wouldBlock, state := c }
  else
    (c.queue.popMany (min limit c.queue.size)).map fun (ms, rest) =>
      let woken := { c with queue := rest }.wakeFirst .senders
      { answer := .ok ms, state := woken.1, woken := woken.2 }

/-- Wakes one receiver for the messages that a batch receive has left. -/
def passOnLeftovers (c : Channel ω) : Channel ω × List ω :=
  if c.queue.isEmpty then (c, []) else c.wakeFirst .receivers

/-- The batch receive of a caller that is able to wait: what it leaves, it hands on. -/
def recvManyStep (c : Channel ω) (limit : Nat) :
    Except Fault (Outcome (Channel ω) ω (Except BusError (List Message))) :=
  (c.tryRecvMany limit).map fun taken =>
    match taken.answer with
    | .error _ => taken
    | .ok ms =>
      let next := taken.state.passOnLeftovers
      { answer := .ok ms, state := next.1, woken := taken.woken ++ next.2 }

/-- Whether a broadcast that is able to wait may put its message here: a slot is free, or nothing
is buffered and a receiver waits that will take the message as soon as it runs. -/
def acceptsBroadcast (c : Channel ω) : Bool :=
  c.hasSpace || (c.queue.isEmpty && !c.receivers.isEmpty)

/-- What a receiver does once it waits. A channel that is empty and yet full has only now become
open to a broadcast, so all its senders are woken to look again. -/
def receiverParked (c : Channel ω) : Channel ω × List ω :=
  if c.queue.isEmpty && !c.hasSpace then
    let woken := c.senders.wakeAll
    ({ c with senders := woken.1 }, woken.2)
  else (c, [])

/-- Puts in a message that has been admitted before, and wakes one receiver; with `cascade` also
the next sender, as a send does. -/
def commit (c : Channel ω) (m : Message) (cascade : Bool) : Channel ω × List ω :=
  let sent := { c with queue := c.queue.push m }.wakeFirst .receivers
  if cascade then
    let next := sent.1.wakeFirst .senders
    (next.1, sent.2 ++ next.2)
  else sent

/-- Whom the end of a channel wakes: the receivers, then the senders. -/
def close (c : Channel ω) : List ω := c.receivers.wakeAll.2 ++ c.senders.wakeAll.2

@[simp] theorem line_setLine (c : Channel ω) (side : Side) (l : WaitLine ω) :
    (c.setLine side l).line side = l := by cases side <;> rfl

@[simp] theorem id_setLine (c : Channel ω) (side : Side) (l : WaitLine ω) :
    (c.setLine side l).id = c.id := by cases side <;> rfl

@[simp] theorem queue_setLine (c : Channel ω) (side : Side) (l : WaitLine ω) :
    (c.setLine side l).queue = c.queue := by cases side <;> rfl

@[simp] theorem id_wakeFirst (c : Channel ω) (side : Side) : (c.wakeFirst side).1.id = c.id := by
  simp [wakeFirst]

@[simp] theorem queue_wakeFirst (c : Channel ω) (side : Side) :
    (c.wakeFirst side).1.queue = c.queue := by
  simp [wakeFirst]

/-- A channel has space exactly when it has a free slot. -/
theorem hasSpace_iff_freeSlots (c : Channel ω) : c.hasSpace = true ↔ c.freeSlots ≠ 0 := by
  simp [hasSpace, freeSlots]
  omega

/-- No more is taken of a batch than it holds. -/
theorem fitting_le_length (c : Channel ω) (ms : List Message) : c.fitting ms ≤ ms.length :=
  Nat.min_le_left _ _

end Channel

end MessageBus
