import MessageBus.Registry.Waiting
import MessageBus.Telemetry
import MessageBus.Text.Layout

/-!
# Descriptions of a bus and its parts

One line of text for each part. A bus is described by the number of its slots and of its open
channels; while it is in use, nothing can be told about it. A waiting line is described by its
length only, so descriptions of a bus do not depend on what its wakers are.
-/

namespace MessageBus

open Text

variable {ω : Type}

/-- The description of an identity. -/
def ChannelId.describe (id : ChannelId) : String := wrapped "ChannelId" (toString id.number)

/-- The description of a ticket. -/
def Ticket.describe (t : Ticket) : String := wrapped "Ticket" (toString t.number)

/-- The description of a queue of messages. -/
def Fifo.describe (q : Fifo Message) : String :=
  record "MessageQueue" [("data", list (q.items.map fun m => toString m.toNat))]

/-- The description of a waiting line. -/
def WaitLine.describe (l : WaitLine ω) : String := record "WaitQueue" [("len", toString l.size)]

/-- The description of wakers that are still to be called. -/
def describeOwed (owed : List ω) : String := record "Wakeups" [("len", toString owed.length)]

/-- The description of a channel. -/
def Channel.describe (c : Channel ω) : String :=
  record "Channel"
    [("id", c.id.describe), ("capacity", toString c.capacity), ("queue", c.queue.describe),
      ("senders", c.senders.describe), ("receivers", c.receivers.describe)]

/-- The description of everything that a registry holds. -/
def Registry.describe (r : Registry ω) : String :=
  record "BusState"
    [("slots", list (r.slots.map fun slot => optional (slot.map (·.describe)))),
      ("next_id", toString r.nextId), ("next_ticket", toString r.nextTicket)]

/-- The short description of a bus. -/
def Registry.summary (r : Registry ω) (inUse : Bool) : String :=
  if inUse then closedRecord "Bus"
  else record "Bus" [("slots", toString r.slots.length), ("open", toString r.channelCount)]

/-- How far a bare wait has come. -/
inductive WaitState where
  /-- It has no place yet. -/
  | idle
  | parked (ticket : Ticket)
  | left
deriving DecidableEq, Repr

/-- The description of how far a bare wait has come. -/
def WaitState.describe : WaitState → String
  | .idle => "Idle"
  | .parked ticket => wrapped "Parked" ticket.describe
  | .left => "Done"

/-- The description of a bare wait on a bus with this summary. -/
def describeWait (bus : String) (a : Address) (side : Side) (state : WaitState) : String :=
  record "Park"
    [("bus", bus), ("handle", toString a.handle), ("id", a.id.describe), ("side", side.name),
      ("state", state.describe)]

/-- The description of a stream of the messages of one channel. -/
def describeStream (handle : Handle) (ended receiving : Bool) : String :=
  record "Messages"
    [("handle", toString handle), ("ended", truth ended), ("pending", truth receiving)]

end MessageBus
