import MessageBus.Registry

/-!
# Waiting on a channel

There is one way to suspend on a bus: to take a `Place` in one of the lines of a channel. A place
is taken with `park`, looked at again with `revisit`, and given up with `abandon`.

A caller learns that it has been woken from the line itself: its ticket no longer stands there.
Being woken does not say that what it waited for is so, and the caller has to look again.

A place that is given up must not take a wakeup with it. If its ticket was no longer in the line,
the wakeup that took it out goes to whoever is first now.
-/

namespace MessageBus

/-- One call's place in a line. -/
structure Place where
  address : Address
  side : Side
  ticket : Ticket
deriving DecidableEq, Repr

/-- How a call stands that once took a place. -/
inductive Standing where
  /-- Its ticket is still in the line. -/
  | queued
  /-- Its ticket was taken out, so it was woken. -/
  | called
  /-- The channel is no longer there. -/
  | gone
deriving DecidableEq, Repr

namespace Registry

variable {ω : Type}

/-- Takes a place at the end of a line; `none` if the channel is not there. The ticket is used up
either way. -/
def park (r : Registry ω) (a : Address) (side : Side) (k : ω) :
    Except Fault (Outcome (Registry ω) ω (Option Place)) :=
  let ticket : Ticket := ⟨r.nextTicket⟩
  let r := { r with nextTicket := r.nextTicket + 1 }
  match r.find? a with
  | none => .ok { answer := none, state := r }
  | some c =>
    ((c.line side).push ticket k).map fun line =>
      let parked := c.setLine side line
      let woken : Channel ω × List ω :=
        match side with
        | .receivers => parked.receiverParked
        | .senders => (parked, [])
      { answer := some ⟨a, side, ticket⟩
        state := r.put a.handle woken.1
        woken := woken.2
        afterwards := [.parked a.handle side ticket] }

/-- Looks how a place stands. While it is still in the line, it keeps its turn and is woken through
the waker with which it was last looked at. -/
def revisit (r : Registry ω) (p : Place) (k : ω) : Outcome (Registry ω) ω Standing :=
  match r.find? p.address with
  | none =>
    { answer := .gone, state := r, notes := [.resumedOnClosed p.address.handle p.ticket] }
  | some c =>
    match (c.line p.side).refresh? p.ticket k with
    | some line => { answer := .queued, state := r.put p.address.handle (c.setLine p.side line) }
    | none =>
      { answer := .called, state := r, notes := [.resumed p.address.handle p.side p.ticket] }

/-- Gives up a place. A wakeup that came and was not acted on goes to the next in the line. -/
def abandon (r : Registry ω) (p : Place) : Outcome (Registry ω) ω Unit :=
  match r.find? p.address with
  | none => { answer := (), state := r }
  | some c =>
    match (c.line p.side).remove? p.ticket with
    | some line => { answer := (), state := r.put p.address.handle (c.setLine p.side line) }
    | none =>
      let woken := c.wakeFirst p.side
      { answer := ()
        state := r.put p.address.handle woken.1
        woken := woken.2
        notes := [.wakeupForwarded] }

end Registry

end MessageBus
