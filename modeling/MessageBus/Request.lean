import MessageBus.Registry.Broadcast
import MessageBus.Registry.Waiting
import MessageBus.Reply

/-!
# Requests that may wait

A `Call` is what a task asks for; a `Request` is the same with the handle resolved to an address,
so that the request stays with the channel it began with. A broadcast has no address: each time it
looks at the channels that are open then.

A request is pursued in one atomic change: it is attempted, and if it cannot go ahead, it takes a
place on the channel that is in its way (`pursue`). When it is looked at later, it goes on only if
its place was called or its channel is gone (`advance`). The callers that wait for a channel fail
with it, while a broadcast starts over without that channel.
-/

namespace MessageBus

/-- What a task asks of a bus. -/
inductive Call where
  | send (h : Handle) (m : Message)
  | sendMany (h : Handle) (ms : List Message)
  | recv (h : Handle)
  | recvMany (h : Handle) (limit : Nat)
  | broadcast (m : Message)
deriving DecidableEq, Repr

/-- A call that knows its channel. -/
inductive Request where
  | send (a : Address) (m : Message)
  | sendMany (a : Address) (ms : List Message)
  | recv (a : Address)
  | recvMany (a : Address) (limit : Nat)
  | broadcast (m : Message)
deriving DecidableEq, Repr

/-- How an attempt at a request ended. -/
inductive Attempt where
  | finished (result : Except BusError Value)
  /-- It cannot go ahead before something happens on this side of this channel. -/
  | blocked (a : Address) (side : Side)

/-- How a request stands after it was looked at. -/
inductive Turn where
  | finished (result : Except BusError Value)
  /-- It took a place. -/
  | parked (q : Request) (p : Place)
  /-- It keeps the place it has. -/
  | waiting
  /-- It is to be attempted again at once. -/
  | again (q : Request)

/-- An attempt that was refused for want of space or messages can be waited for. -/
def Attempt.ofResult (a : Address) (side : Side) : Except BusError Value → Attempt
  | .error .wouldBlock => .blocked a side
  | result => .finished result

/-- The request that a call makes of the channels open now. -/
def Call.resolve {ω : Type} (r : Registry ω) : Call → Except BusError Request
  | .send h m => (r.resolve h).map (.send · m)
  | .sendMany h ms => (r.resolve h).map (.sendMany · ms)
  | .recv h => (r.resolve h).map .recv
  | .recvMany h limit => (r.resolve h).map (.recvMany · limit)
  | .broadcast m => .ok (.broadcast m)

namespace Request

variable {ω : Type}

/-- Carries out a request, if it can go ahead now. -/
def attempt (r : Registry ω) : Request → Except Fault (Outcome (Registry ω) ω Attempt)
  | .send a m =>
    (r.onAddress a fun c => .ok ((c.sendStep m).map Except.ok)).map <| Outcome.map fun
      | .ok true => .finished (.ok .nothing)
      | .ok false => .blocked a .senders
      | .error e => .finished (.error e)
  | .sendMany a ms =>
    (r.onAddress a fun c => .ok (c.trySendMany ms)).map <| Outcome.map fun sent =>
      .ofResult a .senders (sent.map .number)
  | .recv a =>
    (r.onAddress a fun c => .ok c.tryRecv).map <| Outcome.map fun taken =>
      .ofResult a .receivers (taken.map .message)
  | .recvMany a limit =>
    (r.onAddress a fun c => c.recvManyStep limit).map <| Outcome.map fun taken =>
      .ofResult a .receivers (taken.map .messages)
  | .broadcast m =>
    .ok <| (r.attemptBroadcast m).map fun
      | .ok none => .finished (.ok .nothing)
      | .ok (some a) => .blocked a .senders
      | .error e => .finished (.error e)

/-- What becomes of a request whose channel is gone: it fails, but a broadcast goes on with the
channels that are left. -/
def onGone (r : Registry ω) : Request → Outcome (Registry ω) ω Turn
  | .broadcast m => { answer := .again (.broadcast m), state := r, notes := [.blockerClosed] }
  | _ => { answer := .finished (.error .noSuchChannel), state := r }

/-- Attempts a request, and takes a place for it if it cannot go ahead. -/
def pursue (q : Request) (r : Registry ω) (k : ω) :
    Except Fault (Outcome (Registry ω) ω Turn) := do
  let tried ← q.attempt r
  tried.andThen fun
    | .finished result, r => .ok { answer := .finished result, state := r }
    | .blocked a side, r => do
      let parked ← r.park a side k
      parked.andThen fun
        | some p, r => .ok { answer := .parked q p, state := r }
        | none, r => .ok (q.onGone r)

/-- Looks at a request that took a place before. -/
def advance (q : Request) (r : Registry ω) (p : Place) (k : ω) :
    Except Fault (Outcome (Registry ω) ω Turn) :=
  (r.revisit p k).andThen fun
    | .queued, r => .ok { answer := .waiting, state := r }
    | .called, r => q.pursue r k
    | .gone, r =>
      (q.onGone r).andThen fun
        | .again q, r => q.pursue r k
        | turn, r => .ok { answer := turn, state := r }

end Request

/-- Begins a call: resolves it and pursues the request. -/
def Call.start {ω : Type} (call : Call) (r : Registry ω) (k : ω) :
    Except Fault (Outcome (Registry ω) ω Turn) :=
  match call.resolve r with
  | .error e => .ok { answer := .finished (.error e), state := r }
  | .ok q => q.pursue r k

end MessageBus
