import MessageBus.Registry.Broadcast
import MessageBus.Reply

/-!
# Operations that never suspend

Everything that can be asked of a bus at any moment, as data, and what each does to the registry.
An operation answers at once: where it would have to wait, it is refused with `wouldBlock`.
-/

namespace MessageBus

/-- Something that is asked of a bus and answered at once. -/
inductive Operation where
  | openChannel (bound : Nat)
  | close (h : Handle)
  | delete
  | isOpen (h : Handle)
  | channelCount
  | size (h : Handle)
  | isEmpty (h : Handle)
  | capacity (h : Handle)
  | waiting (side : Side) (h : Handle)
  | trySend (h : Handle) (m : Message)
  | trySendMany (h : Handle) (ms : List Message)
  | tryRecv (h : Handle)
  | tryRecvMany (h : Handle) (limit : Nat)
  | tryBroadcast (m : Message)
deriving DecidableEq, Repr

namespace Operation

variable {ω : Type}

/-- Carries out an operation as one atomic change. -/
def apply (op : Operation) (r : Registry ω) : Except Fault (Outcome (Registry ω) ω Reply) :=
  match op with
  | .openChannel bound => .ok ((r.openChannel bound).map (.plain <| .number ·))
  | .close h => .ok ((r.close h).map fun _ => .plain .nothing)
  | .delete => .ok (r.delete.map fun _ => .plain .nothing)
  | .isOpen h => look r (.plain (.flag (r.isOpen h)))
  | .channelCount => look r (.plain (.number r.channelCount))
  | .size h => look r (.ofExcept .number (r.inspect h (·.size)))
  | .isEmpty h => look r (.ofExcept .flag (r.inspect h (·.size = 0)))
  | .capacity h => look r (.ofExcept .number (r.inspect h (·.capacity)))
  | .waiting side h => look r (.ofExcept .number (r.inspect h fun c => (c.line side).size))
  | .trySend h m => answer (fun _ => .nothing) (r.onChannel h fun c => .ok (c.trySend m))
  | .trySendMany h ms => answer .number (r.onChannel h fun c => .ok (c.trySendMany ms))
  | .tryRecv h => answer .message (r.onChannel h fun c => .ok c.tryRecv)
  | .tryRecvMany h limit => answer .messages (r.onChannel h fun c => c.tryRecvMany limit)
  | .tryBroadcast m => .ok ((r.tryBroadcast m).map (.ofExcept fun _ => .nothing))
where
  /-- Looking changes nothing. -/
  look (r : Registry ω) (reply : Reply) : Except Fault (Outcome (Registry ω) ω Reply) :=
    .ok { answer := reply, state := r }
  /-- Gives a value its form in replies. -/
  answer {α : Type} (value : α → Value)
      (done : Except Fault (Outcome (Registry ω) ω (Except BusError α))) :
      Except Fault (Outcome (Registry ω) ω Reply) :=
    done.map (·.map (.ofExcept value))

end Operation

end MessageBus
