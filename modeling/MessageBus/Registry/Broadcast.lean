import MessageBus.Registry

/-!
# Broadcasts

A broadcast puts one message into every open channel, in one step, or into none. There are two
rules for when it may: `tryBroadcast` asks for a free slot everywhere, while `attemptBroadcast`,
for a caller that is able to wait, is also content with a receiver that waits on an empty channel.
When the second may not go ahead, it names the first channel in its way, on which its caller can
wait.
-/

namespace MessageBus.Registry

variable {ω : Type}

/-- Puts a message into every open channel, by ascending handle. -/
def commitAll (r : Registry ω) (m : Message) (cascade : Bool) : Outcome (Registry ω) ω Unit :=
  let sent := r.slots.map (·.map (·.commit m cascade))
  { answer := ()
    state := { r with slots := sent.map (·.map (·.1)) }
    woken := sent.flatMap fun slot => (slot.map (·.2)).getD [] }

/-- Broadcasts a message if every open channel has a free slot. -/
def tryBroadcast (r : Registry ω) (m : Message) : Outcome (Registry ω) ω (Except BusError Unit) :=
  if r.channels.isEmpty then { answer := .error .noSuchChannel, state := r }
  else if r.channels.all (·.hasSpace) then (r.commitAll m false).map .ok
  else { answer := .error .wouldBlock, state := r }

/-- The open channel with the lowest handle that does not accept a broadcast. -/
def blocker? (r : Registry ω) : Option Address :=
  (r.entries.find? fun (_, c) => !c.acceptsBroadcast).map fun (h, c) => ⟨h, c.id⟩

/-- Broadcasts a message if every open channel accepts it. The answer is the channel in the way,
if there is one. -/
def attemptBroadcast (r : Registry ω) (m : Message) :
    Outcome (Registry ω) ω (Except BusError (Option Address)) :=
  if r.channels.isEmpty then { answer := .error .noSuchChannel, state := r }
  else
    match r.blocker? with
    | some a => { answer := .ok (some a), state := r }
    | none => (r.commitAll m true).map fun _ => .ok none

end MessageBus.Registry
