import MessageBus.WaitLine.Command

/-!
# Commands to a channel

The operations on one channel as data, down to those on its two lines. The wakers that a command
hands out are owed until they are flushed. A channel that was closed answers nothing any more, but
what it owes can still be flushed.
-/

namespace MessageBus.Channel

/-- An operation on a channel. -/
inductive Command (ω : Type) where
  | trySend (m : Message)
  | sendStep (m : Message)
  | tryRecv
  | trySendMany (ms : List Message)
  | tryRecvMany (limit : Nat)
  | passOnLeftovers
  | acceptsBroadcast
  | receiverParked
  | commit (m : Message) (cascade : Bool)
  | describe
  | close
  /-- Hands over the wakers that are owed. -/
  | flush
  | line (side : Side) (c : WaitLine.Command ω)

/-- What a channel answers. -/
inductive Answer (ω : Type) where
  | nothing
  | flag (b : Bool)
  | number (n : Nat)
  | text (s : String)
  | sent (result : Except BusError Unit)
  | received (result : Except BusError Message)
  | sentMany (result : Except BusError Nat)
  | receivedMany (result : Except BusError (List Message))
  | line (a : WaitLine.Answer ω)
  | wakers (ks : List ω)
  | fault (f : Fault)
  /-- The channel is closed. -/
  | closed

/-- A channel, until it is closed, and the wakers that it has handed out. -/
structure Account (ω : Type) where
  channel : Option (Channel ω)
  owed : List ω := []

variable {ω : Type} {α : Type}

/-- Carries out a command on a channel that is open. -/
def Command.runOpen (c : Channel ω) (owed : List ω) : Command ω → Answer ω × Account ω
  | .trySend m => settle .sent (c.trySend m)
  | .sendStep m => settle .flag (c.sendStep m)
  | .tryRecv => settle .received c.tryRecv
  | .trySendMany ms => settle .sentMany (c.trySendMany ms)
  | .tryRecvMany limit =>
    match c.tryRecvMany limit with
    | .error f => (.fault f, ⟨some c, owed⟩)
    | .ok taken => settle .receivedMany taken
  | .passOnLeftovers => change c.passOnLeftovers
  | .acceptsBroadcast => (.flag c.acceptsBroadcast, ⟨some c, owed⟩)
  | .receiverParked => change c.receiverParked
  | .commit m cascade => change (c.commit m cascade)
  | .describe => (.text (MessageBus.Channel.describe c), ⟨some c, owed⟩)
  | .close => (.number c.close.length, ⟨none, owed ++ c.close⟩)
  | .flush => (.wakers owed, ⟨some c, []⟩)
  | .line side command =>
    let ran := command.run ⟨c.line side, owed⟩
    (.line ran.1, ⟨some (c.setLine side ran.2.line), ran.2.owed⟩)
where
  /-- Keeps what an operation left. -/
  settle {α : Type} (answer : α → Answer ω) (o : Outcome (Channel ω) ω α) :
      Answer ω × Account ω :=
    (answer o.answer, ⟨some o.state, owed ++ o.woken⟩)
  /-- Keeps what a change without an answer left. -/
  change (changed : Channel ω × List ω) : Answer ω × Account ω :=
    (.nothing, ⟨some changed.1, owed ++ changed.2⟩)

/-- Carries out a command. -/
def Command.run (s : Account ω) (command : Command ω) : Answer ω × Account ω :=
  match s.channel, command with
  | some c, command => command.runOpen c s.owed
  | none, .close => (.nothing, s)
  | none, .flush => (.wakers s.owed, { s with owed := [] })
  | none, _ => (.closed, s)

end MessageBus.Channel
