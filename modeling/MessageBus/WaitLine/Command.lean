import MessageBus.Description

/-!
# Commands to a waiting line

The operations on a waiting line as data. The wakers that a command hands out are owed until they
are flushed, in the order in which they were handed out. A command that commits a fault changes
nothing.
-/

namespace MessageBus.WaitLine

/-- An operation on a waiting line. -/
inductive Command (ω : Type) where
  | push (t : Ticket) (k : ω)
  | refresh (t : Ticket) (k : ω)
  | remove (t : Ticket)
  | contains (t : Ticket)
  | wakeFirst
  | wakeAll
  | describe
  | describeOwed
  /-- Hands over the wakers that are owed. -/
  | flush

/-- What a waiting line answers. -/
inductive Answer (ω : Type) where
  | nothing
  | flag (b : Bool)
  | number (n : Nat)
  | text (s : String)
  | wakers (ks : List ω)
  | fault (f : Fault)

/-- A waiting line, and the wakers that it has handed out. -/
structure Account (ω : Type) where
  line : WaitLine ω := .empty
  owed : List ω := []

variable {ω : Type}

/-- Carries out a command. -/
def Command.run (s : Account ω) : Command ω → Answer ω × Account ω
  | .push t k =>
    match s.line.push t k with
    | .error f => (.fault f, s)
    | .ok line => (.nothing, { s with line })
  | .refresh t k =>
    match s.line.refresh? t k with
    | none => (.flag false, s)
    | some line => (.flag true, { s with line })
  | .remove t =>
    match s.line.remove? t with
    | none => (.flag false, s)
    | some line => (.flag true, { s with line })
  | .contains t => (.flag (s.line.contains t), s)
  | .wakeFirst =>
    let woken := s.line.wakeFirst
    (.flag woken.2.isSome, ⟨woken.1, s.owed ++ woken.2.toList⟩)
  | .wakeAll =>
    let woken := s.line.wakeAll
    (.number woken.2.length, ⟨woken.1, s.owed ++ woken.2⟩)
  | .describe => (.text s.line.describe, s)
  | .describeOwed => (.text (MessageBus.describeOwed s.owed), s)
  | .flush => (.wakers s.owed, { s with owed := [] })

end MessageBus.WaitLine
