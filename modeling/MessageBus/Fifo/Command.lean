import MessageBus.Fifo

/-!
# Commands to a queue

The operations on a queue as data, so that a sequence of them is a list. A command that commits a
fault leaves the queue as it was.
-/

namespace MessageBus.Fifo

/-- An operation on a queue. -/
inductive Command (α : Type) where
  | push (a : α)
  | pushMany (as : List α)
  | pop
  | popMany (n : Nat)

/-- What a queue answers. -/
inductive Answer (α : Type) where
  | nothing
  | item (a : Option α)
  | items (as : List α)
  | fault (f : Fault)

variable {α : Type}

/-- Carries out a command. -/
def Command.run (q : Fifo α) : Command α → Answer α × Fifo α
  | .push a => (.nothing, q.push a)
  | .pushMany as => (.nothing, q.pushMany as)
  | .pop =>
    match q.pop? with
    | none => (.item none, q)
    | some (a, rest) => (.item (some a), rest)
  | .popMany n =>
    match q.popMany n with
    | .error f => (.fault f, q)
    | .ok (as, rest) => (.items as, rest)

end MessageBus.Fifo
