import MessageBus.Operation
import MessageBus.Request

/-!
# Tasks

A task carries out a list of instructions, one after the other, and may suspend in the middle of
one. What it keeps while it is suspended is its `Progress` in the current instruction; most keep
nothing and are simply begun again. Beside that a task owns at most one stream, and it remembers
the channel that it resolved last.

All the places in waiting lines that belong to a task are found in it (`Task.places`): there is at
most one for the current instruction and one for the stream. They stay there until they are given
up, also when the task is over.
-/

namespace MessageBus

/-- Through which waker of which task it is told to go on. Two wakers are the same exactly when
task and tag are. -/
structure Waker where
  task : Nat
  tag : Nat
deriving DecidableEq, Repr

/-- What can be done at any moment, inside a task or from outside. -/
inductive Action where
  | operate (op : Operation)
  /-- Describes the bus in short. -/
  | describe
  /-- Describes the bus in short, as it is while in use. -/
  | describeInUse
  /-- Describes everything that the bus holds. -/
  | dump
  | lastError
  | setLastError (code : ErrorCode)
  /-- Drops a task. -/
  | drop (task : Nat)
deriving DecidableEq, Repr

/-- What a task can be told to do. -/
inductive Deed where
  | act (action : Action)
  | call (c : Call)
  /-- Lets the others go first. -/
  | yield
  /-- Makes a stream of the messages under a handle the task's stream. -/
  | stream (h : Handle)
  /-- Waits for the next item of the stream. -/
  | next
  /-- Looks once for the next item. -/
  | tryNext
  /-- Waits for all items up to the end of the stream. -/
  | collect
  | hasEnded
  | describeStream
  | dropStream
  /-- Remembers which channel is open under a handle. -/
  | resolve (h : Handle)
  /-- Receives from the channel under a handle, if it is the one that is remembered. -/
  | recvFrom (h : Handle)
  /-- Waits in a line of the remembered channel, once, and describes itself as it goes. -/
  | wait (h : Handle) (side : Side)
deriving DecidableEq, Repr

/-- A deed, and the bus on which it is done. -/
structure Instruction where
  bus : Nat
  deed : Deed
deriving DecidableEq, Repr

/-- Receives from one channel, until it is closed. -/
structure Stream where
  bus : Nat
  handle : Handle
  /-- The channel; `none` once the stream has ended. -/
  id : Option ChannelId
  /-- The place of the receive that is in flight, if there is one. -/
  place : Option Place
deriving DecidableEq, Repr

/-- What a task keeps of the instruction that it is in. -/
inductive Progress where
  /-- Nothing: the instruction is begun when the task goes on. -/
  | fresh
  /-- A request, and its place in a line. `recorded` says whether a failure counts as the last
  error. -/
  | calling (bus : Nat) (request : Request) (place : Option Place) (recorded : Bool)
  | yielded
  | collecting (items : List Message)
  /-- A bare wait, with the descriptions made so far. -/
  | waiting (bus : Nat) (place : Place) (before : String) (after : List String)
deriving DecidableEq, Repr

/-- Where a task is in its life. -/
inductive Life where
  | idle
  | running
  /-- Finished or dropped. -/
  | ended
deriving DecidableEq, Repr

/-- A task. -/
structure Task where
  program : List Instruction
  /-- Whether the task ends with the first instruction that is refused. -/
  stopsOnError : Bool
  /-- The index of the current instruction. -/
  position : Nat := 0
  progress : Progress := .fresh
  stream : Option Stream := none
  /-- The identity that was resolved last. -/
  remembered : Option ChannelId := none
  life : Life := .idle
deriving DecidableEq, Repr

namespace Task

/-- The place that the current instruction holds, with its bus. -/
def callPlace (t : Task) : Option (Nat × Place) :=
  match t.progress with
  | .calling bus _ (some p) _ => some (bus, p)
  | .waiting bus p _ _ => some (bus, p)
  | _ => none

/-- The place that the stream holds, with its bus. -/
def streamPlace (t : Task) : Option (Nat × Place) :=
  t.stream.bind fun s => s.place.map (s.bus, ·)

/-- All places that a task holds, in the order in which it gives them up when it is dropped. -/
def places (t : Task) : List (Nat × Place) := t.callPlace.toList ++ t.streamPlace.toList

/-- Whether the task may be made to go on. -/
def isIdle (t : Task) : Bool := t.life = .idle

/-- Whether the task is neither finished nor dropped. -/
def isAlive (t : Task) : Bool := t.life ≠ .ended

/-- Goes on to the next instruction, or to the end after a refusal that stops the task. -/
def advance (t : Task) (reply : Reply) : Task :=
  { t with
    progress := .fresh
    position :=
      match t.stopsOnError, reply with
      | true, .refused _ => t.program.length
      | _, _ => t.position + 1 }

/-- A new task, before its first instruction. -/
def new (program : List Instruction) (stopsOnError : Bool) : Task := { program, stopsOnError }

@[simp] theorem places_new (program : List Instruction) (stopsOnError : Bool) :
    (new program stopsOnError).places = [] := rfl

end Task

end MessageBus
