import MessageBus.Description
import MessageBus.Task

/-!
# The executor

Tasks share one thread. The executor keeps the buses, the tasks, and a list of the tasks that are
ready to go on, in the order in which they were woken. What is still to be done is a stack of
`Frame`s, the next on top; carrying out one frame is one small step, and there is no other
recursion. A task that is made to go on from within a wakeup thus lies on top of whatever was going
on, and everything below waits.

An atomic operation on a bus takes it into use, and a frame on top of the stack gives it free
again. The frames that call the wakers lie under that one. So no waker runs while its bus is in
use, and whoever enters a bus that is in use commits a fault.

A fault breaks off what is going on (`Executor.fail`). What was still to be done is not done, but
whatever was begun is cleared away, from the top of the stack down: the tasks that were about to
give up their places do so, every task that was in the middle of a turn ends there and gives up
its own, and the buses in use are given free. The wakeups that this passes on are delivered, and
whoever they reach goes on as ever.
-/

namespace MessageBus

/-- A bus, and whether an operation on it is going on. -/
structure SharedBus where
  registry : Registry Waker := {}
  inUse : Bool := false
deriving Repr

/-- A bus on which nothing was opened, and nothing goes on. -/
def SharedBus.empty : SharedBus := {}

/-- Something that was seen to happen. -/
inductive Event where
  /-- A task is about to go on. -/
  | polled (task : Nat)
  /-- A task was suspended. -/
  | pending (task : Nat)
  /-- A task came to its end. -/
  | done (task : Nat)
  /-- The instruction of this index ended. -/
  | completed (task index : Nat) (reply : Reply)
  | woken (waker : Waker)
  | traced (trace : Trace)

/-- Who asked for an action. -/
inductive Caller where
  | outside
  | task (waker : Waker)
deriving DecidableEq, Repr

/-- Something that is still to be done. -/
inductive Frame where
  /-- An operation on a bus is over. -/
  | release (bus : Nat)
  /-- Wakers are to be called, in order. -/
  | wake (wakers : List Waker)
  | tell (notes : List Note)
  /-- A task is to be made to go on, if it is idle. -/
  | poll (waker : Waker)
  /-- A task that is running goes on with its instruction. -/
  | proceed (waker : Waker)
  /-- A task is to be suspended. -/
  | suspend (task : Nat)
  /-- An action or instruction ended with this reply. -/
  | complete (caller : Caller) (reply : Reply)
  /-- The stream of the task gave an item, or its end. -/
  | receive (waker : Waker) (item : Option Message)
  /-- A new stream takes the place of the task's old one. -/
  | adopt (waker : Waker) (stream : Stream)
  /-- A bare wait describes itself. -/
  | observe (task : Nat)
  /-- A bare wait is over. -/
  | conclude (waker : Waker) (before : String) (after : List String) (bus : Nat) (address : Address)
      (side : Side) (result : Except BusError Unit)
  /-- A task has no stream any more and ends. -/
  | finish (task : Nat)
  /-- A task that is over gives up its places. -/
  | vacate (task : Nat)
  /-- The turn of a task is over. If the task is still running, a fault broke the turn off. -/
  | leave (task : Nat)
  /-- Ready tasks are made to go on, at most `limit` of them; `polled` already were. -/
  | drain (limit : Option Nat) (polled : Nat)
  /-- A task that was made to go on from outside is looked at. -/
  | verdict (task : Nat)

/-- Whether a frame is carried out even if a fault was committed above it: it clears away what was
begun. -/
def Frame.clearsAway : Frame → Bool
  | .release _ => true
  | .vacate _ => true
  | .leave _ => true
  | _ => false

/-- Everything that tasks and buses consist of at one moment. -/
structure Executor where
  /-- Whether a waker makes its task go on at once, within the wakeup. -/
  inline : Bool := false
  buses : List SharedBus := []
  tasks : List Task := []
  /-- The tasks that are ready to go on, without repetition. -/
  ready : List Nat := []
  lastError : ErrorCode := .none
  telemetry : Telemetry := .empty
  /-- What happened, the latest first. -/
  log : List Event := []
  stack : List Frame := []
  /-- The answer to what was asked from outside. The first one given stands. -/
  answer : Option Reply := none

namespace Executor

variable {α : Type}

/-- Puts frames on the stack, the first on top. -/
def push (x : Executor) (frames : List Frame) : Executor := { x with stack := frames ++ x.stack }

/-- Records that something happened. -/
def happen (x : Executor) (e : Event) : Executor := { x with log := e :: x.log }

/-- Answers what was asked from outside. -/
def respond (x : Executor) (reply : Reply) : Executor :=
  { x with answer := x.answer.orElse fun _ => some reply }

/-- Changes one task. -/
def modifyTask (x : Executor) (t : Nat) (f : Task → Task) : Executor :=
  { x with tasks := x.tasks.modify t f }

/-- Remembers the error of a public operation that was refused. -/
def record (x : Executor) (reply : Reply) : Executor :=
  { x with lastError := x.lastError.afterReply reply }

/-- Tells the observers one note. -/
def tellOne (x : Executor) (n : Note) : Executor :=
  let x := { x with telemetry := x.telemetry.note n }
  match n.trace with
  | none => x
  | some trace => x.happen (.traced trace)

/-- Tells the observers notes, in order. -/
def tell (x : Executor) (notes : List Note) : Executor := notes.foldl tellOne x

/-- Breaks off what was going on for a fault, which becomes the answer. What was begun is still
cleared away. -/
def fail (x : Executor) (f : Fault) : Executor :=
  { x with stack := x.stack.filter (·.clearsAway) }.respond (.fault f)

@[simp] theorem buses_fail (x : Executor) (f : Fault) : (x.fail f).buses = x.buses := rfl

@[simp] theorem tasks_fail (x : Executor) (f : Fault) : (x.fail f).tasks = x.tasks := rfl

/-- Whether a fault was committed since something was last asked from outside. -/
def hasFailed (x : Executor) : Bool :=
  match x.answer with
  | some (.fault _) => true
  | _ => false

/-- Whether an operation on a bus is going on. -/
def isInUse (x : Executor) (b : Nat) : Bool := ((x.buses[b]?).map (·.inUse)).getD false

/-- Carries out an atomic operation on a bus. `next` says how to go on from the answer; before
that, the bus is given free, the wakers are called and the last notes are told. -/
def access (x : Executor) (b : Nat)
    (f : Registry Waker → Except Fault (Outcome (Registry Waker) Waker α))
    (next : α → Executor → Executor) : Executor :=
  match x.buses[b]? with
  | none => x.fail .noSuchBus
  | some bus =>
    if bus.inUse then x.fail .entered
    else
      match f bus.registry with
      | .error fault => x.fail fault
      | .ok o =>
        let entered := { x with buses := x.buses.set b ⟨o.state, true⟩ }
        (next o.answer (entered.tell o.notes)).push
          [.release b, .wake o.woken, .tell o.afterwards]

/-- Gives up a place, as `forget` lets its owner do. While its bus is in use a place cannot be given
up: it stays in its line without an owner, and that is a fault, unless it comes of another one. -/
def giveUp (x : Executor) (b : Nat) (p : Place) (forget : Executor → Executor) : Executor :=
  if x.isInUse b then
    if x.hasFailed then forget x else (forget x).fail .droppedInUse
  else x.access b (fun r => .ok (r.abandon p)) fun _ x => forget x

/-- The short description of a bus. -/
def summary (x : Executor) (b : Nat) : String :=
  match x.buses[b]? with
  | none => (Registry.empty : Registry Waker).summary false
  | some bus => bus.registry.summary bus.inUse

/-- The description of everything on a bus. -/
def dump (x : Executor) (b : Nat) : String :=
  match x.buses[b]? with
  | none => (Registry.empty : Registry Waker).describe
  | some bus => bus.registry.describe

/-- Drops a task from outside of its own run: it is over, and gives up its places. -/
def dropTask (x : Executor) (t : Nat) (andThen : Bool → List Frame) : Executor :=
  match x.tasks[t]? with
  | none => x.push (andThen false)
  | some task =>
    if task.isIdle then
      (x.modifyTask t ({ · with life := .ended })).push (.vacate t :: andThen true)
    else x.push (andThen false)

/-- Carries out an action for a caller. -/
def act (x : Executor) (b : Nat) (caller : Caller) : Action → Executor
  | .operate op => x.access b op.apply fun reply x => (x.record reply).push [.complete caller reply]
  | .describe => x.push [.complete caller (.text (x.summary b))]
  | .describeInUse =>
    x.push [.complete caller (.text ((Registry.empty : Registry Waker).summary true))]
  | .dump => x.push [.complete caller (.text (x.dump b))]
  | .lastError => x.push [.complete caller (.code x.lastError)]
  | .setLastError code =>
    { x with lastError := code }.push [.complete caller (.plain .nothing)]
  | .drop t => x.dropTask t fun dropped => [.complete caller (.plain (.flag dropped))]

end Executor

end MessageBus
