import MessageBus.Executor.Step
import MessageBus.Telemetry.Report

/-!
# Scripts

A script asks an executor for one thing after another, from outside of its tasks, and writes down
after each what was answered, what happened meanwhile, and how the open channels stand. Between two
requests nothing is going on: each is followed by small steps until nothing is left to do.
-/

namespace MessageBus

/-- What can be asked of an executor from outside. -/
inductive Step where
  | act (bus : Nat) (action : Action)
  | addBus
  /-- Adds a task and makes it ready. -/
  | spawn (program : List Instruction) (stopsOnError : Bool)
  /-- Lets ready tasks go on until none is ready, or so many times. -/
  | run (limit : Option Nat)
  /-- Lets one task go on, ready or not. -/
  | poll (waker : Waker)
  /-- Drops a task while a bus is in use. -/
  | dropInUse (bus task : Nat)
  | report

/-- How an open channel stands. -/
structure ChannelStatus where
  handle : Handle
  size : Nat
  capacity : Nat
  senders : Nat
  receivers : Nat
deriving DecidableEq, Repr

/-- How the open channels of a bus stand, by ascending handle. -/
def Registry.status {ω : Type} (r : Registry ω) : List ChannelStatus :=
  r.entries.map fun (h, c) => ⟨h, c.size, c.capacity, c.senders.size, c.receivers.size⟩

/-- What is written down after one step of a script. -/
structure StepRecord where
  reply : Option Reply
  events : List Event
  lastError : ErrorCode
  /-- For each bus, how its open channels stand. -/
  status : List (List ChannelStatus)

/-- What is written down of a whole script. -/
structure RunRecord where
  steps : List StepRecord
  /-- The counters that a bus keeps, in the order of `CounterKey.ofBus`. -/
  counters : List Nat
  events : List TelemetryEvent

namespace Executor

/-- An executor with one bus on which nothing was opened. -/
def new (inline : Bool) : Executor := { inline, buses := [.empty] }

/-- Takes in a request from outside, before any step is taken on it. -/
def ask (x : Executor) : Step → Executor
  | .act b action => x.act b .outside action
  | .addBus =>
    { x with buses := x.buses ++ [SharedBus.empty] }.respond (.plain (.number x.buses.length))
  | .spawn program stopsOnError =>
    { x with
      tasks := x.tasks ++ [Task.new program stopsOnError]
      ready := x.ready ++ [x.tasks.length] }.respond (.plain (.number x.tasks.length))
  | .run limit => x.push [.drain limit 0]
  | .poll w =>
    if ((x.tasks[w.task]?).map (·.isIdle)).getD false then x.push [.poll w, .verdict w.task]
    else x.respond (.went none)
  | .dropInUse b t =>
    { x with buses := x.buses.modify b ({ · with inUse := true }) }.dropTask t fun dropped =>
      [.release b, .complete .outside (.plain (.flag dropped))]
  | .report => x.respond (.lines x.telemetry.report)

/-- How much there is that can still make a step: instructions with what they carry, channels with
what they hold, ready tasks and frames. -/
def size (x : Executor) : Nat :=
  total (x.tasks.map fun t => 1 + total (t.program.map (weight ·.deed)))
    + total (x.buses.map fun b => b.registry.slots.length +
        total (b.registry.channels.map fun c => c.size + c.senders.size + c.receivers.size))
    + x.ready.length + x.stack.length
where
  /-- The sum of a list. -/
  total (ns : List Nat) : Nat := ns.foldr (· + ·) 0
  /-- An instruction counts for itself and for the messages that it carries. -/
  weight : Deed → Nat
    | .call (.sendMany _ ms) => 1 + ms.length
    | .act (.operate (.trySendMany _ ms)) => 1 + ms.length
    | _ => 1

/-- More small steps than a request of a run needs. -/
def enough (x : Executor) : Nat :=
  let n := 8 * (x.size + 2)
  2048 * n.pow 6

/-- Carries out one step of a script. -/
def carryOut (x : Executor) (s : Step) : Executor :=
  let asked := { x with log := [], answer := none }.ask s
  settle asked.enough asked

/-- What there is to write down now. -/
def stepRecord (x : Executor) : StepRecord :=
  ⟨x.answer, x.log.reverse, x.lastError, x.buses.map (·.registry.status)⟩

/-- Carries out a script: the executor at its end, and what was written down after each step. -/
def runScript (x : Executor) : List Step → Executor × List StepRecord
  | [] => (x, [])
  | s :: rest =>
    let x := x.carryOut s
    let later := x.runScript rest
    (later.1, x.stepRecord :: later.2)

end Executor

/-- Carries out a script on a new executor. -/
def Script.run (inline : Bool) (script : List Step) : RunRecord :=
  let (x, steps) := (Executor.new inline).runScript script
  { steps
    counters := CounterKey.ofBus.map x.telemetry.counter
    events := x.telemetry.events }

end MessageBus
