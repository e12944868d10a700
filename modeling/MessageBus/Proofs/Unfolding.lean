import MessageBus.Proofs.Errands
import MessageBus.Proofs.Requests

/-!
# What a step can do

There are three kinds of small steps. Most do something to one task at most and put frames on the
stack, without entering a bus (`Quiet`). Some enter a bus on an errand, and go on from what it came
to (`Sequel`). The rest give a bus free, call a waker, or take a task off the ready list. This holds
of every executor, sound or not: if an errand fails, what was going on is broken off.

`Executor.Unfolds` is the list of what a step can do. Which errand a step is on can be told
beforehand (`Executor.errand?`).
-/

namespace MessageBus

/-! ### Errands of a task -/

/-- The errand on which a stream looks for its next item. -/
def Stream.errand? (w : Waker) (s : Stream) : Option (Nat × Errand Waker) :=
  s.id.map fun id => (s.bus, .look (.recv ⟨s.handle, id⟩) s.place w)

namespace Task

/-- The errand on which a task gives up the place of its stream. -/
def streamErrand? (task : Task) : Option (Nat × Errand Waker) :=
  task.streamPlace.map fun held => (held.1, .abandon held.2)

/-- The errand on which a task that is over gives up the first of its places. -/
def placeErrand? (task : Task) : Option (Nat × Errand Waker) :=
  task.places.head?.map fun held => (held.1, .abandon held.2)

end Task

namespace Executor

/-- The errand on which a task begins an instruction. -/
def startErrand? (x : Executor) (w : Waker) (task : Task) (i : Instruction) :
    Option (Nat × Errand Waker) :=
  match i.deed with
  | .act (.operate op) => some (i.bus, .operate op)
  | .call c =>
    match c.resolve (x.registry i.bus) with
    | .ok q => some (i.bus, .look q none w)
    | .error _ => some (i.bus, .glance)
  | .stream _ => some (i.bus, .glance)
  | .resolve _ => some (i.bus, .glance)
  | .next => task.stream.bind (·.errand? w)
  | .tryNext => task.stream.bind (·.errand? w)
  | .collect => task.stream.bind (·.errand? w)
  | .dropStream => task.streamErrand?
  | .recvFrom h => task.remembered.map fun id => (i.bus, .look (.recv ⟨h, id⟩) none w)
  | .wait h side => task.remembered.map fun id => (i.bus, .park ⟨h, id⟩ side w)
  | _ => none

/-- The errand on which a task goes on with its instruction. -/
def taskErrand? (x : Executor) (w : Waker) (task : Task) : Option (Nat × Errand Waker) :=
  match task.progress with
  | .fresh =>
    match task.current? with
    | none => task.streamErrand?
    | some i => x.startErrand? w task i
  | .calling b q prior _ => some (b, .look q prior w)
  | .yielded => none
  | .collecting _ => task.stream.bind (·.errand? w)
  | .waiting b p _ _ => some (b, .revisit p w)

/-- The bus that the next step enters, and on what errand. -/
def errand? (x : Executor) : Option (Nat × Errand Waker) :=
  match x.stack with
  | .proceed w :: _ => (x.tasks[w.task]?).bind (x.taskErrand? w)
  | .adopt w _ :: _ => (x.tasks[w.task]?).bind (·.streamErrand?)
  | .vacate t :: _ => (x.tasks[t]?).bind (·.placeErrand?)
  | _ => none

/-- What an errand leaves behind, if the bus is there, is free, and no fault is committed. -/
def carried (x : Executor) (b : Nat) (e : Errand Waker) :
    Option (Outcome (Registry Waker) Waker Upshot) :=
  (x.buses[b]?).bind fun bus => if bus.inUse then none else (e.effect bus.registry).toOption

/-! ### The parts of a step -/

/-- The wakers that were called, by what was seen to happen. -/
def wokenIn (log : List Event) : List Waker :=
  log.filterMap fun
    | .woken w => some w
    | _ => none

/-- Another state of an executor, with these buses, tasks and frames. No waker was called, and the
ready list stayed as it is. -/
structure Leads (x y : Executor) (buses : List SharedBus) (tasks : List Task)
    (stack : List Frame) : Prop where
  buses : y.buses = buses
  tasks : y.tasks = tasks
  stack : y.stack = stack
  ready : y.ready = x.ready
  inline : y.inline = x.inline
  calls : wokenIn y.log = wokenIn x.log

/-- A request that a task looks at next: the one that it is at, or one that it begins. -/
inductive Pursues (x : Executor) (task : Task) (b : Nat) :
    Request → Option Place → Bool → Prop where
  | calling {q prior recorded} (progress : task.progress = .calling b q prior recorded) :
    Pursues x task b q prior recorded
  | call {c q} (progress : task.progress = .fresh) (current : task.current? = some ⟨b, .call c⟩)
      (resolved : c.resolve (x.registry b) = .ok q) : Pursues x task b q none true
  | recvFrom {h id} (progress : task.progress = .fresh)
      (current : task.current? = some ⟨b, .recvFrom h⟩) (remembered : task.remembered = some id) :
    Pursues x task b (.recv ⟨h, id⟩) none false

end Executor

namespace Task

/-- Whether a task that goes on looks for the next item of its stream. -/
def IsAtStream (task : Task) : Prop :=
  task.progress = .fresh ∧ task.looksAtStream = true ∨ ∃ items, task.progress = .collecting items

/-- Whether a task that goes on lets the others go first. -/
def yields (task : Task) : Bool :=
  task.progress = .fresh && task.current?.map (·.deed) = some .yield

/-- Whether a task that goes on may come to a reply without entering a bus: it yielded, or it looks
for a stream that it does not have, or its instruction is about something else. -/
def IsPrompt (task : Task) : Prop :=
  task.progress = .yielded ∨ task.stream = none ∧ task.IsAtStream ∨
    task.progress = .fresh ∧ task.looksAtStream = false ∧ task.yields = false ∧
      ∃ i, task.current? = some i

end Task

namespace Frame

/-- Whether there is nothing to do for a frame but to take it off. -/
def IsIdle (tasks : List Task) : Frame → Prop
  | .release _ => False
  | .wake wakers => wakers = []
  | .poll w => ∀ task, tasks[w.task]? = some task → task.life ≠ .idle
  | .proceed w => tasks[w.task]? = none
  | .suspend _ => False
  | .complete (.task w) _ => tasks[w.task]? = none
  | .receive w _ => tasks[w.task]? = none
  | .adopt _ _ => False
  | .conclude _ _ _ _ _ _ _ => False
  | .finish _ => False
  | .vacate t => ∀ task, tasks[t]? = some task → task.places = []
  | .leave t => ∀ task, tasks[t]? = some task → task.life ≠ .running
  | _ => True

/-- Whether a frame may lead to a reply without entering a bus. -/
def IsPrompt (tasks : List Task) : Frame → Prop
  | .proceed w => ∃ task, tasks[w.task]? = some task ∧ task.callPlace = none ∧ task.IsPrompt
  | .receive _ _ => True
  | .conclude _ _ _ _ _ _ _ => True
  | _ => False

/-- Whether a frame may come next after a place was given up, or could not be. -/
def IsFinal : Frame → Prop
  | .complete _ _ => True
  | .finish _ => True
  | .vacate _ => True
  | _ => False

end Frame

namespace Executor

/-- A task is to get another stream, or none, and goes on with a frame. -/
inductive Replaces (x : Executor) : Frame → Nat → Option Stream → Frame → Prop where
  | ends {w task} (found : x.tasks[w.task]? = some task) (progress : task.progress = .fresh)
      (ended : task.current? = none) : Replaces x (.proceed w) w.task none (.finish w.task)
  | drops {w task b} (found : x.tasks[w.task]? = some task) (progress : task.progress = .fresh)
      (current : task.current? = some ⟨b, .dropStream⟩) :
    Replaces x (.proceed w) w.task none
      (.complete (.task w) (.plain (.flag task.stream.isSome)))
  | adopts {w s} :
    Replaces x (.adopt w s) w.task (some s) (.complete (.task w) (.plain .nothing))

/-- A place is to be given up, and what becomes of its task. -/
inductive Forgets (x : Executor) :
    Frame → Nat → Place → Nat → (Task → Task) → List Frame → Prop where
  | stream {f t stream next task b p} (replaces : Replaces x f t stream next)
      (found : x.tasks[t]? = some task) (holds : task.streamPlace = some (b, p)) :
    Forgets x f b p t ({ · with stream }) [next]
  | place {t task b p later} (found : x.tasks[t]? = some task)
      (places : task.places = (b, p) :: later) :
    Forgets x (.vacate t) b p t (·.giveUpPlace) [.vacate t]

/-- What is done for a frame without entering a bus: which task changes, and how, and what is put on
the stack. -/
inductive Quiet (x : Executor) : Frame → Nat → (Task → Task) → List Frame → Prop where
  | passes {f} (idle : f.IsIdle x.tasks) : Quiet x f 0 id []
  | begins {w task} (found : x.tasks[w.task]? = some task) (idle : task.life = .idle) :
    Quiet x (.poll w) w.task ({ · with life := .running }) [.proceed w, .leave w.task]
  | breaksOff {t task} (found : x.tasks[t]? = some task) (running : task.life = .running) :
    Quiet x (.leave t) t (·.breakOff) [.vacate t]
  | observes {t task b p before after after'} (found : x.tasks[t]? = some task)
      (progress : task.progress = .waiting b p before after) :
    Quiet x (.observe t) t ({ · with progress := .waiting b p before after' }) []
  | suspends {t} : Quiet x (.suspend t) t ({ · with life := .idle }) []
  | finishes {t} : Quiet x (.finish t) t ({ · with life := .ended }) []
  | completes {w reply task} (found : x.tasks[w.task]? = some task) :
    Quiet x (.complete (.task w) reply) w.task (·.advance reply) [.proceed w]
  | collects {w m task b items} (found : x.tasks[w.task]? = some task)
      (current : task.current? = some ⟨b, .collect⟩) :
    Quiet x (.receive w (some m)) w.task ({ · with progress := .collecting items }) [.proceed w]
  | replies {f w reply} (own : f.turn? = some w.task) (prompt : f.IsPrompt x.tasks) :
    Quiet x f w.task id [.complete (.task w) reply]
  | yields {w task b} (found : x.tasks[w.task]? = some task) (progress : task.progress = .fresh)
      (current : task.current? = some ⟨b, .yield⟩) :
    Quiet x (.proceed w) w.task ({ · with progress := .yielded }) [.wake [w], .suspend w.task]
  | streamEnds {w task s} (found : x.tasks[w.task]? = some task) (atStream : task.IsAtStream)
      (stream : task.stream = some s) (ended : s.id = none) :
    Quiet x (.proceed w) w.task id [.receive w none]
  | drops {w task b t other reply} (found : x.tasks[w.task]? = some task)
      (progress : task.progress = .fresh) (current : task.current? = some ⟨b, .act (.drop t)⟩)
      (found' : x.tasks[t]? = some other) (idle : other.life = .idle) :
    Quiet x (.proceed w) t ({ · with life := .ended }) [.vacate t, .complete (.task w) reply]
  | replaces {f t stream next} (replaces : Replaces x f t stream next)
      (free : (x.tasks[t]?).bind (·.streamPlace) = none) :
    Quiet x f t ({ · with stream }) [next]

/-- How a step goes on from an errand on a bus that left an outcome: which task changes, and how,
and what is put on the stack below the frames that end the access. -/
inductive Sequel (x : Executor) : Frame → Nat → Errand Waker →
    Outcome (Registry Waker) Waker Upshot → Nat → (Task → Task) → List Frame → Prop where
  | operates {w task b op} {o : Outcome (Registry Waker) Waker Reply}
      (found : x.tasks[w.task]? = some task) (progress : task.progress = .fresh)
      (current : task.current? = some ⟨b, .act (.operate op)⟩)
      (ran : op.apply (x.registry b) = .ok o) :
    Sequel x (.proceed w) b (.operate op)
      (o.map ({ transfers := op.transfers (x.registry b) · })) w.task id
      [.complete (.task w) o.answer]
  | looks {w task b q prior recorded} {p : Outcome (Registry Waker) Waker Turn}
      (found : x.tasks[w.task]? = some task) (pursues : x.Pursues task b q prior recorded)
      (ran : q.look (x.registry b) prior w = .ok p) :
    Sequel x (.proceed w) b (.look q prior w) (p.map (·.upshot (x.registry b) q prior)) w.task
      (p.answer.leaves b recorded) [p.answer.frame w]
  | looksAtStream {w task s id} {p : Outcome (Registry Waker) Waker Turn}
      (found : x.tasks[w.task]? = some task) (atStream : task.IsAtStream)
      (stream : task.stream = some s) (known : s.id = some id)
      (ran : (Request.recv ⟨s.handle, id⟩).look (x.registry s.bus) s.place w = .ok p) :
    Sequel x (.proceed w) s.bus (.look (.recv ⟨s.handle, id⟩) s.place w)
      (p.map (·.upshot (x.registry s.bus) (.recv ⟨s.handle, id⟩) s.place)) w.task
      (p.answer.leavesStream s) [p.answer.streamFrame w (task.ifPending w)]
  | fails {w task b c o e} (found : x.tasks[w.task]? = some task)
      (progress : task.progress = .fresh) (current : task.current? = some ⟨b, .call c⟩)
      (unresolved : c.resolve (x.registry b) = .error e) :
    Sequel x (.proceed w) b .glance o w.task ({ · with progress := .fresh })
      [.complete (.task w) (.refused e)]
  | resolvesStream {w task b h o} (found : x.tasks[w.task]? = some task)
      (progress : task.progress = .fresh) (current : task.current? = some ⟨b, .stream h⟩) :
    Sequel x (.proceed w) b .glance o w.task id
      [.adopt w ⟨b, h, ((x.registry b).resolve h).toOption.map (·.id), none⟩]
  | resolves {w task b h o change reply} (found : x.tasks[w.task]? = some task)
      (progress : task.progress = .fresh) (current : task.current? = some ⟨b, .resolve h⟩)
      (remembers : ∀ task : Task, ∃ remembered, change task = { task with remembered }) :
    Sequel x (.proceed w) b .glance o w.task change [.complete (.task w) reply]
  | parks {w task b h side known before} {p : Place}
      {o : Outcome (Registry Waker) Waker (Option Place)}
      (found : x.tasks[w.task]? = some task) (progress : task.progress = .fresh)
      (current : task.current? = some ⟨b, .wait h side⟩)
      (ran : (x.registry b).park ⟨h, known⟩ side w = .ok o) (answer : o.answer = some p) :
    Sequel x (.proceed w) b (.park ⟨h, known⟩ side w) (o.map ({ places := ·.toList })) w.task
      ({ · with progress := .waiting b p before [] }) [.observe w.task, .suspend w.task]
  | parksNowhere {w task b h side known before result}
      {o : Outcome (Registry Waker) Waker (Option Place)}
      (found : x.tasks[w.task]? = some task) (progress : task.progress = .fresh)
      (current : task.current? = some ⟨b, .wait h side⟩)
      (ran : (x.registry b).park ⟨h, known⟩ side w = .ok o) (answer : o.answer = none) :
    Sequel x (.proceed w) b (.park ⟨h, known⟩ side w) (o.map ({ places := ·.toList })) w.task id
      [.conclude w before [] b ⟨h, known⟩ side result]
  | waits {w task b p before after} (found : x.tasks[w.task]? = some task)
      (progress : task.progress = .waiting b p before after)
      (queued : ((x.registry b).revisit p w).answer = .queued) :
    Sequel x (.proceed w) b (.revisit p w)
      (((x.registry b).revisit p w).map ({ places := if · = .queued then [p] else [] })) w.task id
      [.observe w.task, .suspend w.task]
  | wakes {w task b p before after result} (found : x.tasks[w.task]? = some task)
      (progress : task.progress = .waiting b p before after)
      (out : ((x.registry b).revisit p w).answer ≠ .queued) :
    Sequel x (.proceed w) b (.revisit p w)
      (((x.registry b).revisit p w).map ({ places := if · = .queued then [p] else [] })) w.task
      ({ · with progress := .fresh }) [.conclude w before after b p.address p.side result]
  | abandons {f b p t change frames} (forgets : Forgets x f b p t change frames) :
    Sequel x f b (.abandon p) (((x.registry b).abandon p).map fun _ => {}) t change frames

/-- What a step can do that takes the frame `f` off, with the frames `rest` below it. -/
inductive Unfolds (x : Executor) (rest : List Frame) (y : Executor) : Frame → Prop where
  /-- No bus is entered. -/
  | quiet {f t change frames} (none : x.errand? = none) (quiet : Quiet x f t change frames)
      (leads : x.Leads y x.buses (x.tasks.modify t change) (frames ++ rest)) : Unfolds x rest y f
  /-- A bus is given free. -/
  | releases {b} (none : x.errand? = none)
      (leads : x.Leads y (x.buses.modify b ({ · with inUse := false })) x.tasks rest) :
    Unfolds x rest y (.release b)
  /-- A waker is called, and its task goes on at once. -/
  | polls {w later task} (none : x.errand? = none) (found : x.tasks[w.task]? = some task)
      (idle : task.life = .idle)
      (leads : x.Leads { y with log := x.log } x.buses x.tasks
        (.poll ⟨w.task, 0⟩ :: .wake later :: rest))
      (calls : wokenIn y.log = w :: wokenIn x.log) : Unfolds x rest y (.wake (w :: later))
  /-- A waker is called, and its task is ready to go on unless it is over. -/
  | readies {w later} (none : x.errand? = none)
      (leads : x.Leads { y with ready := x.ready, log := x.log } x.buses x.tasks
        (.wake later :: rest))
      (ready : y.ready = x.ready ∨ y.ready = x.ready ++ [w.task])
      (alive : ∀ task, x.tasks[w.task]? = some task → task.life ≠ .ended → w.task ∈ y.ready)
      (calls : wokenIn y.log = w :: wokenIn x.log) : Unfolds x rest y (.wake (w :: later))
  /-- The next ready task is to go on, unless it is over. -/
  | drains {limit polled t later frames limit' polled'} (none : x.errand? = none)
      (ready : x.ready = t :: later)
      (alive : frames = [.poll ⟨t, 0⟩] ∨ frames = [] ∧
        ∀ task, x.tasks[t]? = some task → task.life = .ended)
      (leads : x.Leads { y with ready := x.ready } x.buses x.tasks
        (frames ++ .drain limit' polled' :: rest))
      (ready' : y.ready = later) :
    Unfolds x rest y (.drain limit polled)
  /-- A bus is entered. -/
  | enters {f b e o t change frames} (errand : x.errand? = some (b, e))
      (carried : x.carried b e = some o) (sequel : Sequel x f b e o t change frames)
      (leads : x.Leads y (x.buses.set b ⟨o.state, true⟩) (x.tasks.modify t change)
        (.release b :: .wake o.woken :: .tell o.afterwards :: (frames ++ rest))) :
    Unfolds x rest y f
  /-- An errand fails, and everything is broken off. -/
  | fails {f b e} (errand : x.errand? = some (b, e)) (failed : x.carried b e = none)
      (buses : y.buses = x.buses) (calls : wokenIn y.log = wokenIn x.log)
      (tasks : y.tasks = x.tasks ∨ ∃ p t change frames, e = .abandon p ∧
        Forgets x f b p t change frames ∧ y.tasks = x.tasks.modify t change)
      (stack : ∀ g ∈ y.stack, g ∈ rest ∨ g.IsFinal) : Unfolds x rest y f

end Executor

end MessageBus
