import MessageBus.Executor

/-!
# Small steps of the executor

How a task goes on, instruction by instruction, and what becomes of each frame. Every access to a
bus is one atomic operation: a request that is looked at, attempted and parked does all of this in
one step, and the place that it took stands in the task by the end of it.

`Executor.step` carries out the frame on top of the stack. `Executor.settle` repeats it until
nothing is left to do.
-/

namespace MessageBus

/-- The instruction that a task is in. -/
def Task.current? (t : Task) : Option Instruction := t.program[t.position]?

/-- A task without the place that it gives up next. -/
def Task.giveUpPlace (t : Task) : Task :=
  match t.callPlace with
  | some _ => { t with progress := .fresh }
  | none => { t with stream := none }

/-- Whether a task is looking for the next item of its stream. -/
def Task.looksAtStream (t : Task) : Bool :=
  match t.current? with
  | some ⟨_, .next⟩ | some ⟨_, .tryNext⟩ | some ⟨_, .collect⟩ => true
  | _ => false

/-- A task whose turn was broken off is over. A place that it was just taking stays in its line
without an owner: the task was not yet suspended on it. -/
def Task.breakOff (t : Task) : Task :=
  { t with
    life := .ended
    progress := .fresh
    stream := if t.looksAtStream then none else t.stream }

namespace Executor

/-- Lets a task keep something about its instruction. -/
def keep (x : Executor) (t : Nat) (progress : Progress) : Executor :=
  x.modifyTask t ({ · with progress })

/-- Goes on from a turn of a request that a task made. -/
def takeTurn (w : Waker) (bus : Nat) (recorded : Bool) : Turn → Executor → Executor
  | .finished result, x =>
    let reply := Reply.ofResult result
    let x := if recorded then x.record reply else x
    (x.keep w.task .fresh).push [.complete (.task w) reply]
  | .parked q p, x =>
    (x.keep w.task (.calling bus q (some p) recorded)).push [.suspend w.task]
  | .waiting, x => x.push [.suspend w.task]
  | .again q, x => (x.keep w.task (.calling bus q none recorded)).push [.proceed w]

/-- Makes a stream, or none, the stream of a task. The old one gives up its place. -/
def replaceStream (x : Executor) (t : Nat) (stream : Option Stream) (andThen : List Frame) :
    Executor :=
  let replace (x : Executor) := (x.modifyTask t ({ · with stream })).push andThen
  match (x.tasks[t]?).bind (·.streamPlace) with
  | none => replace x
  | some (b, p) => x.giveUp b p replace

/-- Goes on from a turn of the receive that a stream makes. -/
def takeStreamTurn (w : Waker) (s : Stream) (ifPending : Frame) : Turn → Executor → Executor
  | .finished (.ok v), x =>
    (x.modifyTask w.task ({ · with stream := some { s with place := none } })).push
      [.receive w v.message?]
  | .finished (.error e), x =>
    ((x.record (.refused e)).modifyTask w.task
      ({ · with stream := some { s with id := none, place := none } })).push [.receive w none]
  | .parked _ p, x =>
    (x.modifyTask w.task ({ · with stream := some { s with place := some p } })).push [ifPending]
  | .waiting, x => x.push [ifPending]
  | .again _, x => x.push [.proceed w]

/-- Looks for the next item of a task's stream. -/
def pollStream (x : Executor) (w : Waker) (task : Task) : Executor :=
  match task.stream with
  | none => x.push [.complete (.task w) .noStream]
  | some s =>
    let ifPending : Frame :=
      match task.current? with
      | some ⟨_, .tryNext⟩ => .complete (.task w) .notYet
      | _ => .suspend w.task
    match s.id, s.place with
    | none, _ => x.push [.receive w none]
    | some id, none =>
      x.access s.bus (fun r => (Request.recv ⟨s.handle, id⟩).pursue r w)
        (takeStreamTurn w s ifPending)
    | some id, some p =>
      x.access s.bus (fun r => (Request.recv ⟨s.handle, id⟩).advance r p w)
        (takeStreamTurn w s ifPending)

/-- Begins an instruction. -/
def start (x : Executor) (w : Waker) (task : Task) (i : Instruction) : Executor :=
  let done (reply : Reply) : Frame := .complete (.task w) reply
  match i.deed with
  | .act action => x.act i.bus (.task w) action
  | .call c => x.access i.bus (fun r => c.start r w) (takeTurn w i.bus true)
  | .yield => (x.keep w.task .yielded).push [.wake [w], .suspend w.task]
  | .stream h =>
    x.access i.bus (fun r => .ok { answer := (r.resolve h).toOption, state := r }) fun a x =>
      x.push [.adopt w ⟨i.bus, h, a.map (·.id), none⟩]
  | .next => x.pollStream w task
  | .tryNext => x.pollStream w task
  | .collect => x.pollStream w task
  | .hasEnded =>
    match task.stream with
    | none => x.push [done .noStream]
    | some s => x.push [done (.plain (.flag s.id.isNone))]
  | .describeStream =>
    match task.stream with
    | none => x.push [done .noStream]
    | some s => x.push [done (.text (describeStream s.handle s.id.isNone s.place.isSome))]
  | .dropStream => x.replaceStream w.task none [done (.plain (.flag task.stream.isSome))]
  | .resolve h =>
    x.access i.bus (fun r => .ok { answer := r.resolve h, state := r }) fun found x =>
      match found with
      | .error e => x.push [done (.refused e)]
      | .ok a =>
        (x.modifyTask w.task ({ · with remembered := some a.id })).push
          [done (.granted (.number a.id.number))]
  | .recvFrom h =>
    match task.remembered with
    | none => x.push [done .noAddress]
    | some id =>
      x.access i.bus (fun r => (Request.recv ⟨h, id⟩).pursue r w) (takeTurn w i.bus false)
  | .wait h side =>
    match task.remembered with
    | none => x.push [done .noAddress]
    | some id =>
      let a : Address := ⟨h, id⟩
      let before := describeWait (x.summary i.bus) a side .idle
      x.access i.bus (fun r => r.park a side w) fun place x =>
        match place with
        | none => x.push [.conclude w before [] i.bus a side (.error .noSuchChannel)]
        | some p =>
          (x.keep w.task (.waiting i.bus p before [])).push [.observe w.task, .suspend w.task]

/-- Lets a task that is running go on with its instruction. -/
def proceed (x : Executor) (w : Waker) (task : Task) : Executor :=
  match task.progress with
  | .fresh =>
    match task.current? with
    | none => x.replaceStream w.task none [.finish w.task]
    | some i => x.start w task i
  | .calling bus q none recorded => x.access bus (fun r => q.pursue r w) (takeTurn w bus recorded)
  | .calling bus q (some p) recorded =>
    x.access bus (fun r => q.advance r p w) (takeTurn w bus recorded)
  | .yielded => x.push [.complete (.task w) (.plain .nothing)]
  | .collecting _ => x.pollStream w task
  | .waiting bus p before after =>
    let leave (result : Except BusError Unit) (x : Executor) : Executor :=
      (x.keep w.task .fresh).push [.conclude w before after bus p.address p.side result]
    x.access bus (fun r => .ok (r.revisit p w)) fun standing x =>
      match standing with
      | .queued => x.push [.observe w.task, .suspend w.task]
      | .called => leave (.ok ()) x
      | .gone => leave (.error .noSuchChannel) x

/-- Calls one waker. Nothing happens if its task is over. -/
def rouse (x : Executor) (w : Waker) : Executor :=
  match x.tasks[w.task]? with
  | none => x
  | some task =>
    if task.isAlive then
      if x.inline && task.isIdle then x.push [.poll ⟨w.task, 0⟩]
      else if x.ready.contains w.task then x
      else { x with ready := x.ready ++ [w.task] }
    else x

/-- A stream gave an item to the instruction that waits for it, or its end. -/
def receive (x : Executor) (w : Waker) (task : Task) (item : Option Message) : Executor :=
  match task.current? with
  | some ⟨_, .collect⟩ =>
    let items :=
      match task.progress with
      | .collecting items => items
      | _ => []
    match item with
    | some m => (x.keep w.task (.collecting (items ++ [m]))).push [.proceed w]
    | none => x.push [.complete (.task w) (.plain (.messages items))]
  | _ => x.push [.complete (.task w) (.item item)]

/-- Describes a bare wait that holds a place. -/
def observe (x : Executor) (t : Nat) (task : Task) : Executor :=
  match task.progress with
  | .waiting bus p before after =>
    let now := describeWait (x.summary bus) p.address p.side (.parked p.ticket)
    x.keep t (.waiting bus p before (after ++ [now]))
  | _ => x

/-- Gives up one place of a task that is over, and comes back for the next. -/
def vacate (x : Executor) (t : Nat) (task : Task) : Executor :=
  match task.places with
  | [] => x
  | (b, p) :: _ => (x.push [.vacate t]).giveUp b p (·.modifyTask t (·.giveUpPlace))

/-- Makes the next ready task go on. A task that is over is passed by. -/
def drain (x : Executor) (limit : Option Nat) (polled : Nat) : Executor :=
  match limit, x.ready with
  | some 0, _ => x.respond (.plain (.number polled))
  | _, [] => x.respond (.plain (.number polled))
  | _, t :: rest =>
    let x := { x with ready := rest }
    if ((x.tasks[t]?).map (·.isAlive)).getD false then
      x.push [.poll ⟨t, 0⟩, .drain (limit.map (· - 1)) (polled + 1)]
    else x.push [.drain limit polled]

/-- Does something with a task, if there is one. -/
def withTask (x : Executor) (t : Nat) (f : Task → Executor) : Executor :=
  ((x.tasks[t]?).map f).getD x

/-- Carries out a frame that was taken off the stack. -/
def perform (x : Executor) : Frame → Executor
  | .release b => { x with buses := x.buses.modify b ({ · with inUse := false }) }
  | .wake [] => x
  | .wake (w :: later) => ((x.push [.wake later]).happen (.woken w)).rouse w
  | .tell notes => x.tell notes
  | .poll w =>
    x.withTask w.task fun task =>
      if task.isIdle then
        ((x.happen (.polled w.task)).modifyTask w.task ({ · with life := .running })).push
          [.proceed w, .leave w.task]
      else x
  | .proceed w => x.withTask w.task (x.proceed w)
  | .suspend t => (x.happen (.pending t)).modifyTask t ({ · with life := .idle })
  | .complete .outside reply => x.respond reply
  | .complete (.task w) reply =>
    x.withTask w.task fun task =>
      ((x.happen (.completed w.task task.position reply)).modifyTask w.task (·.advance reply)).push
        [.proceed w]
  | .receive w item => x.withTask w.task fun task => x.receive w task item
  | .adopt w s => x.replaceStream w.task (some s) [.complete (.task w) (.plain .nothing)]
  | .observe t => x.withTask t (x.observe t)
  | .conclude w before after bus a side result =>
    x.push [.complete (.task w)
      (.wait before (after ++ [describeWait (x.summary bus) a side .left]) result (.ok ()))]
  | .finish t => (x.happen (.done t)).modifyTask t ({ · with life := .ended })
  | .vacate t => x.withTask t (x.vacate t)
  | .leave t =>
    x.withTask t fun task =>
      if task.life = .running then (x.modifyTask t (·.breakOff)).push [.vacate t] else x
  | .drain limit polled => x.drain limit polled
  | .verdict t => x.withTask t fun task => x.respond (.went (some (!task.isAlive)))

/-- One small step: the frame on top of the stack. Nothing happens when there is none. -/
def step (x : Executor) : Executor :=
  match x.stack with
  | [] => x
  | frame :: rest => { x with stack := rest }.perform frame

/-- Takes small steps until nothing is left to do, but no more than `fuel`. -/
def settle : Nat → Executor → Executor
  | 0, x => x
  | fuel + 1, x => if x.stack.isEmpty then x else settle fuel x.step

@[simp] theorem step_of_stack_nil {x : Executor} (h : x.stack = []) : x.step = x := by
  simp [step, h]

theorem settle_succ (fuel : Nat) (x : Executor) :
    settle (fuel + 1) x = if x.stack.isEmpty then x else settle fuel x.step := rfl

/-- Steps can be taken in two goes. -/
theorem settle_add (m n : Nat) (x : Executor) : settle (m + n) x = settle n (settle m x) := by
  induction m generalizing x with
  | zero => simp [settle]
  | succ m ih =>
    rw [Nat.add_right_comm]
    by_cases h : x.stack.isEmpty = true
    · have idle : settle n x = x := by cases n <;> simp [settle, h]
      simp [settle, h, idle]
    · simp [settle, h, ih]

/-- An executor with nothing left to do stays as it is. -/
theorem settle_of_stack_nil {x : Executor} (h : x.stack = []) (fuel : Nat) :
    settle fuel x = x := by
  cases fuel <;> simp [settle, h]

end Executor

end MessageBus
