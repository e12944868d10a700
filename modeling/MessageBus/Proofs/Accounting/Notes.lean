import MessageBus.Proofs.Accounting.Counters
import MessageBus.Proofs.Trades

/-!
# What observers are told in a step

A step tells the notes of its errand that come before the wakers are called, and those that come
after are left on the stack; or it tells notes that were left there. Nothing else is kept in
telemetry (`Executor.telemetry_step`, `Executor.telemetry_ask`).
-/

namespace MessageBus.Executor

variable {α : Type} {x y : Executor} {b t : Nat} {w : Waker} {task : Task} {e : Errand Waker}
  {p : Place}

/-- What is told at once of an errand. -/
def notesOf (x : Executor) (errand : Option (Nat × Errand Waker)) : List Note :=
  ((errand.bind fun (b, e) => x.carried b e).map (·.notes)).getD []

theorem notesOf_some (x : Executor) (b : Nat) (e : Errand Waker) :
    x.notesOf (some (b, e)) = ((x.carried b e).map (·.notes)).getD [] := rfl

/-- What the next step tells. -/
def told (x : Executor) : List Note :=
  match x.stack with
  | .tell notes :: _ => notes
  | _ => x.notesOf x.errand?

theorem telemetry_tell (x : Executor) (notes : List Note) :
    (x.tell notes).telemetry = x.telemetry.noteAll notes := by
  induction notes generalizing x with
  | nil => rfl
  | cons n notes ih =>
    refine (ih (x.tellOne n)).trans (congrArg (Telemetry.noteAll · notes) ?_)
    rw [tellOne]
    split <;> rfl

/-- Whoever enters a bus on an errand tells what there is to tell of it. -/
theorem telemetry_access {f : Registry Waker → Except Fault (Outcome (Registry Waker) Waker α)}
    {next : α → Executor → Executor}
    (same : ∀ r, x.registry b = r → ∃ g : α → Upshot, e.effect r = (f r).map (Outcome.map g))
    (mute : ∀ a (y : Executor), (next a y).telemetry = y.telemetry) :
    (x.access b f next).telemetry = x.telemetry.noteAll (x.notesOf (some (b, e))) := by
  rw [access, notesOf_some, carried]
  cases there : x.buses[b]? with
  | none => rfl
  | some bus =>
    cases inUse : bus.inUse with
    | true =>
      simp only [Option.bind_some, inUse, if_true]
      rfl
    | false =>
      obtain ⟨g, same⟩ := same bus.registry (registry_of_bus there)
      simp only [Option.bind_some, inUse, Bool.false_eq_true, if_false, same]
      cases f bus.registry with
      | error fault => rfl
      | ok o => exact (mute o.answer _).trans (telemetry_tell _ o.notes)

theorem telemetry_giveUp {forget : Executor → Executor}
    (mute : ∀ y : Executor, (forget y).telemetry = y.telemetry) :
    (x.giveUp b p forget).telemetry =
      x.telemetry.noteAll (x.notesOf (some (b, .abandon p))) := by
  rw [giveUp]
  split
  · rename_i inUse
    have nothing : x.notesOf (some (b, .abandon p)) = [] := by
      rw [notesOf_some, carried]
      rw [isInUse] at inUse
      cases there : x.buses[b]? with
      | none => rfl
      | some bus =>
        rw [there, Option.map_some, Option.getD_some] at inUse
        rw [Option.bind_some, if_pos inUse]
        rfl
    rw [nothing]
    split
    · exact mute x
    · exact mute x
  · exact telemetry_access (fun r _ => ⟨_, rfl⟩) fun _ => mute

theorem telemetry_replaceStream (x : Executor) (t : Nat) (stream : Option Stream)
    (andThen : List Frame) : (x.replaceStream t stream andThen).telemetry =
      x.telemetry.noteAll (x.notesOf ((x.tasks[t]?).bind (·.streamErrand?))) := by
  rw [replaceStream]
  cases x.tasks[t]? with
  | none => rfl
  | some task =>
    simp only [Option.bind_some, Task.streamErrand?]
    cases task.streamPlace with
    | none => rfl
    | some held => exact telemetry_giveUp fun _ => rfl

theorem telemetry_dropTask (x : Executor) (t : Nat) (andThen : Bool → List Frame) :
    (x.dropTask t andThen).telemetry = x.telemetry := by
  rw [dropTask]
  split
  · rfl
  · split <;> rfl

/-- The errand of an action. -/
def Action.errand? (b : Nat) : Action → Option (Nat × Errand Waker)
  | .operate op => some (b, .operate op)
  | _ => none

theorem telemetry_act (x : Executor) (b : Nat) (caller : Caller) (a : Action) :
    (x.act b caller a).telemetry = x.telemetry.noteAll (x.notesOf (Action.errand? b a)) := by
  cases a with
  | operate op => exact telemetry_access (fun r _ => ⟨_, rfl⟩) fun _ _ => rfl
  | drop t => exact telemetry_dropTask x t _
  | _ => rfl

theorem telemetry_takeTurn (w : Waker) (bus : Nat) (recorded : Bool) (turn : Turn) (y : Executor) :
    (takeTurn w bus recorded turn y).telemetry = y.telemetry := by
  cases turn with
  | finished result => cases recorded <;> rfl
  | _ => rfl

theorem telemetry_takeStreamTurn (w : Waker) (s : Stream) (ifPending : Frame) (turn : Turn)
    (y : Executor) : (takeStreamTurn w s ifPending turn y).telemetry = y.telemetry := by
  rcases turn with (_ | _) | _ | _ | _ <;> rfl

theorem telemetry_pollStream (x : Executor) (w : Waker) (task : Task) :
    (x.pollStream w task).telemetry =
      x.telemetry.noteAll (x.notesOf (task.stream.bind (·.errand? w))) := by
  rw [pollStream]
  cases task.stream with
  | none => rfl
  | some s =>
    obtain ⟨bus, handle, id, place⟩ := s
    cases id with
    | none => rfl
    | some id =>
      cases place with
      | none => exact telemetry_access (fun r _ => ⟨_, rfl⟩) (telemetry_takeStreamTurn _ _ _)
      | some p => exact telemetry_access (fun r _ => ⟨_, rfl⟩) (telemetry_takeStreamTurn _ _ _)

theorem telemetry_start (found : x.tasks[w.task]? = some task) (i : Instruction) :
    (x.start w task i).telemetry = x.telemetry.noteAll (x.notesOf (x.startErrand? w task i)) := by
  obtain ⟨b, deed⟩ := i
  cases deed with
  | act a =>
    refine (telemetry_act x b (.task w) a).trans (congrArg _ (congrArg _ ?_))
    cases a <;> rfl
  | call c =>
    cases resolved : c.resolve (x.registry b) with
    | ok q =>
      simp only [startErrand?, resolved]
      refine telemetry_access (fun r here => ⟨(·.upshot r q none), ?_⟩) (telemetry_takeTurn _ _ _)
      rw [here] at resolved
      rw [Call.start, resolved]
      rfl
    | error failure =>
      simp only [startErrand?, resolved]
      refine telemetry_access (fun r here => ⟨fun _ => {}, ?_⟩) (telemetry_takeTurn _ _ _)
      rw [here] at resolved
      rw [Call.start, resolved]
      rfl
  | yield => rfl
  | stream h => exact telemetry_access (fun r _ => ⟨fun _ => {}, rfl⟩) fun _ _ => rfl
  | next => exact telemetry_pollStream x w task
  | tryNext => exact telemetry_pollStream x w task
  | collect => exact telemetry_pollStream x w task
  | hasEnded =>
    rw [start]
    cases task.stream <;> rfl
  | describeStream =>
    rw [start]
    cases task.stream <;> rfl
  | dropStream =>
    refine (telemetry_replaceStream x w.task none _).trans ?_
    rw [found]
    rfl
  | resolve h =>
    refine telemetry_access (fun r _ => ⟨fun _ => {}, rfl⟩) fun found y => ?_
    cases found <;> rfl
  | recvFrom h =>
    simp only [start, startErrand?]
    cases task.remembered with
    | none => rfl
    | some id => exact telemetry_access (fun r _ => ⟨_, rfl⟩) (telemetry_takeTurn _ _ _)
  | wait h side =>
    simp only [start, startErrand?]
    cases task.remembered with
    | none => rfl
    | some id =>
      refine telemetry_access (fun r _ => ⟨_, rfl⟩) fun place y => ?_
      cases place <;> rfl

theorem telemetry_proceed (found : x.tasks[w.task]? = some task) :
    (x.proceed w task).telemetry = x.telemetry.noteAll (x.notesOf (x.taskErrand? w task)) := by
  rw [proceed, taskErrand?]
  cases task.progress with
  | fresh =>
    dsimp only
    cases task.current? with
    | none =>
      refine (telemetry_replaceStream x w.task none _).trans ?_
      rw [found]
      rfl
    | some i => exact telemetry_start found i
  | calling bus q prior recorded =>
    cases prior with
    | none => exact telemetry_access (fun r _ => ⟨_, rfl⟩) (telemetry_takeTurn _ _ _)
    | some p => exact telemetry_access (fun r _ => ⟨_, rfl⟩) (telemetry_takeTurn _ _ _)
  | yielded => rfl
  | collecting items => exact telemetry_pollStream x w task
  | waiting bus p before after =>
    refine telemetry_access (fun r _ => ⟨_, rfl⟩) fun standing y => ?_
    cases standing <;> rfl

theorem telemetry_rouse (x : Executor) (w : Waker) : (x.rouse w).telemetry = x.telemetry := by
  rw [rouse]
  split
  · rfl
  · split
    · split
      · rfl
      · split <;> rfl
    · rfl

theorem telemetry_receive (x : Executor) (w : Waker) (task : Task) (item : Option Message) :
    (x.receive w task item).telemetry = x.telemetry := by
  rw [receive]
  split
  · dsimp only
    split <;> rfl
  · rfl

theorem telemetry_drain (x : Executor) (limit : Option Nat) (polled : Nat) :
    (x.drain limit polled).telemetry = x.telemetry := by
  rw [drain.eq_def]
  split
  · rfl
  · rfl
  · dsimp only
    split <;> rfl

theorem telemetry_withTask {go : Task → Executor}
    (mute : ∀ task, (go task).telemetry = x.telemetry) :
    (x.withTask t go).telemetry = x.telemetry :=
  withTask_cases (motive := (·.telemetry = x.telemetry)) (fun _ => rfl) fun task _ => mute task

/-- If a task goes on with something, it is told what its errand gives to tell. -/
theorem telemetry_withTask_of_errand {go : Task → Executor}
    {errand : Task → Option (Nat × Errand Waker)}
    (tells : ∀ task, x.tasks[t]? = some task →
      (go task).telemetry = x.telemetry.noteAll (x.notesOf (errand task))) :
    (x.withTask t go).telemetry =
      x.telemetry.noteAll (x.notesOf ((x.tasks[t]?).bind errand)) := by
  cases found : x.tasks[t]? with
  | none =>
    rw [withTask_of_none found]
    rfl
  | some task => rw [withTask_of_found found, tells task found, Option.bind_some]

theorem telemetry_vacate (x : Executor) (t : Nat) (task : Task) :
    (x.vacate t task).telemetry = x.telemetry.noteAll (x.notesOf task.placeErrand?) := by
  rw [vacate, Task.placeErrand?]
  cases task.places with
  | nil => rfl
  | cons held later => exact telemetry_giveUp fun _ => rfl

/-- A step tells what there is to tell, and nothing else is kept. -/
theorem telemetry_step (x : Executor) : x.step.telemetry = x.telemetry.noteAll x.told := by
  obtain ⟨inline, buses, tasks, ready, lastError, telemetry, log, stack, answer⟩ := x
  cases stack with
  | nil => rfl
  | cons f rest =>
    let x : Executor := ⟨inline, buses, tasks, ready, lastError, telemetry, log, rest, answer⟩
    show (x.perform f).telemetry = _
    cases f with
    | tell notes => exact telemetry_tell x notes
    | proceed w => exact telemetry_withTask_of_errand fun task found => telemetry_proceed found
    | adopt w s => exact telemetry_replaceStream x w.task _ _
    | vacate t => exact telemetry_withTask_of_errand fun task _ => telemetry_vacate x t task
    | wake wakers =>
      cases wakers with
      | nil => rfl
      | cons w later => exact telemetry_rouse _ w
    | poll w =>
      refine telemetry_withTask fun task => ?_
      split <;> rfl
    | complete caller reply =>
      cases caller with
      | outside => rfl
      | task w => exact telemetry_withTask fun _ => rfl
    | receive w item => exact telemetry_withTask fun task => telemetry_receive x w task item
    | observe t =>
      refine telemetry_withTask fun task => ?_
      rw [observe]
      split <;> rfl
    | leave t =>
      refine telemetry_withTask fun task => ?_
      split <;> rfl
    | drain limit polled => exact telemetry_drain x limit polled
    | verdict t => exact telemetry_withTask fun _ => rfl
    | release _ | suspend _ | conclude _ _ _ _ _ _ _ | finish _ => rfl

/-- So does a request from outside. -/
theorem telemetry_ask (x : Executor) (s : Step) :
    (x.ask s).telemetry = x.telemetry.noteAll (x.notesOf s.errand?) := by
  cases s with
  | act b a =>
    refine (telemetry_act x b .outside a).trans (congrArg _ (congrArg _ ?_))
    cases a <;> rfl
  | poll w =>
    rw [ask]
    split <;> rfl
  | dropInUse b t =>
    rw [ask]
    exact telemetry_dropTask _ t _
  | addBus | spawn _ _ | run _ | report => rfl

end MessageBus.Executor
