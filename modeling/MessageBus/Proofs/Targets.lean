import MessageBus.Proofs.AnyRun

/-!
# What a task is about

The call that a task is in is about one channel, unless it is a broadcast, and so is the stream of
a task. A step may end the call or drop the stream, but it does not turn them to another channel
(`CallStep`, `StreamStep`): a task that is in a call after a step was in it before, or begins it in
this step, and a task gets another stream only by adopting it. The places of a task are where its
call and its stream want to be (`Task.IsFaithful`).
-/

namespace MessageBus

/-- The handle that a call names. A broadcast names none. -/
def Call.handle? : Call → Option Handle
  | .send h _ => some h
  | .sendMany h _ => some h
  | .recv h => some h
  | .recvMany h _ => some h
  | .broadcast _ => none

/-- A request is about the channel that is open under the handle of its call. -/
theorem Call.resolve_handle {ω : Type} {r : Registry ω} {c : Call} {q : Request} {a : Address}
    (resolved : c.resolve r = .ok q) (own : q.address? = some a) :
    ∃ h, c.handle? = some h ∧ r.resolve h = .ok a := by
  have address {h : Handle} {request : Address → Request}
      (resolved : (r.resolve h).map request = .ok q)
      (same : ∀ a, (request a).address? = some a) : r.resolve h = .ok a := by
    cases found : r.resolve h with
    | error e =>
      rw [found] at resolved
      cases resolved
    | ok a' =>
      rw [found] at resolved
      cases resolved
      cases (same a').symm.trans own
      rfl
  cases c with
  | send h m => exact ⟨h, rfl, address resolved fun _ => rfl⟩
  | sendMany h ms => exact ⟨h, rfl, address resolved fun _ => rfl⟩
  | recv h => exact ⟨h, rfl, address resolved fun _ => rfl⟩
  | recvMany h limit => exact ⟨h, rfl, address resolved fun _ => rfl⟩
  | broadcast m =>
    cases resolved
    cases own

namespace Task

variable {task task' : Task} {b : Nat} {a : Address} {p : Place}

/-- The channel that the call of a task is about, with its bus. -/
def callTarget? (task : Task) : Option (Nat × Address) :=
  match task.progress with
  | .calling b q _ _ => q.address?.map (b, ·)
  | _ => none

/-- The channel that the stream of a task is about, with its bus. -/
def streamTarget? (task : Task) : Option (Nat × Address) :=
  task.stream.bind fun s => s.id.map fun id => (s.bus, ⟨s.handle, id⟩)

/-- The places of a task are such as its call and its stream may wait at. -/
structure IsFaithful (task : Task) : Prop where
  call : ∀ b q p recorded, task.progress = .calling b q (some p) recorded → q.Fits p
  stream : ∀ s p, task.stream = some s → s.place = some p →
    ∃ id, s.id = some id ∧ (Request.recv ⟨s.handle, id⟩).Fits p

theorem callTarget?_eq_some_iff : task.callTarget? = some (b, a) ↔
    ∃ q prior recorded, task.progress = .calling b q prior recorded ∧ q.address? = some a := by
  rw [callTarget?]
  constructor
  · intro about
    split at about
    · obtain ⟨a', own, same⟩ := Option.map_eq_some_iff.1 about
      cases same
      exact ⟨_, _, _, ‹_›, own⟩
    · cases about
  · rintro ⟨q, prior, recorded, progress, own⟩
    simp [progress, own]

theorem streamTarget?_eq_some_iff : task.streamTarget? = some (b, a) ↔
    ∃ s, task.stream = some s ∧ s.bus = b ∧ s.handle = a.handle ∧ s.id = some a.id := by
  rw [streamTarget?, Option.bind_eq_some_iff]
  constructor
  · rintro ⟨s, stream, about⟩
    obtain ⟨id, known, same⟩ := Option.map_eq_some_iff.1 about
    cases same
    exact ⟨s, stream, rfl, rfl, known⟩
  · rintro ⟨s, stream, rfl, handle, known⟩
    refine ⟨s, stream, ?_⟩
    rw [known, Option.map_some, handle]

/-- Wherever the call of a task waits is the channel that it is about. -/
theorem IsFaithful.of_callPlace (faithful : task.IsFaithful)
    (about : task.callTarget? = some (b, a)) {b' : Nat} (holds : task.callPlace = some (b', p)) :
    b' = b ∧ p.address = a := by
  obtain ⟨q, prior, recorded, progress, own⟩ := callTarget?_eq_some_iff.1 about
  cases prior with
  | none => simp [callPlace, progress] at holds
  | some p' =>
    have same : some (b, p') = some (b', p) := by simpa [callPlace, progress] using holds
    cases same
    exact ⟨rfl, (faithful.call b q p recorded progress).2 a own⟩

/-- The place of a stream that has not ended is one for a receive from its channel. -/
theorem IsFaithful.fits_of_stream (faithful : task.IsFaithful) {s : Stream} {id : ChannelId}
    (stream : task.stream = some s) (known : s.id = some id) :
    ∀ p ∈ s.place, (Request.recv ⟨s.handle, id⟩).Fits p := by
  intro p place
  obtain ⟨id', known', fits⟩ := faithful.stream s p stream place
  cases known.symm.trans known'
  exact fits

/-- Wherever the stream of a task waits is the channel that it is about. -/
theorem IsFaithful.of_streamPlace (faithful : task.IsFaithful)
    (about : task.streamTarget? = some (b, a)) {b' : Nat}
    (holds : task.streamPlace = some (b', p)) : b' = b ∧ p.address = a := by
  obtain ⟨s, stream, rfl, handle, known⟩ := streamTarget?_eq_some_iff.1 about
  obtain ⟨s', stream', holds⟩ := Option.bind_eq_some_iff.1 holds
  cases stream.symm.trans stream'
  obtain ⟨p', place, same⟩ := Option.map_eq_some_iff.1 holds
  cases same
  refine ⟨rfl, ((faithful.fits_of_stream stream known p place).2 _ rfl).trans ?_⟩
  rw [handle]

end Task

namespace Executor

variable {x y : Executor} {t b : Nat} {task task' : Task} {w : Waker} {f : Frame}
  {frames rest : List Frame} {change : Task → Task} {s : Stream}

/-- What a step makes of the call of a task. -/
inductive CallStep (x : Executor) (t : Nat) (task task' : Task) : Prop where
  | same (progress : task'.progress = task.progress)
  | quits (away : ∀ b q prior recorded, task'.progress ≠ .calling b q prior recorded)
  | looked {w : Waker} {rest : List Frame} {b : Nat} {q prior prior' recorded}
      (stack : x.stack = .proceed w :: rest) (own : w.task = t)
      (pursues : x.Pursues task b q prior recorded)
      (progress : task'.progress = .calling b q prior' recorded)
      (place : ∀ p ∈ prior', q.Fits p)

/-- What a step makes of the stream of a task. -/
inductive StreamStep (x : Executor) (t : Nat) (task task' : Task) : Prop where
  | same (stream : task'.stream = task.stream)
  | dropped (stream : task'.stream = none)
  | looked {s : Stream} {id place} (stream : task.stream = some s) (known : s.id = some id)
      (stream' : task'.stream = some { s with place })
      (place : ∀ p ∈ place, (Request.recv ⟨s.handle, id⟩).Fits p)
  | ended {s : Stream} (stream : task.stream = some s)
      (stream' : task'.stream = some { s with id := none, place := none })
  | adopted {w : Waker} {s : Stream} {rest : List Frame} (stack : x.stack = .adopt w s :: rest)
      (own : w.task = t) (stream : task'.stream = some s)

/-- A task is about to make a stream of the messages under a handle. -/
def Opens (x : Executor) (w : Waker) (s : Stream) : Prop :=
  ∃ rest task, x.stack = .proceed w :: rest ∧ x.tasks[w.task]? = some task ∧
    task.progress = .fresh ∧ task.current? = some ⟨s.bus, .stream s.handle⟩ ∧
    s.id = ((x.registry s.bus).resolve s.handle).toOption.map (·.id) ∧ s.place = none

theorem Replaces.streamStep {stream : Option Stream} {next : Frame}
    (replaces : x.Replaces f t stream next) (stack : x.stack = f :: rest) (task : Task) :
    x.StreamStep t task { task with stream } := by
  cases replaces with
  | ends _ _ _ => exact .dropped rfl
  | drops _ _ _ => exact .dropped rfl
  | adopts => exact .adopted stack rfl rfl

theorem Forgets.steps {p : Place} (forgets : x.Forgets f b p t change frames)
    (stack : x.stack = f :: rest) (task : Task) :
    x.CallStep t task (change task) ∧ x.StreamStep t task (change task) := by
  cases forgets with
  | stream replaces _ _ => exact ⟨.same rfl, replaces.streamStep stack task⟩
  | place _ _ =>
    show x.CallStep t task task.giveUpPlace ∧ x.StreamStep t task task.giveUpPlace
    rw [Task.giveUpPlace]
    split
    · exact ⟨.quits fun _ _ _ _ => Progress.noConfusion, .same rfl⟩
    · exact ⟨.same rfl, .dropped rfl⟩

/-- Nothing begins or changes without a bus but what a task adopts. -/
theorem Quiet.steps (quiet : x.Quiet f t change frames) (stack : x.stack = f :: rest)
    (found : x.tasks[t]? = some task) :
    x.CallStep t task (change task) ∧ x.StreamStep t task (change task) := by
  cases quiet with
  | breaksOff _ _ =>
    refine ⟨.quits fun _ _ _ _ => Progress.noConfusion, ?_⟩
    cases looks : task.looksAtStream
    · exact .same (by simp [Task.breakOff, looks])
    · exact .dropped (by simp [Task.breakOff, looks])
  | observes _ _ => exact ⟨.quits fun _ _ _ _ => Progress.noConfusion, .same rfl⟩
  | completes _ => exact ⟨.quits fun _ _ _ _ => Progress.noConfusion, .same rfl⟩
  | collects _ _ => exact ⟨.quits fun _ _ _ _ => Progress.noConfusion, .same rfl⟩
  | yields _ _ _ => exact ⟨.quits fun _ _ _ _ => Progress.noConfusion, .same rfl⟩
  | replaces replaces _ => exact ⟨.same rfl, replaces.streamStep stack task⟩
  | _ => exact ⟨.same rfl, .same rfl⟩

/-- A request that was looked at stays what it is, and waits at a place that it fits. -/
theorem callStep_of_look {q : Request} {prior : Option Place} {recorded : Bool}
    {p : Outcome (Registry Waker) Waker Turn} (stack : x.stack = .proceed w :: rest)
    (pursues : x.Pursues task b q prior recorded) (ran : q.look (x.registry b) prior w = .ok p) :
    x.CallStep w.task task (p.answer.leaves b recorded task) := by
  have ends := Request.ends_of_look ran
  generalize p.answer = turn, p.state = r, p.woken = woken at ends
  cases ends with
  | tried _ _ _ => exact .quits fun _ _ _ _ => Progress.noConfusion
  | parked _ blocked _ _ =>
    obtain ⟨-, -, fits⟩ := blocked.find?
    refine .looked stack rfl pursues rfl fun p' member => ?_
    cases member
    exact fits _
  | waiting _ => exact .same rfl
  | gone _ => exact .quits fun _ _ _ _ => Progress.noConfusion

/-- A stream that was looked at receives from the same channel, or it has ended. -/
theorem streamStep_of_look {id : ChannelId} {p : Outcome (Registry Waker) Waker Turn}
    (stream : task.stream = some s) (known : s.id = some id)
    (ran : (Request.recv ⟨s.handle, id⟩).look (x.registry s.bus) s.place w = .ok p) :
    x.StreamStep t task (p.answer.leavesStream s task) := by
  have ends := Request.ends_of_look ran
  generalize p.answer = turn, p.state = r, p.woken = woken, s.place = prior at ends
  cases ends with
  | @tried _ _ result _ _ _ =>
    cases result with
    | ok v => exact .looked stream known rfl fun p' member => nomatch member
    | error e => exact .ended stream rfl
  | parked _ blocked _ _ =>
    obtain ⟨-, -, fits⟩ := blocked.find?
    refine .looked stream known rfl fun p' member => ?_
    cases member
    exact fits _
  | waiting _ => exact .same rfl
  | gone _ => exact .ended stream rfl

theorem callStep_of_leavesStream {turn : Turn} :
    x.CallStep t task (turn.leavesStream s task) := by
  rcases turn with ⟨_ | _⟩ | _ | _ | _ <;> exact .same rfl

theorem streamStep_of_leaves {turn : Turn} {recorded : Bool} :
    x.StreamStep t task (turn.leaves b recorded task) := by
  rcases turn with _ | _ | _ | _ <;> exact .same rfl

/-- On an errand a task goes on with what it is about. -/
theorem Sequel.steps {e : Errand Waker} {o : Outcome (Registry Waker) Waker Upshot}
    (sequel : x.Sequel f b e o t change frames) (stack : x.stack = f :: rest)
    (found : x.tasks[t]? = some task) :
    x.CallStep t task (change task) ∧ x.StreamStep t task (change task) := by
  cases sequel with
  | operates _ _ _ _ => exact ⟨.same rfl, .same rfl⟩
  | looks found' pursues ran =>
    cases found.symm.trans found'
    exact ⟨callStep_of_look stack pursues ran, streamStep_of_leaves⟩
  | looksAtStream found' _ stream known ran =>
    cases found.symm.trans found'
    exact ⟨callStep_of_leavesStream, streamStep_of_look stream known ran⟩
  | fails _ _ _ _ => exact ⟨.quits fun _ _ _ _ => Progress.noConfusion, .same rfl⟩
  | resolvesStream _ _ _ => exact ⟨.same rfl, .same rfl⟩
  | resolves _ _ _ remembers =>
    obtain ⟨remembered, same⟩ := remembers task
    rw [same]
    exact ⟨.same rfl, .same rfl⟩
  | parks _ _ _ _ _ => exact ⟨.quits fun _ _ _ _ => Progress.noConfusion, .same rfl⟩
  | parksNowhere _ _ _ _ _ => exact ⟨.same rfl, .same rfl⟩
  | waits _ _ _ => exact ⟨.same rfl, .same rfl⟩
  | wakes _ _ _ => exact ⟨.quits fun _ _ _ _ => Progress.noConfusion, .same rfl⟩
  | abandons forgets => exact forgets.steps stack task

/-- In a step every task goes on with what it is about. -/
theorem step_task (found : x.step.tasks[t]? = some task') :
    ∃ task, x.tasks[t]? = some task ∧ x.CallStep t task task' ∧ x.StreamStep t task task' := by
  have unchanged (same : x.step.tasks = x.tasks) : ∃ task, x.tasks[t]? = some task ∧
      x.CallStep t task task' ∧ x.StreamStep t task task' :=
    ⟨task', same ▸ found, .same rfl, .same rfl⟩
  have changed {t' : Nat} {change : Task → Task} (tasks : x.step.tasks = x.tasks.modify t' change)
      (steps : ∀ task, x.tasks[t']? = some task →
        x.CallStep t' task (change task) ∧ x.StreamStep t' task (change task)) :
      ∃ task, x.tasks[t]? = some task ∧ x.CallStep t task task' ∧ x.StreamStep t task task' := by
    rw [tasks] at found
    obtain ⟨task, before, ⟨rfl, rfl⟩ | ⟨-, rfl⟩⟩ := getElem?_modify_cases found
    · exact ⟨task, before, steps task before⟩
    · exact ⟨_, before, .same rfl, .same rfl⟩
  cases stack : x.stack with
  | nil => exact unchanged (by rw [step_of_stack_nil stack])
  | cons f rest =>
    cases x.step_unfolds stack with
    | quiet _ quiet leads => exact changed leads.tasks fun _ => quiet.steps stack
    | releases _ leads => exact unchanged leads.tasks
    | polls _ _ _ leads _ => exact unchanged leads.tasks
    | readies _ leads _ _ _ => exact unchanged leads.tasks
    | drains _ _ _ leads _ => exact unchanged leads.tasks
    | enters _ _ sequel leads => exact changed leads.tasks fun _ => sequel.steps stack
    | fails _ _ _ _ tasks _ =>
      rcases tasks with same | ⟨p, t', change, frames, -, forgets, tasks⟩
      · exact unchanged same
      · exact changed tasks fun task _ => forgets.steps stack task

/-- A request from outside does not change what a task is about. -/
theorem ask_task {s : Step} (found : (x.ask s).tasks[t]? = some task') :
    (∃ task, x.tasks[t]? = some task ∧ task'.progress = task.progress ∧
      task'.stream = task.stream) ∨
    task'.progress = .fresh ∧ task'.stream = none := by
  have unchanged (same : (x.ask s).tasks = x.tasks) : ∃ task, x.tasks[t]? = some task ∧
      task'.progress = task.progress ∧ task'.stream = task.stream :=
    ⟨task', same ▸ found, rfl, rfl⟩
  have changed {t' : Nat} {change : Task → Task}
      (tasks : (x.ask s).tasks = x.tasks.modify t' change)
      (life : ∀ task, ∃ life, change task = { task with life }) : ∃ task,
      x.tasks[t]? = some task ∧ task'.progress = task.progress ∧ task'.stream = task.stream := by
    rw [tasks] at found
    obtain ⟨task, before, ⟨rfl, rfl⟩ | ⟨-, rfl⟩⟩ := getElem?_modify_cases found
    · obtain ⟨life, same⟩ := life task
      exact ⟨task, before, by rw [same], by rw [same]⟩
    · exact ⟨_, before, rfl, rfl⟩
  cases x.ask_asked s with
  | answers _ _ leads => exact .inl (unchanged leads.tasks)
  | runs leads => exact .inl (unchanged leads.tasks)
  | polls _ _ leads => exact .inl (unchanged leads.tasks)
  | drops _ _ leads => exact .inl (changed leads.tasks fun _ => ⟨.ended, rfl⟩)
  | dropsInUse life leads _ => exact .inl (changed leads.tasks life)
  | adds leads => exact .inl (unchanged leads.tasks)
  | spawns leads _ =>
    have tasks : (x.ask _).tasks = x.tasks ++ [_] := leads.tasks
    rw [tasks, List.getElem?_append] at found
    split at found
    · exact .inl ⟨task', found, rfl, rfl⟩
    · rw [List.mem_singleton.1 (List.mem_of_getElem? found)]
      exact .inr ⟨rfl, rfl⟩
  | operates _ _ leads => exact .inl (unchanged leads.tasks)
  | fails _ _ tasks _ => exact .inl (unchanged tasks)

/-! ### Where a new stream comes from -/

theorem Quiet.ne_adopt (quiet : x.Quiet f t change frames) {g : Frame} (member : g ∈ frames) :
    g ≠ .adopt w s := by
  rintro rfl
  cases quiet with
  | replaces replaces _ => cases replaces <;> simp at member
  | _ => simp at member

theorem Turn.frame_ne_adopt (turn : Turn) (w' : Waker) : turn.frame w' ≠ .adopt w s := by
  rcases turn with _ | _ | _ | _ <;> exact Frame.noConfusion

theorem Turn.streamFrame_ne_adopt (turn : Turn) (task : Task) (w' : Waker) :
    turn.streamFrame w' (task.ifPending w') ≠ .adopt w s := by
  have pending : task.ifPending w' ≠ .adopt w s := by
    rw [Task.ifPending]
    split <;> exact Frame.noConfusion
  rcases turn with ⟨_ | _⟩ | _ | _ | _
  · exact Frame.noConfusion
  · exact Frame.noConfusion
  · exact pending
  · exact pending
  · exact Frame.noConfusion

/-- Only an instruction that makes a stream leads to its adoption. -/
theorem Sequel.opens {e : Errand Waker} {o : Outcome (Registry Waker) Waker Upshot}
    (sequel : x.Sequel f b e o t change frames) (stack : x.stack = f :: rest)
    (member : .adopt w s ∈ frames) : x.Opens w s := by
  cases sequel with
  | looks _ _ _ => exact absurd (List.mem_singleton.1 member).symm (Turn.frame_ne_adopt _ _)
  | looksAtStream _ _ _ _ _ =>
    exact absurd (List.mem_singleton.1 member).symm (Turn.streamFrame_ne_adopt _ _ _)
  | resolvesStream found progress current =>
    cases List.mem_singleton.1 member
    exact ⟨rest, _, stack, found, progress, current, rfl, rfl⟩
  | abandons forgets => cases forgets.isFinal member
  | _ => simp at member

/-- A stream that is to be adopted after a step was so before, or is made in this step. -/
theorem adopt_step (member : .adopt w s ∈ x.step.stack) : .adopt w s ∈ x.stack ∨ x.Opens w s := by
  cases stack : x.stack with
  | nil =>
    rw [step_of_stack_nil stack, stack] at member
    cases member
  | cons f rest =>
    have below (later : .adopt w s ∈ rest) : .adopt w s ∈ f :: rest ∨ x.Opens w s :=
      .inl (List.mem_cons_of_mem _ later)
    cases x.step_unfolds stack with
    | quiet _ quiet leads =>
      rw [leads.stack, List.mem_append] at member
      rcases member with new | later
      · exact absurd rfl (quiet.ne_adopt new)
      · exact below later
    | releases _ leads => exact below (leads.stack ▸ member)
    | polls _ _ _ leads _ =>
      have stack' : x.step.stack = _ := leads.stack
      rw [stack'] at member
      exact below (by simpa using member)
    | readies _ leads _ _ _ =>
      have stack' : x.step.stack = _ := leads.stack
      rw [stack'] at member
      exact below (by simpa using member)
    | drains _ _ alive leads _ =>
      have stack' : x.step.stack = _ := leads.stack
      rw [stack'] at member
      rcases alive with rfl | ⟨rfl, -⟩ <;> exact below (by simpa using member)
    | enters _ _ sequel leads =>
      rw [leads.stack] at member
      simp only [List.mem_cons, List.mem_append, reduceCtorEq, false_or] at member
      rcases member with new | later
      · exact .inr (sequel.opens stack new)
      · exact below later
    | fails _ _ _ _ _ stack' =>
      rcases stack' _ member with later | final
      · exact below later
      · cases final

theorem adopt_ask {step : Step} (member : .adopt w s ∈ (x.ask step).stack) :
    .adopt w s ∈ x.stack := by
  cases x.ask_asked step with
  | answers _ answer leads =>
    rw [leads.stack, List.mem_append] at member
    rcases answer with rfl | ⟨reply, rfl⟩ <;> simpa using member
  | runs leads => rw [leads.stack] at member; simpa using member
  | polls _ _ leads => rw [leads.stack] at member; simpa using member
  | drops _ _ leads => rw [leads.stack] at member; simpa using member
  | dropsInUse _ leads own =>
    rw [leads.stack, List.mem_append] at member
    rcases member with new | old
    · cases own _ new
    · exact old
  | adds leads => exact leads.stack ▸ member
  | spawns leads _ =>
    have stack : (x.ask _).stack = x.stack := leads.stack
    exact stack ▸ member
  | operates _ _ leads => rw [leads.stack] at member; simpa using member
  | fails _ _ _ stack => exact stack _ member

end Executor

end MessageBus
