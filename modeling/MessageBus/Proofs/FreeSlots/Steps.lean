import MessageBus.Proofs.FreeSlots.Executors
import MessageBus.Proofs.Trails

/-!
# Free slots do not matter to a run

Executors that resemble each other still do after the same step, whatever it is, and after the same
request (`Executor.Resembles.step`, `Executor.Resembles.ask`). So they do however both go on
(`Executor.Resembles.followAll`). There is one lemma for each function that a step is made of.
-/

namespace MessageBus.Executor

variable {x y : Executor} {t b : Nat} {w : Waker} {task task' : Task} {p : Place}

/-! ### Giving up a place -/

theorem Resembles.giveUp (same : x.Resembles y) {forget forget' : Executor → Executor}
    (forgets : ∀ z z', z.Resembles z' → (forget z).Resembles (forget' z')) :
    (x.giveUp b p forget).Resembles (y.giveUp b p forget') := by
  rw [Executor.giveUp, Executor.giveUp, same.isInUse, same.hasFailed]
  split
  · split
    · exact forgets x y same
    · exact (forgets x y same).fail _
  · exact same.access (Registry.isBlind_abandon p) fun _ => forgets

theorem Resembles.replaceStream (same : x.Resembles y) (stream : Option Stream)
    (frames : List Frame) :
    (x.replaceStream t stream frames).Resembles (y.replaceStream t stream frames) := by
  have replaces (z z' : Executor) (same : z.Resembles z') :
      ((z.modifyTask t ({ · with stream })).push frames).Resembles
        ((z'.modifyTask t ({ · with stream })).push frames) :=
    (same.setStream t stream).pushSame frames
  have places : (y.tasks[t]?).bind (·.streamPlace) = (x.tasks[t]?).bind (·.streamPlace) := by
    cases found : x.tasks[t]? with
    | none => rw [same.missing found]
    | some task =>
      obtain ⟨_, found', ⟨_⟩⟩ := same.found found
      rw [found']
      rfl
  rw [Executor.replaceStream, Executor.replaceStream, places]
  cases (x.tasks[t]?).bind (·.streamPlace) with
  | none => exact replaces x y same
  | some held => exact same.giveUp replaces

theorem Resembles.dropTask (same : x.Resembles y) (t : Nat) (frames : Bool → List Frame) :
    (x.dropTask t frames).Resembles (y.dropTask t frames) := by
  rw [Executor.dropTask, Executor.dropTask]
  cases found : x.tasks[t]? with
  | none =>
    rw [same.missing found]
    exact same.pushSame _
  | some task =>
    obtain ⟨_, found', ⟨_⟩⟩ := same.found found
    rw [found']
    show (if task.isIdle then _ else _ : Executor).Resembles (if task.isIdle then _ else _)
    split
    · exact (same.setLife t .ended).pushSame _
    · exact same.pushSame _

/-! ### Going on from an errand -/

theorem Resembles.takeTurn (same : x.Resembles y) (w : Waker) (b : Nat) (recorded : Bool)
    (turn : Turn) : (takeTurn w b recorded turn x).Resembles (takeTurn w b recorded turn y) := by
  cases turn with
  | finished result =>
    cases recorded with
    | false => exact (same.keepSame .fresh).pushSame _
    | true => exact ((same.record (.same (.ofResult result))).keepSame .fresh).pushSame _
  | parked q p => exact (same.keepSame _).pushSame _
  | waiting => exact same.pushSame _
  | again q => exact (same.keepSame _).pushSame _

theorem Resembles.takeStreamTurn (same : x.Resembles y) (w : Waker) (s : Stream) (frame : Frame)
    (turn : Turn) :
    (takeStreamTurn w s frame turn x).Resembles (takeStreamTurn w s frame turn y) := by
  cases turn with
  | finished result =>
    cases result with
    | ok v => exact (same.setStream _ _).pushSame _
    | error e => exact ((same.record (.same (.refused e))).setStream _ _).pushSame _
  | parked q p => exact (same.setStream _ _).pushSame _
  | waiting => exact same.pushSame _
  | again q => exact same.pushSame _

theorem Resembles.pollStream (same : x.Resembles y) (w : Waker) (task : Task) :
    (x.pollStream w task).Resembles (y.pollStream w task) := by
  rw [Executor.pollStream, Executor.pollStream]
  cases task.stream with
  | none => exact same.pushSame _
  | some s =>
    obtain ⟨bus, handle, id, place⟩ := s
    cases id with
    | none => exact same.pushSame _
    | some id =>
      cases place with
      | none =>
        exact same.access (Request.isBlind_pursue _ w) fun turn _ _ like =>
          like.takeStreamTurn w _ _ turn
      | some p =>
        exact same.access (Request.isBlind_advance _ p w) fun turn _ _ like =>
          like.takeStreamTurn w _ _ turn

/-! ### Going on with an instruction -/

theorem Resembles.act (same : x.Resembles y) (b : Nat) (caller : Caller) (action : Action) :
    (x.act b caller action).Resembles (y.act b caller action) := by
  cases action with
  | operate op =>
    rw [Executor.act, Executor.act]
    exact same.access op.isBlind_apply fun reply _ _ like => (like.record (.same reply)).pushSame _
  | describe => exact same.push (.cons (.complete caller (.text (same.summary b))) .nil)
  | describeInUse => exact same.pushSame _
  | dump => exact same.push (.cons (.complete caller (.text (same.dump b))) .nil)
  | lastError =>
    rw [Executor.act, Executor.act, same.slot]
    exact same.pushSame _
  | setLastError code => exact (same.setSlot code).pushSame _
  | drop t =>
    rw [Executor.act, Executor.act]
    exact same.dropTask t _

theorem Resembles.start (same : x.Resembles y) (w : Waker) (task : Task) (i : Instruction) :
    (x.start w task i).Resembles (y.start w task i) := by
  obtain ⟨b, deed⟩ := i
  rw [Executor.start, Executor.start]
  cases deed with
  | act action => exact same.act b _ action
  | call c => exact same.access (c.isBlind_start w) fun turn _ _ like => like.takeTurn w b _ turn
  | yield => exact (same.keepSame .yielded).pushSame _
  | stream h =>
    exact same.access (Registry.isBlind_look (fun r n => by rw [Registry.resolve_padded]) [])
      fun _ _ _ like => like.pushSame _
  | next => exact same.pollStream w task
  | tryNext => exact same.pollStream w task
  | collect => exact same.pollStream w task
  | hasEnded => cases task.stream <;> exact same.pushSame _
  | describeStream => cases task.stream <;> exact same.pushSame _
  | dropStream => exact same.replaceStream _ _
  | resolve h =>
    refine same.access (Registry.isBlind_look (fun r n => r.resolve_padded n h) [])
      fun found _ _ like => ?_
    cases found with
    | error e => exact like.pushSame _
    | ok a => exact (like.remember _ _).pushSame _
  | recvFrom h =>
    cases task.remembered with
    | none => exact same.pushSame _
    | some id =>
      exact same.access (Request.isBlind_pursue _ w) fun turn _ _ like => like.takeTurn w b _ turn
  | wait h side =>
    cases task.remembered with
    | none => exact same.pushSame _
    | some id =>
      have before := SameText.wait (same.summary b) ⟨h, id⟩ side .idle
      refine same.access (Registry.isBlind_park ⟨h, id⟩ side w) fun place _ _ like => ?_
      cases place with
      | none => exact like.push (.cons (.conclude w before .nil _ _ _ _) .nil)
      | some p => exact (like.keep (.waiting b p before .nil)).pushSame _

/-- A bare wait is looked at, whatever it has kept of its descriptions. -/
theorem Resembles.looksAtWait (same : x.Resembles y) {before before' : String}
    {after after' : List String} (progress : task.progress = .waiting b p before after)
    (progress' : task'.progress = .waiting b p before' after') (first : SameText before before')
    (later : List.Forall₂ SameText after after') (w : Waker) :
    (x.proceed w task).Resembles (y.proceed w task') := by
  rw [Executor.proceed, Executor.proceed, progress, progress']
  refine same.access (Registry.isBlind_revisit p w) fun standing z z' like => ?_
  have leaves (result : Except BusError Unit) :
      ((z.keep w.task .fresh).push
        [.conclude w before after b p.address p.side result]).Resembles
        ((z'.keep w.task .fresh).push
          [.conclude w before' after' b p.address p.side result]) :=
    (like.keepSame .fresh).push (.cons (.conclude w first later _ _ _ _) .nil)
  cases standing with
  | queued => exact like.pushSame _
  | called => exact leaves _
  | gone => exact leaves _

theorem Resembles.proceedSame (same : x.Resembles y) (w : Waker) (task : Task) :
    (x.proceed w task).Resembles (y.proceed w task) := by
  cases progress : task.progress with
  | fresh =>
    rw [Executor.proceed, Executor.proceed, progress]
    cases task.current? with
    | none => exact same.replaceStream _ _
    | some i => exact same.start w task i
  | calling bus q prior recorded =>
    rw [Executor.proceed, Executor.proceed, progress]
    cases prior with
    | none => exact same.access (q.isBlind_pursue w) fun turn _ _ like => like.takeTurn w bus _ turn
    | some p =>
      exact same.access (q.isBlind_advance p w) fun turn _ _ like => like.takeTurn w bus _ turn
  | yielded =>
    rw [Executor.proceed, Executor.proceed, progress]
    exact same.pushSame _
  | collecting items =>
    rw [Executor.proceed, Executor.proceed, progress]
    exact same.pollStream w task
  | waiting bus p before after =>
    exact same.looksAtWait progress progress (.same _) (List.forall₂_same.2 fun s _ => .same s) w

theorem Resembles.proceed (same : x.Resembles y) (w : Waker) (tasks : task.Resembles task') :
    (x.proceed w task).Resembles (y.proceed w task') := by
  cases tasks with
  | intro progresses =>
    generalize before : task.progress = progress at progresses
    cases progresses with
    | same =>
      subst before
      exact same.proceedSame w task
    | waiting b p first later => exact same.looksAtWait before rfl first later w

/-! ### Frames -/

theorem Resembles.rouse (same : x.Resembles y) (w : Waker) :
    (x.rouse w).Resembles (y.rouse w) := by
  rw [Executor.rouse, Executor.rouse]
  cases found : x.tasks[w.task]? with
  | none =>
    rw [same.missing found]
    exact same
  | some task =>
    obtain ⟨_, found', ⟨_⟩⟩ := same.found found
    rw [found', same.inline, same.ready]
    show (if task.isAlive then if x.inline && task.isIdle then _ else _ else _ :
      Executor).Resembles (if task.isAlive then if x.inline && task.isIdle then _ else _ else _)
    split
    · split
      · exact same.pushSame _
      · split
        · exact same
        · exact { same with ready := rfl, inline := rfl }
    · exact same

theorem Resembles.receive (same : x.Resembles y) (w : Waker) (tasks : task.Resembles task')
    (item : Option Message) : (x.receive w task item).Resembles (y.receive w task' item) := by
  have received (task : Task) : (x.receive w task item).Resembles (y.receive w task item) := by
    rw [Executor.receive, Executor.receive]
    split
    · cases item with
      | some m => exact (same.keepSame _).pushSame _
      | none => exact same.pushSame _
    · exact same.pushSame _
  cases tasks with
  | intro progresses =>
    generalize before : task.progress = progress at progresses
    cases progresses with
    | same =>
      subst before
      exact received task
    | waiting b p first later =>
      have current (progress : Progress) : ({ task with progress } : Task).current? =
        task.current? := rfl
      rw [Executor.receive, Executor.receive, before, current (.waiting b p _ _)]
      split
      · cases item with
        | some m => exact (same.keepSame _).pushSame _
        | none => exact same.pushSame _
      · exact same.pushSame _

theorem Resembles.observe (same : x.Resembles y) (t : Nat) (tasks : task.Resembles task') :
    (x.observe t task).Resembles (y.observe t task') := by
  rw [Executor.observe, Executor.observe]
  have observed (b : Nat) (p : Place) {before before' : String} {after after' : List String}
      (first : SameText before before') (later : List.Forall₂ SameText after after') :
      (x.keep t (.waiting b p before (after ++ [describeWait (x.summary b) p.address p.side
        (.parked p.ticket)]))).Resembles
        (y.keep t (.waiting b p before' (after' ++ [describeWait (y.summary b) p.address p.side
          (.parked p.ticket)]))) :=
    same.keep
      (.waiting b p first (List.rel_append later (.cons (.wait (same.summary b) _ _ _) .nil)))
  cases tasks with
  | intro progresses =>
    generalize task.progress = before at progresses
    cases progresses with
    | same =>
      rename_i progress
      cases progress with
      | waiting b p before after =>
        exact observed b p (.same before) (List.forall₂_same.2 fun s _ => .same s)
      | _ => exact same
    | waiting b p first later => exact observed b p first later

theorem Resembles.vacate (same : x.Resembles y) (t : Nat) (tasks : task.Resembles task') :
    (x.vacate t task).Resembles (y.vacate t task') := by
  rw [Executor.vacate, Executor.vacate, tasks.places]
  cases task.places with
  | nil => exact same
  | cons held later =>
    exact (same.pushSame [.vacate t]).giveUp fun z z' like =>
      like.modifyTask fun _ _ tasks => tasks.giveUpPlace

theorem Resembles.drain (same : x.Resembles y) (limit : Option Nat) (polled : Nat) :
    (x.drain limit polled).Resembles (y.drain limit polled) := by
  have alive (t : Nat) := same.map_tasks (·.isAlive) (fun _ _ => rfl) t
  unfold Executor.drain
  rw [same.ready]
  split
  · exact same.respondSame _
  · exact same.respondSame _
  · simp only [alive]
    split
    · exact (same.setReady _).pushSame _
    · exact (same.setReady _).pushSame _

theorem Resembles.complete (same : x.Resembles y) (caller : Caller) {reply reply' : Reply}
    (replies : reply.Resembles reply') :
    (x.perform (.complete caller reply)).Resembles (y.perform (.complete caller reply')) := by
  cases caller with
  | outside => exact same.respond replies
  | task w =>
    refine same.withTask fun task task' tasks => ?_
    have position : task'.position = task.position := by
      cases tasks
      rfl
    rw [position]
    exact ((same.happen (.completed w.task task.position replies)).modifyTask
      fun _ _ tasks => tasks.advance replies).pushSame _

theorem Resembles.conclude (same : x.Resembles y) (w : Waker) {before before' : String}
    {after after' : List String} (first : SameText before before')
    (later : List.Forall₂ SameText after after') (b : Nat) (a : Address) (side : Side)
    (result : Except BusError Unit) :
    (x.perform (.conclude w before after b a side result)).Resembles
      (y.perform (.conclude w before' after' b a side result)) := by
  have last := SameText.wait (same.summary b) a side .left
  have all := List.rel_append later (.cons last .nil)
  exact same.push (.cons (.complete _ (.wait first all result _)) .nil)

theorem Resembles.perform (same : x.Resembles y) (f : Frame) :
    (x.perform f).Resembles (y.perform f) := by
  cases f with
  | release b => exact same.setInUse false
  | wake wakers =>
    cases wakers with
    | nil => exact same
    | cons w later => exact ((same.pushSame [.wake later]).happenSame (.woken w)).rouse w
  | tell notes => exact same.tell notes
  | poll w =>
    refine same.withTask fun task task' tasks => ?_
    have idle : task'.isIdle = task.isIdle := by
      cases tasks
      rfl
    rw [idle]
    split
    · exact ((same.happenSame _).setLife _ .running).pushSame _
    · exact same
  | proceed w => exact same.withTask fun _ _ tasks => same.proceed w tasks
  | suspend t => exact (same.happenSame _).setLife t .idle
  | complete caller reply => exact same.complete caller (.same reply)
  | receive w item => exact same.withTask fun _ _ tasks => same.receive w tasks item
  | adopt w s => exact same.replaceStream _ _
  | observe t => exact same.withTask fun _ _ tasks => same.observe t tasks
  | conclude w before after b a side result =>
    exact same.conclude w (.same before) (List.forall₂_same.2 fun s _ => .same s) b a side result
  | finish t => exact (same.happenSame _).setLife t .ended
  | vacate t => exact same.withTask fun _ _ tasks => same.vacate t tasks
  | leave t =>
    refine same.withTask fun task task' tasks => ?_
    have life : task'.life = task.life := by
      cases tasks
      rfl
    rw [life]
    split
    · refine (same.modifyTask fun task _ tasks => ?_).pushSame _
      cases tasks
      exact .refl task.breakOff
    · exact same
  | drain limit polled => exact same.drain limit polled
  | verdict t =>
    refine same.withTask fun task task' tasks => ?_
    have alive : task'.isAlive = task.isAlive := by
      cases tasks
      rfl
    rw [alive]
    exact same.respondSame _

/-! ### Steps and requests -/

/-- The same step leaves alike what differs in free slots only. -/
theorem Resembles.step (same : x.Resembles y) : x.step.Resembles y.step := by
  have frames := same.stack
  cases stack : x.stack with
  | nil =>
    rw [stack, List.forall₂_nil_left_iff] at frames
    rw [step_of_stack_nil stack, step_of_stack_nil frames]
    exact same
  | cons f rest =>
    rw [stack] at frames
    obtain ⟨f', rest', top, below, stack'⟩ := List.forall₂_cons_left_iff.1 frames
    rw [step_of_stack_cons stack, step_of_stack_cons stack']
    have under : ({ x with stack := rest } : Executor).Resembles { y with stack := rest' } :=
      { same with stack := below }
    cases top with
    | same => exact under.perform f
    | complete caller replies => exact under.complete caller replies
    | conclude w first later b a side result => exact under.conclude w first later b a side result

/-- An executor of which nothing was seen, and that has answered nothing. -/
def cleared (x : Executor) : Executor := { x with log := [], answer := none }

theorem Resembles.cleared (same : x.Resembles y) : x.cleared.Resembles y.cleared :=
  { same with log := .nil, answer := .none }

theorem Resembles.addBus (same : x.Resembles y) :
    ({ x with buses := x.buses ++ [.empty] } : Executor).Resembles
      { y with buses := y.buses ++ [.empty] } := by
  refine { same with buses := fun b => ?_ }
  show Option.Rel _ (x.buses ++ [.empty])[b]? (y.buses ++ [.empty])[b]?
  rw [List.getElem?_append, List.getElem?_append, length_eq_of_rel same.buses]
  split
  · exact same.buses b
  · cases b - x.buses.length with
    | zero => exact .some (.refl _)
    | succ n => exact .none

theorem Resembles.spawn (same : x.Resembles y) (program : List Instruction) (stopsOnError : Bool) :
    ({ x with
      tasks := x.tasks ++ [.new program stopsOnError]
      ready := x.ready ++ [x.tasks.length] } : Executor).Resembles
      { y with
        tasks := y.tasks ++ [.new program stopsOnError]
        ready := y.ready ++ [y.tasks.length] } := by
  have length := length_eq_of_rel same.tasks
  refine { same with tasks := fun t => ?_, ready := by rw [same.ready, length] }
  show Option.Rel _ (x.tasks ++ [_])[t]? (y.tasks ++ [_])[t]?
  rw [List.getElem?_append, List.getElem?_append, length]
  split
  · exact same.tasks t
  · cases t - x.tasks.length with
    | zero => exact .some (.refl _)
    | succ n => exact .none

/-- The same request does so too. -/
theorem Resembles.ask (same : x.Resembles y) (s : Step) : (x.ask s).Resembles (y.ask s) := by
  cases s with
  | act b action => exact same.act b .outside action
  | addBus =>
    rw [Executor.ask, Executor.ask, length_eq_of_rel same.buses]
    exact same.addBus.respondSame _
  | spawn program stopsOnError =>
    have spawned := same.spawn program stopsOnError
    rw [length_eq_of_rel same.tasks] at spawned
    rw [Executor.ask, Executor.ask, length_eq_of_rel same.tasks]
    exact spawned.respondSame _
  | run limit => exact same.pushSame _
  | poll w =>
    rw [Executor.ask, Executor.ask, same.map_tasks (·.isIdle) fun _ _ => rfl]
    split
    · exact same.pushSame _
    · exact same.respondSame _
  | dropInUse b t =>
    rw [Executor.ask, Executor.ask]
    exact (same.setInUse true).dropTask t _
  | report => exact same.respond (.report same.counters)

/-- However both go on, they resemble each other. -/
theorem Resembles.followAll (same : x.Resembles y) (moves : List (Option Step)) :
    (x.followAll moves).Resembles (y.followAll moves) := by
  induction moves generalizing x y with
  | nil => exact same
  | cons move moves ih =>
    refine ih (x := x.follow move) (y := y.follow move) ?_
    cases move with
    | none => exact same.step
    | some s => exact same.cleared.ask s

end MessageBus.Executor
