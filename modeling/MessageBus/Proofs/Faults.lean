import MessageBus.Proofs.Trades

/-!
# No fault is committed

A run in which every request names buses that are there, and drops no task while a bus is in use,
commits no fault (`Executor.IsFaultless`). Each promise is kept by another part of the library: a
queue is asked for what it holds since the channel counts before it takes, a ticket is new since the
registry never gives one out twice, and a bus is free when it is entered since it is given free
before any waker is called. So whatever a waker sets off finds every bus free.

An errand that is carried out commits no fault by itself (`Errand.exists_effect`). What is left to
see is that no step answers with one.
-/

namespace MessageBus

/-- Whether a frame may answer what was asked from outside. -/
def Frame.Responds : Frame → Prop
  | .complete .outside _ => True
  | .drain _ _ => True
  | .verdict _ => True
  | _ => False

namespace Executor

variable {α : Type} {u : Usage} {x y : Executor} {w : Waker} {b t : Nat} {task : Task} {f : Frame}
  {rest : List Frame}

/-! ### Steps that answer nothing -/

/-- Whether what is done next leaves the answer as it is. -/
def IsMute (go : Executor → Executor) : Prop := ∀ x, (go x).answer = x.answer

theorem answer_tell (x : Executor) (notes : List Note) : (x.tell notes).answer = x.answer := by
  induction notes generalizing x with
  | nil => rfl
  | cons n notes ih =>
    refine (ih (x.tellOne n)).trans ?_
    rw [tellOne]
    split <;> rfl

theorem isMute_takeTurn (w : Waker) (b : Nat) (recorded : Bool) (turn : Turn) :
    IsMute (takeTurn w b recorded turn) := by
  intro x
  cases turn <;> cases recorded <;> rfl

theorem isMute_takeStreamTurn (w : Waker) (s : Stream) (ifPending : Frame) (turn : Turn) :
    IsMute (takeStreamTurn w s ifPending turn) := by
  intro x
  rcases turn with ⟨_ | _⟩ | _ | _ | _ <;> rfl

/-- Whether every bus is free, and in balance with stays that are held on it. -/
def IsServing (x : Executor) : Prop :=
  ∀ (b : Nat) bus, x.buses[b]? = some bus → bus.inUse = false ∧ ∃ held, bus.registry.Balanced held

theorem Sound.isServing (sound : x.Sound u) (calm : ∀ b, x.isInUse b = false) : x.IsServing := by
  intro b bus there
  have free := calm b
  rw [isInUse, there] at free
  exact ⟨free, _, registry_of_bus there ▸ sound.balanced b⟩

/-- An access to a bus answers nothing by itself. -/
theorem IsServing.answer_access (serving : x.IsServing) (inside : b < x.buses.length)
    {g : Registry Waker → Except Fault (Outcome (Registry Waker) Waker α)}
    {next : α → Executor → Executor}
    (ran : ∀ r held, r.Balanced held → ∃ o, g r = .ok o) (mute : ∀ a, IsMute (next a)) :
    (x.access b g next).answer = x.answer := by
  have there := List.getElem?_eq_getElem inside
  obtain ⟨free, held, bal⟩ := serving b _ there
  obtain ⟨o, ran⟩ := ran _ held bal
  rw [access, there]
  simp only [free, ran, Bool.false_eq_true, ite_false]
  exact (mute o.answer _).trans (answer_tell _ _)

theorem exists_look (q : Request) (prior : Option Place) (w : Waker) (r : Registry Waker)
    (held : List Stay) (bal : r.Balanced held) : ∃ o, q.look r prior w = .ok o := by
  obtain ⟨o, ran, -⟩ := Request.look_looked bal q prior w
  exact ⟨o, ran⟩

theorem exists_start (c : Call) (w : Waker) (r : Registry Waker) (held : List Stay)
    (bal : r.Balanced held) : ∃ o, c.start r w = .ok o := by
  rw [Call.start]
  cases c.resolve r with
  | error e => exact ⟨_, rfl⟩
  | ok q => exact exists_look q none w r held bal

theorem IsServing.answer_giveUp (serving : x.IsServing) (inside : b < x.buses.length) (p : Place)
    {forget : Executor → Executor} (mute : IsMute forget) :
    (x.giveUp b p forget).answer = x.answer := by
  have there := List.getElem?_eq_getElem inside
  have free : x.isInUse b = false := by
    rw [isInUse, there]
    exact (serving b _ there).1
  rw [giveUp, if_neg (by simp [free])]
  exact serving.answer_access inside (fun r _ _ => ⟨_, rfl⟩) fun _ => mute

theorem IsServing.answer_replaceStream (serving : x.IsServing)
    (sound : ∀ task, x.tasks[t]? = some task → task.Sound u x.buses.length)
    (stream : Option Stream) (frames : List Frame) :
    (x.replaceStream t stream frames).answer = x.answer := by
  rw [replaceStream]
  cases holds : (x.tasks[t]?).bind (·.streamPlace) with
  | none => rfl
  | some held =>
    obtain ⟨task, found, there⟩ := Option.bind_eq_some_iff.1 holds
    have holds : held ∈ task.places := by
      rw [Task.places, there]
      exact List.mem_append_right _ List.mem_cons_self
    have inside := Task.inside_of_places (sound task found) holds
    exact serving.answer_giveUp inside held.2 fun _ => rfl

theorem IsServing.answer_pollStream (serving : x.IsServing) (sound : task.Sound u x.buses.length)
    (w : Waker) : (x.pollStream w task).answer = x.answer := by
  cases stream : task.stream with
  | none => rw [pollStream, stream]; rfl
  | some s =>
    have inside := sound.stream s stream
    obtain ⟨bus, handle, id, place⟩ := s
    rw [pollStream, stream]
    rcases id with _ | id
    · rfl
    · cases place with
      | none =>
        exact serving.answer_access inside (exists_look (.recv ⟨handle, id⟩) none w)
          (isMute_takeStreamTurn w _ _)
      | some p =>
        exact serving.answer_access inside (exists_look (.recv ⟨handle, id⟩) (some p) w)
          (isMute_takeStreamTurn w _ _)

/-- Dropping a task answers nothing by itself. -/
theorem answer_dropTask (x : Executor) (t : Nat) (andThen : Bool → List Frame) :
    (x.dropTask t andThen).answer = x.answer := by
  rw [dropTask]
  split
  · rfl
  · split <;> rfl

theorem IsServing.answer_act (serving : x.IsServing) (inside : b < x.buses.length)
    (caller : Caller) (action : Action) : (x.act b caller action).answer = x.answer := by
  cases action with
  | operate op =>
    refine serving.answer_access inside (fun r _ _ => ?_) fun _ _ => rfl
    obtain ⟨o, ran, -⟩ := op.apply_handles r
    exact ⟨o, ran⟩
  | drop t => exact x.answer_dropTask t _
  | _ => rfl

theorem IsServing.answer_start (serving : x.IsServing) (sound : task.Sound u x.buses.length)
    (found : x.tasks[w.task]? = some task) {i : Instruction} (current : task.current? = some i) :
    (x.start w task i).answer = x.answer := by
  have inside : i.bus < x.buses.length := (sound.program i (List.mem_of_getElem? current)).1
  obtain ⟨bus, deed⟩ := i
  cases deed with
  | act action => exact serving.answer_act inside _ action
  | call c => exact serving.answer_access inside (exists_start c w) (isMute_takeTurn w bus true)
  | yield => rfl
  | stream h => exact serving.answer_access inside (fun r _ _ => ⟨_, rfl⟩) fun _ _ => rfl
  | next => exact serving.answer_pollStream sound w
  | tryNext => exact serving.answer_pollStream sound w
  | collect => exact serving.answer_pollStream sound w
  | hasEnded => rw [start]; cases task.stream <;> rfl
  | describeStream => rw [start]; cases task.stream <;> rfl
  | dropStream =>
    refine serving.answer_replaceStream (u := u) (fun task' there => ?_) none _
    cases found.symm.trans there
    exact sound
  | resolve h =>
    refine serving.answer_access inside (fun r _ _ => ⟨_, rfl⟩) fun a y => ?_
    cases a <;> rfl
  | recvFrom h =>
    rw [start]
    cases task.remembered with
    | none => rfl
    | some id =>
      exact serving.answer_access inside (exists_look (.recv ⟨h, id⟩) none w)
        (isMute_takeTurn w bus false)
  | wait h side =>
    rw [start]
    cases task.remembered with
    | none => rfl
    | some id =>
      refine serving.answer_access inside (fun r held bal => ?_) fun a y => ?_
      · obtain ⟨o, ran⟩ := (Errand.park ⟨h, id⟩ side w).exists_effect bal
        obtain ⟨p, parked, -⟩ := Outcome.of_map_eq_ok ran
        exact ⟨p, parked⟩
      · cases a <;> rfl

theorem IsServing.answer_proceed (serving : x.IsServing) (sound : task.Sound u x.buses.length)
    (found : x.tasks[w.task]? = some task) : (x.proceed w task).answer = x.answer := by
  have kept := sound.progress
  rw [proceed]
  cases progress : task.progress with
  | fresh =>
    cases current : task.current? with
    | none =>
      refine serving.answer_replaceStream (u := u) (fun task' there => ?_) none _
      cases found.symm.trans there
      exact sound
    | some i => exact serving.answer_start sound found current
  | calling bus q prior recorded =>
    rw [progress] at kept
    cases prior with
    | none =>
      exact serving.answer_access kept.1 (exists_look q none w) (isMute_takeTurn w bus recorded)
    | some p =>
      exact serving.answer_access kept.1 (exists_look q (some p) w) (isMute_takeTurn w bus recorded)
  | yielded => rfl
  | collecting items => exact serving.answer_pollStream sound w
  | waiting bus p before after =>
    rw [progress] at kept
    refine serving.answer_access kept (fun r _ _ => ⟨_, rfl⟩) fun a y => ?_
    cases a <;> rfl

/-- A task that is over gives up its places without an answer. -/
theorem IsServing.answer_vacate (serving : x.IsServing) (sound : task.Sound u x.buses.length)
    (t : Nat) : (x.vacate t task).answer = x.answer := by
  rw [vacate]
  cases places : task.places with
  | nil => rfl
  | cons held later =>
    have inside := Task.inside_of_places sound (places ▸ List.mem_cons_self)
    have serving : (x.push [.vacate t]).IsServing := serving
    exact serving.answer_giveUp inside held.2 fun _ => rfl

theorem answer_withTask {go : Task → Executor}
    (same : ∀ task, x.tasks[t]? = some task → (go task).answer = x.answer) :
    (x.withTask t go).answer = x.answer :=
  withTask_cases (motive := (·.answer = x.answer)) (fun _ => rfl) same

/-- Only a frame that responds answers anything. -/
theorem Sound.answer_step_eq (sound : x.Sound u) (stack : x.stack = f :: rest)
    (mute : ¬f.Responds) : x.step.answer = x.answer := by
  rw [step_of_stack_cons stack]
  have serving (top : ∀ b, f ≠ .release b) : ({ x with stack := rest } : Executor).IsServing :=
    sound.isServing (sound.calm stack top)
  have task_sound {t : Nat} {task : Task} (found : x.tasks[t]? = some task) :
      task.Sound u x.buses.length := sound.tasks task (List.mem_of_getElem? found)
  cases f with
  | release b => rfl
  | wake wakers =>
    cases wakers with
    | nil => rfl
    | cons w later =>
      rw [perform, rouse]
      split
      · rfl
      · split
        · split
          · rfl
          · split <;> rfl
        · rfl
  | tell notes => exact answer_tell _ notes
  | poll w =>
    refine answer_withTask fun task found => ?_
    split <;> rfl
  | proceed w =>
    exact answer_withTask fun task found =>
      (serving fun _ => Frame.noConfusion).answer_proceed (task_sound found) found
  | suspend t => rfl
  | complete caller reply =>
    cases caller with
    | outside => exact absurd trivial mute
    | task w => exact answer_withTask fun _ _ => rfl
  | receive w item =>
    refine answer_withTask fun task found => ?_
    rw [receive]
    split
    · cases item <;> rfl
    · rfl
  | adopt w s =>
    exact (serving fun _ => Frame.noConfusion).answer_replaceStream
      (fun _ found => task_sound found) _ _
  | observe t =>
    refine answer_withTask fun task found => ?_
    rw [observe]
    split <;> rfl
  | conclude w before after b a side result => rfl
  | finish t => rfl
  | vacate t =>
    exact answer_withTask fun task found =>
      (serving fun _ => Frame.noConfusion).answer_vacate (task_sound found) t
  | leave t =>
    refine answer_withTask fun task found => ?_
    split <;> rfl
  | drain limit polled => exact absurd trivial mute
  | verdict t => exact absurd trivial mute

/-- A fault that is answered was answered before, unless it is what is answered now. -/
theorem of_respond_eq_fault {reply : Reply} {fault : Fault}
    (answered : (x.respond reply).answer = some (.fault fault)) :
    x.answer = some (.fault fault) ∨ reply = .fault fault := by
  rw [respond] at answered
  cases before : x.answer with
  | none =>
    rw [before] at answered
    exact .inr (Option.some.inj answered)
  | some r =>
    rw [before] at answered
    exact .inl answered

/-- In a sound executor no step commits a fault. -/
theorem Sound.answer_step (sound : x.Sound u) {fault : Fault}
    (answered : x.step.answer = some (.fault fault)) : x.answer = some (.fault fault) ∨
      .complete .outside (.fault fault) ∈ x.stack := by
  cases stack : x.stack with
  | nil => exact .inl (step_of_stack_nil stack ▸ answered)
  | cons f rest =>
    by_cases responds : f.Responds
    · rw [step_of_stack_cons stack] at answered
      cases f with
      | complete caller reply =>
        cases caller with
        | outside =>
          refine (of_respond_eq_fault answered).imp id fun here => ?_
          rw [here]
          exact List.mem_cons_self
        | task _ => exact responds.elim
      | drain limit polled =>
        rw [perform] at answered
        unfold drain at answered
        split at answered
        · exact (of_respond_eq_fault answered).imp id Reply.noConfusion
        · exact (of_respond_eq_fault answered).imp id Reply.noConfusion
        · dsimp only at answered
          split at answered <;> exact .inl answered
      | verdict t =>
        rw [perform] at answered
        cases found : x.tasks[t]? with
        | none =>
          rw [withTask_of_none (x := { x with stack := rest }) found] at answered
          exact .inl answered
        | some task =>
          rw [withTask_of_found (x := { x with stack := rest }) found] at answered
          exact (of_respond_eq_fault answered).imp id Reply.noConfusion
      | _ => exact responds.elim
    · exact .inl (sound.answer_step_eq stack responds ▸ answered)

/-! ### Replies from outside -/

theorem Quiet.not_responds {change : Task → Task} {frames : List Frame}
    (quiet : x.Quiet f t change frames) : ∀ g ∈ frames, ¬g.Responds := by
  cases quiet with
  | replaces replaces _ => cases replaces <;> simp [Frame.Responds]
  | _ => simp [Frame.Responds]

theorem Sequel.not_responds {e : Errand Waker} {o : Outcome (Registry Waker) Waker Upshot}
    {change : Task → Task} {frames : List Frame} (sequel : x.Sequel f b e o t change frames) :
    ∀ g ∈ frames, ¬g.Responds := by
  cases sequel with
  | @looks _ _ _ _ _ _ p _ _ _ =>
    rcases p.answer with _ | _ | _ | _ <;> simp [Turn.frame, Frame.Responds]
  | @looksAtStream w task _ _ p _ _ _ _ _ =>
    have pending : ¬(task.ifPending w).Responds := by
      rw [Task.ifPending]
      split <;> simp [Frame.Responds]
    refine List.forall_mem_singleton.2 ?_
    rcases p.answer with ⟨_ | _⟩ | _ | _ | _
    case parked => exact pending
    case waiting => exact pending
    all_goals simp [Turn.streamFrame, Frame.Responds]
  | abandons forgets =>
    cases forgets with
    | stream replaces _ _ => cases replaces <;> simp [Frame.Responds]
    | place _ _ => simp [Frame.Responds]
  | _ => simp [Frame.Responds]

/-- What a step puts on the stack does not respond, unless it goes on with the ready list. -/
theorem Sound.not_responds_step (sound : x.Sound u) (stack : x.stack = f :: rest) :
    ∃ frames, x.step.stack = frames ++ rest ∧
      ∀ g ∈ frames, g.Responds → ∃ limit polled, g = .drain limit polled ∧ f.Responds := by
  have above (frames : List Frame) (stack' : x.step.stack = frames ++ rest)
      (mute : ∀ g ∈ frames, ¬g.Responds) : ∃ frames, x.step.stack = frames ++ rest ∧
        ∀ g ∈ frames, g.Responds → ∃ limit polled, g = .drain limit polled ∧ f.Responds :=
    ⟨frames, stack', fun g member responds => absurd responds (mute g member)⟩
  cases x.step_unfolds stack with
  | quiet _ quiet leads => exact above _ leads.stack quiet.not_responds
  | releases _ leads => exact above [] leads.stack (List.forall_mem_nil _)
  | polls _ _ _ leads _ => exact above [_, _] leads.stack (by simp [Frame.Responds])
  | readies _ leads _ _ _ => exact above [_] leads.stack (by simp [Frame.Responds])
  | drains _ _ alive leads _ =>
    refine ⟨_, leads.stack.trans (List.append_cons _ _ _), fun g member responds => ?_⟩
    rcases List.mem_append.1 member with polls | drains
    · rcases alive with rfl | ⟨rfl, -⟩
      · cases List.mem_singleton.1 polls
        exact responds.elim
      · cases polls
    · exact ⟨_, _, List.mem_singleton.1 drains, trivial⟩
  | enters _ _ sequel leads =>
    refine above (_ :: _ :: _ :: _) leads.stack ?_
    simpa [Frame.Responds] using sequel.not_responds
  | fails errand failed _ _ _ _ => exact absurd failed (sound.carried errand)

/-- Whether a frame is not about to answer with a fault. -/
def IsHarmless (f : Frame) : Prop := ∀ fault, f ≠ .complete .outside (.fault fault)

/-- No step goes to answer with a fault later. -/
theorem Sound.isHarmless_step (sound : x.Sound u) (harmless : ∀ g ∈ x.stack, IsHarmless g) :
    ∀ g ∈ x.step.stack, IsHarmless g := by
  cases stack : x.stack with
  | nil =>
    rw [step_of_stack_nil stack]
    exact harmless
  | cons f rest =>
    rw [stack] at harmless
    obtain ⟨frames, stack', mute⟩ := sound.not_responds_step stack
    rw [stack']
    refine List.forall_mem_append.2
      ⟨fun g member fault here => ?_, (List.forall_mem_cons.1 harmless).2⟩
    obtain ⟨_, _, drains, -⟩ := mute g member (here ▸ trivial)
    cases here.symm.trans drains

theorem ofExcept_ne_fault {β : Type} (value : β → Value) (result : Except BusError β)
    (fault : Fault) : Reply.ofExcept value result ≠ .fault fault := by
  cases result <;> exact Reply.noConfusion

/-- An operation is never answered with a fault. -/
theorem answer_ne_fault {op : Operation} {r : Registry Waker}
    {o : Outcome (Registry Waker) Waker Reply} (ran : op.apply r = .ok o) (fault : Fault) :
    o.answer ≠ .fault fault := by
  have answered {β : Type} {value : β → Value}
      {done : Except Fault (Outcome (Registry Waker) Waker (Except BusError β))}
      (ran : Operation.apply.answer value done = .ok o) : o.answer ≠ .fault fault := by
    obtain ⟨p, -, rfl⟩ := Outcome.of_map_eq_ok ran
    exact ofExcept_ne_fault value p.answer fault
  cases op with
  | trySend h m => exact answered ran
  | trySendMany h ms => exact answered ran
  | tryRecv h => exact answered ran
  | tryRecvMany h limit => exact answered ran
  | openChannel _ | close _ | delete | isOpen _ | channelCount =>
    cases ran
    exact Reply.noConfusion
  | size _ | isEmpty _ | capacity _ | waiting _ _ | tryBroadcast _ =>
    cases ran
    exact ofExcept_ne_fault _ _ fault

/-- No fault was committed, and none is about to be answered. -/
structure IsBlameless (x : Executor) : Prop where
  answer : ∀ fault, x.answer ≠ some (.fault fault)
  stack : ∀ g ∈ x.stack, IsHarmless g

/-- What is asked for from outside commits no fault. -/
theorem Sound.isBlameless_ask (sound : x.Sound u) (idle : x.stack = []) {s : Step}
    (lawful : s.Lawful u x.buses.length) :
    IsBlameless ({ x with log := [], answer := none }.ask s) := by
  have pushed (frames : List Frame) (harmless : ∀ g ∈ frames, IsHarmless g) {y : Executor}
      (answer : y.answer = none) (stack : y.stack = frames ++ x.stack) : IsBlameless y := by
    refine ⟨fun fault => by rw [answer]; exact nofun, ?_⟩
    rw [stack, idle, List.append_nil]
    exact harmless
  have replied (reply : Reply) (other : ∀ fault, reply ≠ .fault fault) {y : Executor}
      (answer : y.answer = some reply) (stack : y.stack = x.stack) : IsBlameless y := by
    refine ⟨fun fault same => other fault (Option.some.inj (answer.symm.trans same)), ?_⟩
    rw [stack, idle]
    exact List.forall_mem_nil _
  have replies (reply : Reply) (other : ∀ fault, reply ≠ .fault fault) :
      ∀ g ∈ [Frame.complete .outside reply], IsHarmless g :=
    List.forall_mem_singleton.2 fun fault same => other fault (Frame.complete.inj same).2
  cases s with
  | act b action =>
    cases action with
    | operate op =>
      have serving : ({ x with log := [], answer := none } : Executor).IsServing :=
        sound.isServing (sound.calm_of_idle idle)
      have answer := serving.answer_act lawful .outside (.operate op)
      cases ({ x with log := [], answer := none } : Executor).ask_asked (.act b (.operate op)) with
      | operates ran _ leads =>
        refine pushed (_ :: _ :: _ :: _ :: []) ?_ answer leads.stack
        simpa [IsHarmless] using fun fault => answer_ne_fault ran fault
      | answers none => cases none
      | fails failed _ _ _ =>
        exact absurd failed (sound.cleared.carried_of_free lawful (sound.calm_of_idle idle b) _)
    | drop t =>
      rw [Executor.ask, act, dropTask]
      split
      · exact pushed _ (replies _ fun _ => Reply.noConfusion) rfl rfl
      · split
        · exact pushed [_, _] (by simp [IsHarmless]) rfl rfl
        · exact pushed _ (replies _ fun _ => Reply.noConfusion) rfl rfl
    | _ => exact pushed _ (replies _ fun _ => Reply.noConfusion) rfl rfl
  | addBus => exact replied _ (fun _ => Reply.noConfusion) rfl rfl
  | spawn program stopsOnError => exact replied _ (fun _ => Reply.noConfusion) rfl rfl
  | run limit => exact pushed [_] (by simp [IsHarmless]) rfl rfl
  | poll w =>
    rw [Executor.ask]
    split
    · exact pushed [_, _] (by simp [IsHarmless]) rfl rfl
    · exact replied _ (fun _ => Reply.noConfusion) rfl rfl
  | dropInUse b t => exact lawful.elim
  | report => exact replied _ (fun _ => Reply.noConfusion) rfl rfl

theorem Reachable.isBlameless (reachable : x.Reachable u) : IsBlameless x := by
  obtain ⟨inline, run⟩ := reachable
  induction run with
  | refl => exact ⟨fun _ => nofun, List.forall_mem_nil _⟩
  | tail run next ih =>
    have sound := Reachable.sound ⟨inline, run⟩
    cases next with
    | step =>
      refine ⟨fun fault answered => ?_, sound.isHarmless_step ih.stack⟩
      rcases sound.answer_step answered with before | later
      · exact ih.answer fault before
      · exact ih.stack _ later fault rfl
    | ask idle lawful => exact sound.isBlameless_ask idle lawful

/-! ### Safety -/

/-- Whatever is done next is done without a fault, and no waker is called and nobody goes on while a
bus is in use. -/
structure IsFaultless (u : Usage) (x : Executor) : Prop where
  /-- No fault was committed since something was last asked from outside. -/
  answer : ∀ fault, x.answer ≠ some (.fault fault)
  /-- Whoever enters a bus finds it there and free, and the operation is carried out. -/
  enters : ∀ b (e : Errand Waker), x.errand? = some (b, e) → ∃ bus o, x.buses[b]? = some bus ∧
    bus.inUse = false ∧ e.effect bus.registry = .ok o
  /-- So is an operation that is asked for from outside. -/
  asks : ∀ (s : Step) b (e : Errand Waker), x.stack = [] → s.Lawful u x.buses.length →
    s.errand? = some (b, e) → ∃ bus o, x.buses[b]? = some bus ∧ bus.inUse = false ∧
      e.effect bus.registry = .ok o
  /-- While a bus is in use, nothing is done but to give it free: no waker is called, and no task
  goes on or is dropped. -/
  calm : ∀ b, x.isInUse b = true → x.stack.head? = some (.release b)
  /-- No more messages are taken from a batch than it holds. -/
  fitting : ∀ b a c ms, (x.registry b).find? a = some c → c.fitting ms ≤ ms.length

/-- An errand that is carried out finds its bus there and free. -/
theorem exists_bus_of_carried {e : Errand Waker} (carried : x.carried b e ≠ none) :
    ∃ bus o, x.buses[b]? = some bus ∧ bus.inUse = false ∧ e.effect bus.registry = .ok o := by
  obtain ⟨o, carried⟩ := Option.ne_none_iff_exists'.1 carried
  obtain ⟨bus, there, ran⟩ := Option.bind_eq_some_iff.1 carried
  split at ran
  · cases ran
  · rename_i free
    have effect := effect_of_carried carried
    rw [registry_of_bus there] at effect
    exact ⟨bus, o, there, Bool.eq_false_iff.2 free, effect⟩

/-- No run commits a fault. -/
theorem runs_are_faultless (reachable : x.Reachable u) : x.IsFaultless u where
  answer := reachable.isBlameless.answer
  enters b e errand := exists_bus_of_carried (reachable.sound.carried errand)
  asks s b e idle lawful errand := by
    have free := reachable.sound.calm_of_idle idle b
    cases s with
    | act b' action =>
      cases action with
      | operate op =>
        cases errand
        exact exists_bus_of_carried (reachable.sound.carried_of_free lawful free _)
      | _ => cases errand
    | _ => cases errand
  calm := reachable.sound.free
  fitting _ _ c ms _ := c.fitting_le_length ms

/-- A receiver that goes on within the wakeup of a batch send drops a task that waits on the same
channel, and then closes it. -/
def dropsWithinWakeup : List Step :=
  [.act 0 (.operate (.openChannel 1)),
    .spawn [⟨0, .call (.recv 0)⟩, ⟨0, .act (.drop 1)⟩, ⟨0, .act (.operate (.close 0))⟩] false,
    .spawn [⟨0, .call (.recv 0)⟩] false, .run none]

/-- The batch send has woken the receiver, and the task that it dropped is to give up its place. -/
def droppingWithinWakeup : Executor :=
  settle 9 ({ ((new true).runScript dropsWithinWakeup).1 with
    log := [], answer := none }.ask (.act 0 (.operate (.trySendMany 0 [5, 6]))))

theorem drop_within_wakeup_faultless : droppingWithinWakeup.IsFaultless .full ∧
    droppingWithinWakeup.stack.length = 6 ∧ ∃ e bus o, droppingWithinWakeup.errand? = some (0, e) ∧
      droppingWithinWakeup.buses[0]? = some bus ∧ bus.inUse = false ∧
      e.effect bus.registry = .ok o := by
  have obeys : (new true).Obeys .full dropsWithinWakeup := by decide +kernel
  have idle : ((new true).runScript dropsWithinWakeup).1.stack.isEmpty = true := by decide +kernel
  have lawful : (Step.act 0 (.operate (.trySendMany 0 [5, 6]))).Lawful .full
      ((new true).runScript dropsWithinWakeup).1.buses.length := by decide +kernel
  have reachable : droppingWithinWakeup.Reachable .full :=
    (((reachable_new .full true).runScript obeys).next
      (.ask (List.isEmpty_iff.1 idle) lawful)).settle 9
  have faultless := runs_are_faultless reachable
  have entered : droppingWithinWakeup.errand?.map (·.1) = some 0 := by decide +kernel
  obtain ⟨⟨b, e⟩, errand, rfl⟩ := Option.map_eq_some_iff.1 entered
  obtain ⟨bus, o, there⟩ := faultless.enters 0 e errand
  exact ⟨faultless, by decide +kernel, e, bus, o, errand, there⟩

end Executor

end MessageBus
