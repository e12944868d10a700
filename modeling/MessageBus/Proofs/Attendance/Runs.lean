import MessageBus.Proofs.Attendance.Streams

/-!
# Every run is attentive

A task that goes on looks at every place that it holds, since it holds one at most. Until then it
is ready, or somewhere on the stack it is told to go on. So a step of a run leaves nobody
unattended, and nor does a request from outside: every executor that a run comes by is attentive, as
long as no task looks at its stream only once (`Reachable.attentive`).
-/

namespace MessageBus

namespace Executor

variable {u : Usage} {x y : Executor} {f : Frame} {t b : Nat} {p : Place} {task : Task}
  {w : Waker} {rest : List Frame}

/-! ### A step -/

/-- A task that is at its stream enters a bus if the stream does. -/
theorem taskErrand?_of_atStream (atStream : task.IsAtStream) :
    x.taskErrand? w task = task.stream.bind (·.errand? w) := by
  rw [taskErrand?]
  rcases atStream with ⟨fresh, looks⟩ | ⟨items, collecting⟩
  · rw [fresh]
    rw [Task.looksAtStream] at looks
    split at looks
    · rename_i current
      simp only [current, startErrand?]
    · rename_i current
      simp only [current, startErrand?]
    · rename_i current
      simp only [current, startErrand?]
    · cases looks
  · rw [collecting]

/-- A task that is at its stream looks for the next item, unless the stream has ended. -/
theorem errand?_of_atStream {s : Stream} {id : ChannelId} (stack : x.stack = .proceed w :: rest)
    (found : x.tasks[w.task]? = some task) (atStream : task.IsAtStream)
    (stream : task.stream = some s) (known : s.id = some id) :
    x.errand? = some (s.bus, .look (.recv ⟨s.handle, id⟩) s.place w) := by
  rw [errand?, stack]
  simp only [found, Option.bind_some]
  rw [taskErrand?_of_atStream atStream, stream, Option.bind_some, Stream.errand?, known]
  rfl

/-- A task that goes on does so from the one place that it holds, if it holds any. -/
theorem Attentive.errand_of_proceed (att : x.Attentive) (sound : x.Sound u) (bare : ¬u.bareWaits)
    (stack : x.stack = .proceed w :: rest) (found : x.tasks[w.task]? = some task)
    (holds : (b, p) ∈ task.places) : ∃ e, x.errand? = some (b, e) ∧ e.prior? = some p := by
  have errand : x.errand? = x.taskErrand? w task := by
    rw [errand?, stack]
    simp only [found]
    rfl
  rw [errand, taskErrand?]
  rcases List.mem_append.1 holds with call | stream
  · rw [Option.mem_toList, Task.callPlace] at call
    split at call
    · rename_i progress
      cases call
      rw [progress]
      exact ⟨_, rfl, rfl⟩
    · rename_i progress
      cases call
      rw [progress]
      exact ⟨_, rfl, rfl⟩
    · cases call
  · rw [Option.mem_toList] at stream
    have holds : task.streamPlace ≠ none := by
      rw [stream]
      exact Option.some_ne_none _
    obtain ⟨atStream, -⟩ := att.streams w.task task found holds
    obtain ⟨s, there, place⟩ := Option.bind_eq_some_iff.1 stream
    obtain ⟨p', place, same⟩ := Option.map_eq_some_iff.1 place
    cases same
    obtain ⟨id, known⟩ : ∃ id, s.id = some id := by
      refine Option.ne_none_iff_exists'.1 fun ended => ?_
      cases place.symm.trans (sound.place_of_ended bare found there ended)
    rw [← taskErrand?, taskErrand?_of_atStream atStream, there, Option.bind_some, Stream.errand?,
      known]
    exact ⟨_, rfl, place⟩

/-- A task that is told to go on does. -/
theorem Attentive.attends_poll (att : x.Attentive) (stack : x.stack = .poll w :: rest)
    (found : x.tasks[w.task]? = some task) (alive : task.life ≠ .ended) :
    x.step.Attends w.task := by
  have busy := att.polled w (stack ▸ List.mem_cons_self) task found
  have none : x.errand? = none := by rw [errand?, stack]
  cases x.step_unfolds stack with
  | quiet _ quiet leads =>
    cases quiet with
    | passes waits =>
      have waits := waits task found
      cases life : task.life with
      | idle => exact absurd life waits
      | running => exact absurd life busy
      | ended => exact absurd life alive
    | begins _ _ =>
      refine .inr ⟨.proceed w, ?_, rfl⟩
      rw [leads.stack]
      exact List.mem_cons_self
    | replies own _ => cases own
    | replaces replaces _ => cases replaces
  | enters errand _ _ _ => cases none.symm.trans errand
  | fails errand _ _ _ _ _ => cases none.symm.trans errand

/-- A task whose waker is to be called is told to go on. -/
theorem attends_wake {wakers : List Waker} (stack : x.stack = .wake wakers :: rest)
    (member : w ∈ wakers) (found : x.tasks[w.task]? = some task) (alive : task.life ≠ .ended) :
    x.step.Attends w.task := by
  have none : x.errand? = none := by rw [errand?, stack]
  cases x.step_unfolds stack with
  | quiet _ quiet leads =>
    cases quiet with
    | passes none =>
      have none : wakers = [] := none
      rw [none] at member
      cases member
    | replies own _ => cases own
    | replaces replaces _ => cases replaces
  | @polls w' later _ _ _ _ leads _ =>
    rcases List.mem_cons.1 member with rfl | member
    · refine .inr ⟨.poll ⟨w.task, 0⟩, ?_, rfl⟩
      rw [show x.step.stack = _ from leads.stack]
      exact List.mem_cons_self
    · refine .inr ⟨.wake later, ?_, w, member, rfl⟩
      rw [show x.step.stack = _ from leads.stack]
      exact List.mem_cons_of_mem _ List.mem_cons_self
  | @readies w' later _ leads _ ready _ =>
    rcases List.mem_cons.1 member with rfl | member
    · exact .inl (ready task found alive)
    · refine .inr ⟨.wake later, ?_, w, member, rfl⟩
      rw [show x.step.stack = _ from leads.stack]
      exact List.mem_cons_self
  | enters errand _ _ _ => cases none.symm.trans errand
  | fails errand _ _ _ _ _ => cases none.symm.trans errand

/-- A task that is ready stays so until it is told to go on. -/
theorem Sound.attends_ready (sound : x.Sound u) (found : x.tasks[t]? = some task)
    (alive : task.life ≠ .ended) (ready : t ∈ x.ready) : x.step.Attends t := by
  cases stack : x.stack with
  | nil =>
    rw [step_of_stack_nil stack]
    exact .inl ready
  | cons f rest =>
    cases x.step_unfolds stack with
    | quiet _ _ leads => exact .inl (leads.ready ▸ ready)
    | releases _ leads => exact .inl (leads.ready ▸ ready)
    | polls _ _ _ leads _ =>
      have same : x.step.ready = x.ready := leads.ready
      exact .inl (same ▸ ready)
    | readies _ _ same _ _ =>
      rcases same with same | same
      · exact .inl (same ▸ ready)
      · exact .inl (same ▸ List.mem_append_left _ ready)
    | @drains _ _ t' later _ _ _ _ first ends leads ready' =>
      rw [first] at ready
      rcases List.mem_cons.1 ready with rfl | member
      · rcases ends with rfl | ⟨-, ended⟩
        · refine .inr ⟨.poll ⟨t, 0⟩, ?_, rfl⟩
          rw [show x.step.stack = _ from leads.stack]
          exact List.mem_cons_self
        · exact absurd (ended task found) alive
      · exact .inl (ready' ▸ member)
    | enters _ _ _ leads => exact .inl (leads.ready ▸ ready)
    | fails errand failed _ _ _ _ => exact absurd failed (sound.carried errand)

/-- Whoever is attended to stays so until he goes on. -/
theorem Attentive.attends_step (att : x.Attentive) (sound : x.Sound u)
    (found : x.tasks[t]? = some task) (alive : task.life ≠ .ended) (attends : x.Attends t) :
    x.step.Attends t ∨ ∃ w rest, x.stack = .proceed w :: rest ∧ w.task = t := by
  rcases attends with ready | ⟨f, member, attends⟩
  · exact .inl (sound.attends_ready found alive ready)
  cases stack : x.stack with
  | nil =>
    rw [stack] at member
    cases member
  | cons g rest =>
    rw [stack] at member
    rcases List.mem_cons.1 member with rfl | later
    · cases f with
      | wake wakers =>
        obtain ⟨w, member, rfl⟩ := attends
        exact .inl (attends_wake stack member found alive)
      | poll w =>
        cases attends
        exact .inl (att.attends_poll stack found alive)
      | proceed w => exact .inr ⟨w, rest, rfl, attends⟩
      | _ => exact attends.elim
    · obtain ⟨frames, stack', -⟩ := sound.ages_step stack
      refine .inl (.inr ⟨f, ?_, attends⟩)
      rw [stack']
      exact List.mem_append_right _ later

/-- What a step keeps of a task. -/
theorem Sound.kept_step (sound : x.Sound u) (found : x.tasks[t]? = some task) :
    ∃ task', x.step.tasks[t]? = some task' ∧ task'.program = task.program ∧
      (task.life = .ended → task'.life = .ended) := by
  cases stack : x.stack with
  | nil =>
    rw [step_of_stack_nil stack]
    exact ⟨task, found, rfl, id⟩
  | cons f rest =>
    obtain ⟨frames, -, ages⟩ := sound.ages_step stack
    obtain ⟨change, tasks, ages⟩ := ages t
    refine ⟨change task, ?_, (ages task found).program, (ages task found).ended⟩
    rw [tasks, found]
    rfl

/-- Nobody who was woken is forgotten in a step. -/
theorem Attentive.attended_step (att : x.Attentive) (sound : x.Sound u) (bare : ¬u.bareWaits)
    (found : x.step.tasks[t]? = some task) (alive : task.life ≠ .ended)
    (holds : (b, p) ∈ task.places) :
    (x.step.registry b).isQueued p = true ∨ x.step.Attends t := by
  cases queued : (x.step.registry b).isQueued p with
  | true => exact .inl rfl
  | false =>
    right
    rw [← placesOf_of_found found] at holds
    rcases sound.trades_step.lapsed sound att.wakers holds queued with
      ⟨held, out, notPrior⟩ | attends
    · obtain ⟨old, there⟩ := exists_of_mem_placesOf held
      rw [placesOf_of_found there] at held
      obtain ⟨task', found', -, lives⟩ := sound.kept_step there
      cases found.symm.trans found'
      rcases att.attended t old there (fun ended => alive (lives ended)) b p held with
        inside | attends
      · cases out.symm.trans inside
      rcases att.attends_step sound there (fun ended => alive (lives ended)) attends with
        attends | ⟨w, rest, stack, rfl⟩
      · exact attends
      · -- A task that goes on looks at its place.
        obtain ⟨e, errand, prior⟩ := att.errand_of_proceed sound bare stack there held
        exact absurd rfl (notPrior b e errand prior)
    · exact .inr attends

theorem Attentive.step (att : x.Attentive) (sound : x.Sound u) (bare : ¬u.bareWaits)
    (never : x.NeverPeeks) : x.step.Attentive where
  wakers := sound.trades_step.wakers sound sound.step.1 att.wakers
  running _ _ := att.running_step sound
  tidy := att.tidy_step sound
  polled _ polled _ := att.polled_step sound polled
  streams := att.streams_step sound bare never
  attended _ _ found alive _ _ := att.attended_step sound bare found alive

/-! ### A request from outside -/

/-- What a request makes of the tasks: one may be over, and one may be new. -/
theorem Sound.ask_tasks (sound : x.Sound u) (idle : x.stack = []) {s : Step}
    (lawful : s.Lawful u x.buses.length) (t : Nat) :
    (∃ change : Task → Task, (x.ask s).tasks[t]? = (x.tasks[t]?).map change ∧
      ∀ task, change task = task ∨ change task = { task with life := .ended }) ∨
    x.tasks[t]? = none ∧ ∃ program stopsOnError,
      (x.ask s).tasks[t]? = some (.new program stopsOnError) := by
  have rests (tasks : (x.ask s).tasks = x.tasks) :
      ∃ change : Task → Task, (x.ask s).tasks[t]? = (x.tasks[t]?).map change ∧
        ∀ task, change task = task ∨ change task = { task with life := .ended } := by
    refine ⟨id, ?_, fun task => .inl rfl⟩
    rw [tasks, Option.map_id]
    rfl
  cases x.ask_asked s with
  | answers _ _ leads => exact .inl (rests leads.tasks)
  | runs leads => exact .inl (rests leads.tasks)
  | polls _ _ leads => exact .inl (rests leads.tasks)
  | drops _ _ leads =>
    refine .inl ⟨_, getElem?_of_modify leads.tasks t, fun task => ?_⟩
    split
    · exact .inr rfl
    · exact .inl rfl
  | dropsInUse _ _ _ => exact lawful.elim
  | adds leads => exact .inl (rests leads.tasks)
  | @spawns program stopsOnError leads _ =>
    have tasks : (x.ask (.spawn program stopsOnError)).tasks = _ := leads.tasks
    rw [tasks, List.getElem?_append]
    split
    · exact .inl ⟨id, by rw [Option.map_id]; rfl, fun task => .inl rfl⟩
    · rename_i outside
      have none := List.getElem?_eq_none (Nat.le_of_not_lt outside)
      cases new : [Task.new program stopsOnError][t - x.tasks.length]? with
      | none => exact .inl ⟨id, by rw [none]; rfl, fun task => .inl rfl⟩
      | some task =>
        rw [List.mem_singleton.1 (List.mem_of_getElem? new)]
        exact .inr ⟨none, _, _, rfl⟩
  | operates _ _ leads => exact .inl (rests leads.tasks)
  | fails failed _ _ _ =>
    exact absurd failed (sound.carried_of_free lawful (sound.calm_of_idle idle _) _)

/-- A request from outside leaves a task as it is, or ends it. -/
theorem Sound.kept_ask (sound : x.Sound u) (idle : x.stack = []) {s : Step}
    (lawful : s.Lawful u x.buses.length) (found : x.tasks[t]? = some task) :
    (x.ask s).tasks[t]? = some task ∨
      (x.ask s).tasks[t]? = some { task with life := .ended } := by
  rcases sound.ask_tasks idle lawful t with ⟨change, after, changes⟩ | none
  · rw [found, Option.map_some] at after
    rcases changes task with same | same
    · exact .inl (same ▸ after)
    · exact .inr (same ▸ after)
  · cases found.symm.trans none.1

/-- What a request puts on the empty stack: no frame of a turn, in order. Whoever was ready stays
so. -/
theorem Sound.ask_stack (sound : x.Sound u) (idle : x.stack = []) {s : Step}
    (lawful : s.Lawful u x.buses.length) : (∀ f ∈ (x.ask s).stack, f.turn? = none) ∧
      (x.ask s).stack.Pairwise Frame.MayCover ∧ ∀ t ∈ x.ready, t ∈ (x.ask s).ready := by
  have puts (frames : List Frame) (stack : (x.ask s).stack = frames ++ x.stack)
      (ready : (x.ask s).ready = x.ready) (own : ∀ f ∈ frames, f.turn? = none)
      (tidy : frames.Pairwise Frame.MayCover) : (∀ f ∈ (x.ask s).stack, f.turn? = none) ∧
        (x.ask s).stack.Pairwise Frame.MayCover ∧ ∀ t ∈ x.ready, t ∈ (x.ask s).ready := by
    rw [stack, idle, List.append_nil, ready]
    exact ⟨own, tidy, fun _ => id⟩
  have replied (reply : Reply) : Frame.IsInner (.complete .outside reply) := trivial
  cases x.ask_asked s with
  | answers _ answer leads =>
    rcases answer with rfl | ⟨reply, rfl⟩
    · exact puts _ leads.stack leads.ready (List.forall_mem_nil _) .nil
    · exact puts _ leads.stack leads.ready (by simp [Frame.turn?]) (List.pairwise_singleton _ _)
  | runs leads =>
    exact puts [_] leads.stack leads.ready (by simp [Frame.turn?])
      (List.pairwise_singleton _ _)
  | polls _ _ leads =>
    exact puts [_, _] leads.stack leads.ready (by simp [Frame.turn?])
      (by simp [Frame.MayCover])
  | drops _ _ leads =>
    exact puts [_, _] leads.stack leads.ready (by simp [Frame.turn?])
      (by simp [Frame.MayCover])
  | dropsInUse _ _ _ => exact lawful.elim
  | adds leads => exact puts [] leads.stack leads.ready (List.forall_mem_nil _) .nil
  | @spawns program stopsOnError leads ready =>
    have stack : (x.ask (.spawn program stopsOnError)).stack = x.stack := leads.stack
    rw [stack, idle, ready]
    exact ⟨List.forall_mem_nil _, .nil, fun t => List.mem_append_left _⟩
  | operates _ _ leads =>
    exact puts [_, _, _, _] leads.stack leads.ready (by simp [Frame.turn?])
      (by simp [Frame.MayCover])
  | fails failed _ _ _ =>
    exact absurd failed (sound.carried_of_free lawful (sound.calm_of_idle idle _) _)

/-- Nobody is in the middle of a turn between two requests. -/
theorem Attentive.not_running (att : x.Attentive) (idle : x.stack = [])
    (found : x.tasks[t]? = some task) : task.life ≠ .running := by
  intro running
  have left := att.running t task found running
  rw [idle] at left
  cases left

/-- A task after a request is new, or it is as it was before, or over. -/
theorem Sound.exists_of_ask (sound : x.Sound u) (idle : x.stack = []) {s : Step}
    (lawful : s.Lawful u x.buses.length) (found : (x.ask s).tasks[t]? = some task) :
    (∃ task', x.tasks[t]? = some task' ∧
      (task = task' ∨ task = { task' with life := .ended })) ∨
    ∃ program stopsOnError, task = .new program stopsOnError := by
  rcases sound.ask_tasks idle lawful t with ⟨change, tasks, same⟩ | ⟨-, _, _, new⟩
  · rw [tasks, Option.map_eq_some_iff] at found
    obtain ⟨task', found, rfl⟩ := found
    exact .inl ⟨task', found, same task'⟩
  · cases found.symm.trans new
    exact .inr ⟨_, _, rfl⟩

/-- A request leaves nobody unattended. -/
theorem Attentive.ask (att : x.Attentive) (sound : x.Sound u) (idle : x.stack = []) {s : Step}
    (lawful : s.Lawful u x.buses.length) : (x.ask s).Attentive := by
  obtain ⟨own, tidy, ready⟩ := sound.ask_stack idle lawful
  have trades := sound.trades_ask idle lawful
  have sound' : (x.ask s).Sound u ∧ Goes u (fun _ _ _ => False) x (x.ask s) := sound.ask idle lawful
  have calm {t : Nat} {task : Task} (found : (x.ask s).tasks[t]? = some task) :
      task.life ≠ .running := by
    rcases sound.exists_of_ask idle lawful found with
      ⟨task', there, rfl | rfl⟩ | ⟨program, stopsOnError, rfl⟩
    · exact att.not_running idle there
    · nofun
    · nofun
  refine ⟨trades.wakers sound sound'.1 att.wakers, fun t task found running => ?_, tidy,
    fun w _ task found => calm found, fun t task found place => ⟨?_, fun f member turn => ?_⟩,
    fun t task found alive b p holds => ?_⟩
  · exact absurd running (calm found)
  · rcases sound.exists_of_ask idle lawful found with
      ⟨task', there, rfl | rfl⟩ | ⟨program, stopsOnError, rfl⟩
    · exact (att.streams t task there place).1
    · exact (att.streams t task' there place).1
    · exact absurd rfl place
  · cases (own f member).symm.trans turn
  · cases queued : ((x.ask s).registry b).isQueued p with
    | true => exact .inl rfl
    | false =>
      right
      rw [← placesOf_of_found found] at holds
      rcases trades.lapsed sound att.wakers holds queued with ⟨held, out, -⟩ | attends
      · rcases sound.exists_of_ask idle lawful found with
          ⟨task', there, rfl | rfl⟩ | ⟨program, stopsOnError, rfl⟩
        · rw [placesOf_of_found there] at held
          rcases att.attended t task there alive b p held with inside | waits | ⟨f, member, -⟩
          · cases out.symm.trans inside
          · exact .inl (ready t waits)
          · rw [idle] at member
            cases member
        · exact absurd rfl alive
        · rw [placesOf_of_found found] at holds
          cases holds
      · exact .inr attends

/-! ### Runs -/

theorem attentive_new (inline : Bool) : (new inline).Attentive := by
  have none (t : Nat) : (new inline).tasks[t]? = none := rfl
  refine ⟨fun b p k there => ?_, fun t task found => ?_, .nil, nofun, fun t task found => ?_,
    fun t task found => ?_⟩
  · have nothing : ((new inline).registry b).waiting = [] := by cases b <;> rfl
    rw [nothing] at there
    cases there
  all_goals cases (none t).symm.trans found

/-- Programs are kept, so if no task looks at its stream only once now then none did before. -/
theorem Next.neverPeeks (next : x.Next u y) (sound : x.Sound u) (never : y.NeverPeeks) :
    x.NeverPeeks := by
  have back (kept : ∀ (t : Nat) task, x.tasks[t]? = some task →
      ∃ task', y.tasks[t]? = some task' ∧ task'.program = task.program) : x.NeverPeeks := by
    intro task member
    obtain ⟨t, found⟩ := List.getElem?_of_mem member
    obtain ⟨task', found', program⟩ := kept t task found
    exact program ▸ never task' (List.mem_of_getElem? found')
  cases next with
  | step =>
    refine back fun t task found => ?_
    obtain ⟨task', found', program, -⟩ := sound.kept_step found
    exact ⟨task', found', program⟩
  | @ask s idle lawful =>
    refine back fun t task found => ?_
    rcases sound.cleared.kept_ask idle lawful found with same | ended
    · exact ⟨task, same, rfl⟩
    · exact ⟨_, ended, rfl⟩

/-- Every executor that a run comes by is attentive. -/
theorem Reachable.attentive (reachable : x.Reachable u) (bare : ¬u.bareWaits)
    (never : x.NeverPeeks) : x.Attentive := by
  obtain ⟨inline, run⟩ := reachable
  induction run with
  | refl => exact attentive_new inline
  | @tail y z run next ih =>
    have sound := Reachable.sound ⟨inline, run⟩
    have before := next.neverPeeks sound never
    have att := ih before
    cases next with
    | step => exact att.step sound bare before
    | ask idle lawful =>
      have att : ({ y with log := [], answer := none } : Executor).Attentive :=
        ⟨att.wakers, att.running, att.tidy, att.polled, att.streams, att.attended⟩
      exact att.ask sound.cleared idle lawful

end Executor

end MessageBus
