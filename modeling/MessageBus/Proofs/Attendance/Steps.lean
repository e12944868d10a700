import MessageBus.Proofs.Attendance

/-!
# A step leaves nobody unattended

A small step, or a request from outside, changes at most one task, and it keeps the program of each.
What it does to the life of a task, to the order of the stack and to the streams is said for each
kind of step; together with what becomes of the places (`Executor.Trades`) this keeps an executor
attentive (`Attentive.step`, `Attentive.ask`).
-/

namespace MessageBus

/-- What becomes of a task in a step that takes the frame `f` off and puts `frames` on the stack:
its program stays as it is, it stays over if it is, and it runs only if its turn has just begun or
goes on. -/
structure Task.Ages (t : Nat) (f : Frame) (frames : List Frame) (task task' : Task) : Prop where
  program : task'.program = task.program
  ended : task.life = .ended → task'.life = .ended
  running : task'.life = .running → .leave t ∈ frames ∨ task.life = .running ∧ f ≠ .leave t

theorem Task.Ages.mono {t : Nat} {f : Frame} {frames frames' : List Frame} {task task' : Task}
    (ages : task.Ages t f frames task') (sub : frames ⊆ frames') : task.Ages t f frames' task' :=
  ⟨ages.program, ages.ended, fun running => (ages.running running).imp_left (@sub _)⟩

namespace Executor

variable {u : Usage} {x y : Executor} {f : Frame} {t b : Nat} {task : Task} {w : Waker}
  {e : Errand Waker} {change : Task → Task} {frames rest : List Frame}

/-! ### Lives and programs -/

/-- Most often nothing becomes of a task. -/
theorem Sound.ages_refl (sound : x.Sound u) (frames : List Frame) (stack : x.stack = f :: rest)
    (found : x.tasks[t]? = some task) : task.Ages t f frames task := by
  refine ⟨rfl, id, fun running => .inr ⟨running, fun same => ?_⟩⟩
  subst same
  exact sound.life_of_leave stack found running

theorem Quiet.ages (sound : x.Sound u) (stack : x.stack = f :: rest)
    (quiet : x.Quiet f t change frames) (found : x.tasks[t]? = some task) :
    task.Ages t f frames (change task) := by
  have kept := sound.ages_refl frames stack found
  have same (program : (change task).program = task.program)
      (life : (change task).life = task.life) : task.Ages t f frames (change task) :=
    ⟨program, life.trans, fun running => kept.running (life.symm.trans running)⟩
  cases quiet with
  | begins found' idle =>
    cases found.symm.trans found'
    refine ⟨rfl, fun ended => ?_, fun _ => .inl (by simp)⟩
    cases idle.symm.trans ended
  | breaksOff _ _ => exact ⟨rfl, fun _ => rfl, nofun⟩
  | suspends =>
    obtain ⟨task', below, -, turn⟩ := sound.inTurn stack rfl
    cases found.symm.trans turn.found
    refine ⟨rfl, fun ended => ?_, nofun⟩
    cases turn.running.symm.trans ended
  | finishes => exact ⟨rfl, fun _ => rfl, nofun⟩
  | drops _ _ _ _ _ => exact ⟨rfl, fun _ => rfl, nofun⟩
  | _ => exact same rfl rfl

theorem Sequel.ages {o : Outcome (Registry Waker) Waker Upshot} (sound : x.Sound u)
    (stack : x.stack = f :: rest) (sequel : x.Sequel f b e o t change frames)
    (found : x.tasks[t]? = some task) : task.Ages t f frames (change task) := by
  have kept := sound.ages_refl frames stack found
  have same (program : (change task).program = task.program)
      (life : (change task).life = task.life) : task.Ages t f frames (change task) :=
    ⟨program, life.trans, fun running => kept.running (life.symm.trans running)⟩
  cases sequel with
  | @looks w _ b _ _ recorded p _ _ _ =>
    refine same ?_ ?_ <;> rcases p.answer with _ | _ | _ | _ <;> rfl
  | @looksAtStream w _ s _ p _ _ _ _ _ =>
    refine same ?_ ?_ <;> rcases p.answer with ⟨_ | _⟩ | _ | _ | _ <;> rfl
  | resolves _ _ _ remembers =>
    obtain ⟨remembered, kept⟩ := remembers task
    exact same (by rw [kept]) (by rw [kept])
  | abandons forgets =>
    cases forgets with
    | stream _ _ _ => exact same rfl rfl
    | place _ _ =>
      refine same ?_ (Task.life_giveUpPlace task)
      dsimp only [Task.giveUpPlace]
      split <;> rfl
  | _ => exact same rfl rfl

/-- What becomes of a task if one task changes. -/
theorem getElem?_of_modify (tasks : y.tasks = x.tasks.modify t change) (t' : Nat) :
    y.tasks[t']? = (x.tasks[t']?).map fun task => if t = t' then change task else task := by
  rw [tasks, List.getElem?_modify]
  rfl

/-- What becomes of the tasks in a step, and that the frames below stay. -/
theorem Sound.ages_step (sound : x.Sound u) (stack : x.stack = f :: rest) :
    ∃ frames, x.step.stack = frames ++ rest ∧ ∀ t, ∃ change : Task → Task,
      x.step.tasks[t]? = (x.tasks[t]?).map change ∧
        ∀ task : Task, x.tasks[t]? = some task → task.Ages t f frames (change task) := by
  have rests {frames : List Frame} (tasks : x.step.tasks = x.tasks) (t : Nat) :
      ∃ change : Task → Task, x.step.tasks[t]? = (x.tasks[t]?).map change ∧
        ∀ task : Task, x.tasks[t]? = some task → task.Ages t f frames (change task) := by
    refine ⟨id, ?_, fun task found => sound.ages_refl _ stack found⟩
    rw [tasks, Option.map_id]
    rfl
  have changes {t : Nat} {change : Task → Task} {frames : List Frame}
      (tasks : x.step.tasks = x.tasks.modify t change)
      (ages : ∀ task : Task, x.tasks[t]? = some task → task.Ages t f frames (change task))
      (t' : Nat) :
      ∃ change : Task → Task, x.step.tasks[t']? = (x.tasks[t']?).map change ∧
        ∀ task : Task, x.tasks[t']? = some task → task.Ages t' f frames (change task) := by
    refine ⟨_, getElem?_of_modify tasks t', fun task found => ?_⟩
    split
    · rename_i same
      subst same
      exact ages task found
    · exact sound.ages_refl _ stack found
  cases x.step_unfolds stack with
  | quiet _ quiet leads =>
    exact ⟨_, leads.stack, changes leads.tasks fun task found => quiet.ages sound stack found⟩
  | releases _ leads => exact ⟨[], leads.stack, rests leads.tasks⟩
  | polls _ _ _ leads _ => exact ⟨[_, _], leads.stack, rests leads.tasks⟩
  | readies _ leads _ _ _ => exact ⟨[_], leads.stack, rests leads.tasks⟩
  | @drains _ _ _ _ frames _ _ _ _ _ leads _ =>
    exact ⟨_, leads.stack.trans (List.append_cons _ _ _), rests leads.tasks⟩
  | enters _ _ sequel leads =>
    exact ⟨_ :: _ :: _ :: _, leads.stack, changes leads.tasks fun task found =>
      (sequel.ages sound stack found).mono fun g member => by simp [member]⟩
  | fails errand failed _ _ _ _ => exact absurd failed (sound.carried errand)

/-! ### The order of the stack -/

theorem Quiet.isInner (quiet : x.Quiet f t change frames) : ∀ g ∈ frames, g.IsInner := by
  cases quiet with
  | replaces replaces _ => cases replaces <;> simp [Frame.IsInner]
  | _ => simp [Frame.IsInner]

theorem Sequel.isInner {o : Outcome (Registry Waker) Waker Upshot}
    (sequel : x.Sequel f b e o t change frames) : ∀ g ∈ frames, g.IsInner := by
  cases sequel with
  | @looks _ _ _ _ _ _ p _ _ _ =>
    rcases p.answer with _ | _ | _ | _ <;> simp [Turn.frame, Frame.IsInner]
  | @looksAtStream w task _ _ p _ _ _ _ _ =>
    have pending : (task.ifPending w).IsInner := by
      rw [Task.ifPending]
      split <;> trivial
    refine List.forall_mem_singleton.2 ?_
    rcases p.answer with ⟨_ | _⟩ | _ | _ | _
    exacts [trivial, trivial, pending, pending, trivial]
  | abandons forgets =>
    cases forgets with
    | stream replaces _ _ => cases replaces <;> simp [Frame.IsInner]
    | place _ _ => simp [Frame.IsInner]
  | _ => simp [Frame.IsInner]

/-- Inner frames may always be put on the stack. -/
theorem pairwise_mayCover_append (frames : List Frame) (tidy : (f :: rest).Pairwise Frame.MayCover)
    (inner : ∀ g ∈ frames, g.IsInner) : (frames ++ rest).Pairwise Frame.MayCover := by
  obtain ⟨covers, below⟩ := List.pairwise_cons.1 tidy
  induction frames with
  | nil => exact below
  | cons g frames ih =>
    obtain ⟨first, others⟩ := List.forall_mem_cons.1 inner
    refine List.pairwise_cons.2 ⟨fun g' member => first.mayCover ?_, ih others⟩
    rcases List.mem_append.1 member with above | later
    · exact (others g' above).ne_poll
    · exact (covers g' later).1

/-- So may a task that is to go on, unless another one is to go on there. -/
theorem pairwise_mayCover_cons (tidy : rest.Pairwise Frame.MayCover)
    (other : ∀ w, .poll w ∉ rest) : (.poll w :: rest).Pairwise Frame.MayCover := by
  refine List.pairwise_cons.2 ⟨fun g member => ⟨fun w same => other w (same ▸ member), nofun⟩, tidy⟩

/-- The stack stays in order in a step. -/
theorem Attentive.tidy_step (att : x.Attentive) (sound : x.Sound u) :
    x.step.stack.Pairwise Frame.MayCover := by
  cases stack : x.stack with
  | nil =>
    rw [step_of_stack_nil stack, stack]
    exact .nil
  | cons f rest =>
    have tidy := att.tidy
    rw [stack] at tidy
    obtain ⟨covers, below⟩ := List.pairwise_cons.1 tidy
    have unpolled (w : Waker) : .poll w ∉ rest := fun member => (covers _ member).1 w rfl
    cases x.step_unfolds stack with
    | quiet _ quiet leads =>
      rw [leads.stack]
      exact pairwise_mayCover_append _ tidy quiet.isInner
    | releases _ leads =>
      rw [leads.stack]
      exact below
    | polls _ _ _ leads _ =>
      rw [show x.step.stack = _ from leads.stack]
      refine pairwise_mayCover_cons ?_ fun w => ?_
      · exact pairwise_mayCover_append [_] tidy (by simp [Frame.IsInner])
      · simp [unpolled]
    | readies _ leads _ _ _ =>
      rw [show x.step.stack = _ from leads.stack]
      exact pairwise_mayCover_append [_] tidy (by simp [Frame.IsInner])
    | @drains limit polled _ _ _ limit' polled' _ _ alive leads _ =>
      rw [show x.step.stack = _ from leads.stack]
      have kept : (Frame.drain limit' polled' :: rest).Pairwise Frame.MayCover := by
        refine List.pairwise_cons.2 ⟨fun g member => ?_, below⟩
        obtain ⟨unpolled, outer⟩ := covers g member
        exact ⟨unpolled, fun _ _ _ => outer limit polled rfl⟩
      rcases alive with rfl | ⟨rfl, -⟩
      · exact pairwise_mayCover_cons kept fun w => by simp [unpolled]
      · exact kept
    | enters _ _ sequel leads =>
      rw [leads.stack]
      refine pairwise_mayCover_append (_ :: _ :: _ :: _) tidy ?_
      simpa [Frame.IsInner] using sequel.isInner
    | fails errand failed _ _ _ _ => exact absurd failed (sound.carried errand)

/-- A task that is running is left later. -/
theorem Attentive.running_step (att : x.Attentive) (sound : x.Sound u)
    (found : x.step.tasks[t]? = some task) (running : task.life = .running) :
    .leave t ∈ x.step.stack := by
  cases stack : x.stack with
  | nil =>
    rw [step_of_stack_nil stack] at found ⊢
    exact att.running t task found running
  | cons f rest =>
    obtain ⟨frames, stack', ages⟩ := sound.ages_step stack
    obtain ⟨change, tasks, ages⟩ := ages t
    rw [tasks, Option.map_eq_some_iff] at found
    obtain ⟨task, found, rfl⟩ := found
    rw [stack', List.mem_append]
    refine ((ages task found).running running).imp_right fun ⟨running, other⟩ => ?_
    have left := att.running t task found running
    rw [stack] at left
    exact (List.mem_cons.1 left).resolve_left (Ne.symm other)

/-- Nobody is told to go on who is running. -/
theorem Attentive.polled_step (att : x.Attentive) (sound : x.Sound u)
    (polled : .poll w ∈ x.step.stack) (found : x.step.tasks[w.task]? = some task) :
    task.life ≠ .running := by
  cases stack : x.stack with
  | nil =>
    rw [step_of_stack_nil stack, stack] at polled
    cases polled
  | cons f rest =>
    have tidy := att.tidy
    rw [stack] at tidy
    obtain ⟨covers, below⟩ := List.pairwise_cons.1 tidy
    have old : .poll w ∉ rest := fun member => (covers _ member).1 w rfl
    have inner (frames : List Frame) (inner : ∀ g ∈ frames, g.IsInner)
        (stack' : x.step.stack = frames ++ rest) : task.life ≠ .running := by
      rw [stack', List.mem_append] at polled
      exact absurd rfl ((inner _ (polled.resolve_right old)).ne_poll w)
    cases x.step_unfolds stack with
    | quiet _ quiet leads => exact inner _ quiet.isInner leads.stack
    | releases _ leads => exact inner [] (List.forall_mem_nil _) leads.stack
    | @polls w' later task' _ found' idle leads _ =>
      rw [show x.step.stack = _ from leads.stack] at polled
      rw [show x.step.tasks = _ from leads.tasks] at found
      simp only [List.mem_cons, Frame.poll.injEq, reduceCtorEq, old, or_false] at polled
      subst polled
      cases found.symm.trans found'
      rw [idle]
      nofun
    | readies _ leads _ _ _ => exact inner [_] (by simp [Frame.IsInner]) leads.stack
    | @drains limit polled' t _ _ limit' polled'' _ _ alive leads _ =>
      rw [show x.step.stack = _ from leads.stack] at polled
      rw [show x.step.tasks = _ from leads.tasks] at found
      intro running
      -- Nobody looks for ready tasks in the middle of a turn.
      have left := att.running w.task task found running
      rw [stack] at left
      have later := (List.mem_cons.1 left).resolve_left nofun
      exact (covers _ later).2 limit polled' rfl w.task rfl
    | enters _ _ sequel leads =>
      refine inner (_ :: _ :: _ :: _) ?_ leads.stack
      simpa [Frame.IsInner] using sequel.isInner
    | fails errand failed _ _ _ _ => exact absurd failed (sound.carried errand)

end Executor

end MessageBus
