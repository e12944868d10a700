import MessageBus.Proofs.Effort.Bounds

/-!
# Every run comes to an end

Each task has a list of instructions to carry out, and each small step leaves less to do
(`Sound.eases_step`). So whatever is on the stack is done after finitely many steps, before anything
that lies below it (`exists_return`): a turn of a task ends, also one that begins within a
wakeup, and so does a run over the ready list, although tasks come back to it whenever they are
woken. What is asked for from outside is done within the steps that are taken for it
(`Reachable.settles`).

A request that is looked at is attempted once at most. A channel that is in its way is there to be
waited on, so the caller gets a place and is suspended; it does not attempt its request again before
that place was called or the channel is gone.
-/

namespace MessageBus.Executor

variable {u : Usage} {x : Executor} {w : Waker} {task : Task} {b : Nat} {rest above : List Frame}

/-! ### The way back -/

theorem Reachable.effort_step_lt (reachable : x.Reachable u) (some : x.stack ≠ []) :
    x.step.effort < x.effort :=
  (reachable.sound.eases_step reachable.underway some).effort_lt

/-- After some steps the frames on top of the stack are done, and until then those below are not
touched. -/
def Returns (x : Executor) (rest : List Frame) (n : Nat) : Prop :=
  (settle n x).stack = rest ∧
    ∀ m < n, ∃ f frames, (settle m x).stack = f :: (frames ++ rest)

theorem Returns.succ {f : Frame} {n : Nat} (returns : x.step.Returns rest n)
    (stack : x.stack = f :: (above ++ rest)) : x.Returns rest (n + 1) := by
  have further (m : Nat) : settle (m + 1) x = settle m x.step := by
    rw [settle_succ, stack]
    rfl
  refine ⟨(congrArg Executor.stack (further n)).trans returns.1, fun m less => ?_⟩
  cases m with
  | zero => exact ⟨f, above, stack⟩
  | succ m =>
    rw [further m]
    exact returns.2 m (Nat.lt_of_succ_lt_succ less)

/-- Whatever is on the stack is done after finitely many steps. -/
theorem exists_return (reachable : x.Reachable u) (stack : x.stack = above ++ rest) :
    ∃ n, x.Returns rest n ∧ (settle n x).effort ≤ x.effort := by
  generalize bound : x.effort = effort
  induction effort using WellFoundedLT.induction generalizing x above with
  | ind effort ih =>
    cases above with
    | nil =>
      refine ⟨0, ⟨stack, fun m less => absurd less (Nat.not_lt_zero m)⟩, ?_⟩
      exact bound ▸ le_refl x.effort
    | cons f above =>
      obtain ⟨frames, stack', -⟩ := reachable.sound.ages_step stack
      have less : x.step.effort < effort :=
        bound ▸ reachable.effort_step_lt (by rw [stack]; exact List.cons_ne_nil _ _)
      have stack' : x.step.stack = (frames ++ above) ++ rest :=
        stack'.trans (List.append_assoc frames above rest).symm
      obtain ⟨n, returns, le⟩ := ih _ less (reachable.next .step) stack' rfl
      refine ⟨n + 1, returns.succ stack, ?_⟩
      rw [settle_succ, stack]
      exact le.trans less.le

/-! ### The ready list -/

/-- A run over the ready list goes on with it until it is empty. -/
theorem step_drain {polled : Nat} (stack : x.stack = [.drain none polled]) :
    x.step.stack = [] ∧ x.step.ready = [] ∨
      ∃ above polled', x.step.stack = above ++ [.drain none polled'] := by
  rw [step_of_stack_cons stack, perform]
  unfold drain
  split
  · rename_i impossible
    cases impossible
  · rename_i ready _
    exact .inl ⟨rfl, ready⟩
  · refine .inr ?_
    dsimp only
    split
    · exact ⟨[.poll ⟨_, 0⟩], polled + 1, rfl⟩
    · exact ⟨[], polled, rfl⟩

theorem exists_drained {polled : Nat} (reachable : x.Reachable u)
    (stack : x.stack = [.drain none polled]) :
    ∃ n, (settle n x).stack = [] ∧ (settle n x).ready = [] := by
  generalize bound : x.effort = effort
  induction effort using WellFoundedLT.induction generalizing x polled with
  | ind effort ih =>
    have some : x.stack ≠ [] := by
      rw [stack]
      exact List.cons_ne_nil _ _
    have first (n : Nat) : settle (n + 1) x = settle n x.step := by
      rw [settle_succ, stack]
      rfl
    rcases step_drain stack with done | ⟨above, polled', stack'⟩
    · refine ⟨1, ?_⟩
      rw [first 0]
      exact done
    · have reachable' := reachable.next .step
      obtain ⟨n, ⟨back, -⟩, le⟩ := exists_return reachable' stack'
      have less : (settle n x.step).effort < effort :=
        le.trans_lt (bound ▸ reachable.effort_step_lt some)
      obtain ⟨m, done⟩ := ih _ less (reachable'.settle n) back rfl
      refine ⟨n + m + 1, ?_⟩
      rw [first, settle_add]
      exact done

/-! ### One look at a request -/

theorem Pursues.errand? {q : Request} {prior : Option Place} {recorded : Bool}
    (stack : x.stack = .proceed w :: rest) (found : x.tasks[w.task]? = some task)
    (pursues : x.Pursues task b q prior recorded) : x.errand? = some (b, .look q prior w) := by
  rw [Executor.errand?, stack]
  simp only [found, Option.bind_some]
  cases pursues with
  | calling progress => rw [taskErrand?, progress]
  | call fresh current resolved =>
    simp only [taskErrand?, fresh, current, startErrand?, resolved]
  | recvFrom fresh current remembered =>
    simp only [taskErrand?, fresh, current, startErrand?, remembered, Option.map_some]

/-- What comes of a look at a request. -/
theorem Sound.leads_of_look {q : Request} {prior : Option Place} {recorded : Bool}
    (sound : x.Sound u) (stack : x.stack = .proceed w :: rest)
    (found : x.tasks[w.task]? = some task) (pursues : x.Pursues task b q prior recorded) :
    ∃ o recorded, q.look (x.registry b) prior w = .ok o ∧ b < x.buses.length ∧
      x.Pursues task b q prior recorded ∧
      x.Leads x.step (x.buses.set b ⟨o.state, true⟩)
        (x.tasks.modify w.task (o.answer.leaves b recorded))
        (.release b :: .wake o.woken :: .tell o.afterwards :: o.answer.frame w :: rest) := by
  obtain ⟨_, _, _, _, carried, sequel, leads⟩ := sound.enters stack (pursues.errand? stack found)
  cases sequel with
  | @looks _ _ _ _ _ recorded' o found' pursues' ran =>
    cases found.symm.trans found'
    exact ⟨o, recorded', ran, inside_of_carried carried, pursues', leads⟩
  | looksAtStream found' atStream _ _ _ =>
    cases found.symm.trans found'
    exact absurd atStream pursues.not_isAtStream

/-- How a task goes on from a look at its request: it is done with its instruction, or it is
suspended on a place in a line. -/
inductive LookedOnce (y : Executor) (w : Waker) (b : Nat) (q : Request) : Frame → Prop where
  | done {reply} : LookedOnce y w b q (.complete (.task w) reply)
  | suspended {task p recorded} (found : y.tasks[w.task]? = some task)
      (progress : task.progress = .calling b q (some p) recorded)
      (queued : (y.registry b).isQueued p = true) : LookedOnce y w b q (.suspend w.task)

/-- A request that is looked at is not attempted again in the same turn. -/
theorem Sound.looks_once {q : Request} {prior : Option Place} {recorded : Bool} (sound : x.Sound u)
    (stack : x.stack = .proceed w :: rest) (found : x.tasks[w.task]? = some task)
    (pursues : x.Pursues task b q prior recorded) : ∃ wakers notes next,
      x.step.stack = .release b :: .wake wakers :: .tell notes :: next :: rest ∧
        x.step.LookedOnce w b q next := by
  obtain ⟨o, recorded', ran, inside, pursues', leads⟩ := sound.leads_of_look stack found pursues
  refine ⟨_, _, _, leads.stack, ?_⟩
  have registry : x.step.registry b = o.state := registry_set_self inside leads.buses
  have after : x.step.tasks[w.task]? = some (o.answer.leaves b recorded' task) := by
    rw [leads.tasks, List.getElem?_modify_eq, found]
    rfl
  have ends := Request.ends_of_look ran
  rw [← registry] at ends
  generalize o.answer = turn at ends after
  generalize o.woken = woken at ends
  generalize state : x.step.registry b = r at ends
  cases ends with
  | tried _ _ _ => exact .done
  | parked _ _ there parks =>
    exact .suspended after rfl (state ▸ (Registry.isQueued_park there parks).1)
  | @waiting p queued =>
    have progress : task.progress = .calling b q (some p) recorded' := by
      cases pursues' with
      | calling progress => exact progress
    exact .suspended after progress (state ▸ Registry.isQueued_revisit queued p w)
  | gone _ => exact .done

/-- Whoever is blocked gets a place, and finds it in line when it looks at it. -/
theorem Sound.parks_of_blocked {q : Request} {a : Address} {side : Side}
    {tried : Outcome (Registry Waker) Waker Attempt} (sound : x.Sound u)
    (ran : q.attempt (x.registry b) = .ok tried) (blocked : tried.answer = .blocked a side)
    (k : Waker) : ∃ o p, tried.state.park a side k = .ok o ∧ o.answer = some p ∧
      (o.state.revisit p k).answer = .queued := by
  obtain ⟨tried', ran', fares⟩ := q.attempt_fares (x.registry b)
  cases ran.symm.trans ran'
  rw [blocked] at fares
  generalize tried.state = r at fares
  cases fares with
  | blocked stopped =>
    obtain ⟨c, found, -⟩ := stopped.find?
    obtain ⟨o, parks, answer, -⟩ := Registry.park_of_find? (sound.balanced b) found q.side k
    refine ⟨o, _, parks, answer, ?_⟩
    obtain ⟨-, -, -, -, standing, -⟩ :=
      Registry.revisit_of_queued (Registry.isQueued_park found parks).1 k
    exact standing

/-! ### Termination -/

/-- Whatever goes on comes to an end, and nobody goes round in circles within a turn. -/
structure Terminates (u : Usage) (x : Executor) : Prop where
  /-- Whatever is on top of the stack, such as a turn that is about to begin, is done after finitely
  many steps. -/
  returns : ∀ above rest, x.stack = above ++ rest → ∃ n, x.Returns rest n
  /-- So is whatever is asked for from outside, within the steps that are taken for it. -/
  settles : ∀ s : Step, x.stack = [] → s.Lawful u x.buses.length → (x.carryOut s).stack = []
  /-- Tasks that are ready are made to go on until none is, and that takes no more steps. -/
  runs : x.stack = [] →
    (x.carryOut (.run none)).stack = [] ∧ (x.carryOut (.run none)).ready = []
  /-- A task looks at its request once. Then it is done with it, or it is suspended on a place. -/
  looks : ∀ w task b q prior recorded rest, x.stack = .proceed w :: rest →
    x.tasks[w.task]? = some task → x.Pursues task b q prior recorded → ∃ wakers notes next,
      x.step.stack = .release b :: .wake wakers :: .tell notes :: next :: rest ∧
        x.step.LookedOnce w b q next
  /-- Whoever parks right after it was blocked gets a place, and finds it in line. -/
  parks : ∀ b (q : Request) a side k tried, q.attempt (x.registry b) = .ok tried →
    tried.answer = .blocked a side → ∃ o p, tried.state.park a side k = .ok o ∧
      o.answer = some p ∧ (o.state.revisit p k).answer = .queued

/-- Every run comes to an end. -/
theorem runs_terminate (reachable : x.Reachable u) : x.Terminates u where
  returns above rest stack := by
    obtain ⟨n, returns, -⟩ := exists_return reachable stack
    exact ⟨n, returns⟩
  settles s idle lawful := reachable.settles idle lawful
  runs idle := by
    have asked := reachable.next (.ask (s := .run none) idle trivial)
    obtain ⟨n, done, drained⟩ := exists_drained asked (congrArg (Frame.drain none 0 :: ·) idle)
    rw [reachable.carryOut_eq (s := .run none) idle trivial done]
    exact ⟨done, drained⟩
  looks w task b q prior recorded rest stack found pursues :=
    reachable.sound.looks_once stack found pursues
  parks b q a side k tried ran blocked := reachable.sound.parks_of_blocked ran blocked k

/-- A broadcast and a send wait on a channel without slots, while the other channel is full. Then a
task begins to collect there. -/
def contendForHandoff : List Step :=
  [.act 0 (.operate (.openChannel 0)), .act 0 (.operate (.openChannel 1)),
    .act 0 (.operate (.trySend 1 9)), .spawn [⟨0, .call (.broadcast 1)⟩] false,
    .spawn [⟨0, .call (.send 0 2)⟩] false, .run none,
    .spawn [⟨0, .stream 0⟩, ⟨0, .collect⟩] false]

/-- The executor in which that task is ready. -/
def collectorReady : Executor := ((new true).runScript contendForHandoff).1

/-- The collector has parked, and the broadcast goes on within the wakeup of the senders, only to
find the other channel in its way. -/
def movingOnWithinWakeup : Executor :=
  settle 12 ({ collectorReady with log := [], answer := none }.ask (.run none))

theorem contention_ends : collectorReady.Terminates .full ∧ movingOnWithinWakeup.Terminates .full ∧
    (∃ n, movingOnWithinWakeup.Returns (movingOnWithinWakeup.stack.drop 2) n) ∧
    movingOnWithinWakeup.stack.length = 7 := by
  have obeys : (new true).Obeys .full contendForHandoff := by decide +kernel
  have idle : collectorReady.stack.isEmpty = true := by decide +kernel
  have ready : collectorReady.Reachable .full := (reachable_new .full true).runScript obeys
  have moving : movingOnWithinWakeup.Reachable .full :=
    (ready.next (.ask (s := .run none) (List.isEmpty_iff.1 idle) trivial)).settle 12
  have ends := runs_terminate moving
  exact ⟨runs_terminate ready, ends, ends.returns _ _ (List.take_append_drop 2 _).symm,
    by decide +kernel⟩

end MessageBus.Executor
