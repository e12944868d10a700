import MessageBus.Proofs.Deferred
import MessageBus.Proofs.Faults
import MessageBus.Proofs.Keepsakes
import MessageBus.Proofs.Stories
import MessageBus.Proofs.Streams

/-!
# Who asks is answered

What an access comes to is known in the step that enters the bus, but told later: the wakers are
called first, and whoever is woken may go on at once. Meanwhile the frame that goes on with the turn
lies below the top of the stack, and its task is left as it is (`Sound.kept_below`). It comes to the
top again since whatever lies above it comes to an end (`Reachable.comes_up`).

So every reply is told to the instruction for which it was made (`Executor.IsTold`), and what a poll
of a stream comes to is told to the instruction that waits for an item (`Executor.Hears`). Whoever
asks for an operation from outside is answered its result, since nothing that the wakeups set off
answers anything (`Reachable.answer_carryOut`).
-/

namespace MessageBus.Executor

variable {u : Usage} {x y : Executor} {f g : Frame} {t i : Nat} {task : Task} {w : Waker}
  {above rest : List Frame} {reply : Reply} {s : Stream} {item : Option Message}

/-! ### Turns that have to wait -/

/-- While a frame of its turn lies below the top of the stack, a task without a call that waits is
left as it is. -/
theorem Sound.kept_below (sound : x.Sound u) (underway : x.Underway) (stack : x.stack = f :: rest)
    (later : g ∈ rest) (own : g.turn? = some t) (found : x.tasks[t]? = some task)
    (settled : task.callPlace = none) : x.step.tasks[t]? = some task := by
  have running : task.life = .running :=
    sound.life_of_turn (stack ▸ List.mem_cons_of_mem _ later) own found
  -- Of a turn, only one frame is on the stack beside the one that leaves it.
  have other : f.turn? ≠ some t := by
    intro top
    obtain ⟨_, below, rfl, turn⟩ := sound.inTurn stack top
    rcases List.mem_cons.1 later with rfl | deeper
    · cases own
    · exact turn.once (turn.below.leave_of_turn deeper own)
  have idle (idle : task.life = .idle) : False := by cases running.symm.trans idle
  suffices kept : False ∨ ∃ task', x.step.tasks[t]? = some task' ∧ task' = task by
    obtain ⟨_, found', rfl⟩ := kept.resolve_left id
    exact found'
  refine sound.kept_of_changes found rfl (fun f' rest' change frames stack' quiet => ?_)
    fun f' rest' b e o change frames stack' _ sequel => .inr ?_
  · cases stack.symm.trans stack'
    cases quiet with
    | passes _ => rfl
    | replies _ _ => rfl
    | begins found' rests =>
      cases found.symm.trans found'
      exact (idle rests).elim
    | drops _ _ _ found' rests =>
      cases found.symm.trans found'
      exact (idle rests).elim
    | breaksOff found' _ => exact absurd running (sound.life_of_leave stack found)
    | observes found' waiting =>
      cases found.symm.trans found'
      rw [Task.callPlace, waiting] at settled
      cases settled
    | replaces replaces _ => exact absurd replaces.top_eq other
    | _ => exact absurd rfl other
  · cases stack.symm.trans stack'
    obtain ⟨rfl, -, -⟩ := sequel.top_eq.resolve_left other
    have ended := underway.vacates t (stack ▸ List.mem_cons_self) task found
    cases running.symm.trans ended

/-- Whatever lies above a frame of a turn is done after finitely many steps, and until then its task
is left as it is. -/
theorem Reachable.comes_up (reachable : x.Reachable u) (stack : x.stack = above ++ g :: rest)
    (own : g.turn? = some t) (found : x.tasks[t]? = some task) (settled : task.callPlace = none) :
    ∃ n, (Executor.settle n x).stack = g :: rest ∧ (Executor.settle n x).tasks[t]? = some task := by
  obtain ⟨n, ⟨back, busy⟩, -⟩ := exists_return reachable stack
  have kept (m : Nat) (le : m ≤ n) : (Executor.settle m x).tasks[t]? = some task := by
    induction m with
    | zero => exact found
    | succ m ih =>
      obtain ⟨f, frames, stack'⟩ := busy m le
      have reachable' := reachable.settle m
      rw [settle_add m 1, settle_of_stack_cons stack']
      exact reachable'.sound.kept_below reachable'.underway stack'
        (List.mem_append_right _ List.mem_cons_self) own (ih (Nat.le_of_succ_le le)) settled
  exact ⟨n, back, kept n (Nat.le_refl n)⟩

/-! ### Replies -/

/-- After some steps a task is told this reply to its instruction of this index. -/
def IsTold (x : Executor) (t i : Nat) (reply : Reply) : Prop :=
  ∃ n log, (settle n x).log = .completed t i reply :: log

theorem IsTold.of_settle {n : Nat} (told : (settle n x).IsTold t i reply) : x.IsTold t i reply := by
  obtain ⟨m, log, told⟩ := told
  exact ⟨n + m, log, settle_add n m x ▸ told⟩

theorem IsTold.of_step (told : x.step.IsTold t i reply) (stack : x.stack = f :: rest) :
    x.IsTold t i reply := by
  obtain ⟨m, log, told⟩ := told
  exact ⟨m + 1, log, settle_of_stack_cons stack m ▸ told⟩

theorem isTold_of_complete (stack : x.stack = .complete (.task w) reply :: rest)
    (found : x.tasks[w.task]? = some task) : x.IsTold w.task task.position reply := by
  obtain ⟨log, told⟩ := (endsIn_of_complete stack found).completed
  exact ⟨1, log, told⟩

/-- A reply on the stack is told to its task. -/
theorem Reachable.isTold (reachable : x.Reachable u)
    (stack : x.stack = above ++ .complete (.task w) reply :: rest)
    (found : x.tasks[w.task]? = some task) (settled : task.callPlace = none) :
    x.IsTold w.task task.position reply := by
  obtain ⟨n, stack', found'⟩ := reachable.comes_up stack rfl found settled
  exact (isTold_of_complete stack' found').of_settle

/-! ### Items of a stream -/

/-- What the instruction that waits for an item makes of a poll. -/
inductive Hears (x : Executor) (w : Waker) (task : Task) : Yield → Prop where
  /-- It is told the item. -/
  | item {b m} (current : task.current? = some ⟨b, .next⟩ ∨ task.current? = some ⟨b, .tryNext⟩)
      (told : x.IsTold w.task task.position (.item (some m))) : Hears x w task (.item m)
  /-- It collects the item, and looks for the next one. -/
  | collects {b m n after rest} (current : task.current? = some ⟨b, .collect⟩)
      (stack : (settle n x).stack = .proceed w :: rest)
      (found : (settle n x).tasks[w.task]? = some after) (position : after.position = task.position)
      (progress : after.progress = .collecting (task.progress.items ++ [m])) :
    Hears x w task (.item m)
  /-- It is told that there is nothing more to come. -/
  | ended {b} (current : task.current? = some ⟨b, .next⟩ ∨ task.current? = some ⟨b, .tryNext⟩)
      (told : x.IsTold w.task task.position (.item none)) : Hears x w task .ended
  /-- It is told what it has collected. -/
  | collected {b} (current : task.current? = some ⟨b, .collect⟩)
      (told : x.IsTold w.task task.position (.plain (.messages task.progress.items))) :
    Hears x w task .ended
  /-- It is told that there is nothing yet. -/
  | notYet {b} (current : task.current? = some ⟨b, .tryNext⟩)
      (told : x.IsTold w.task task.position .notYet) : Hears x w task .pending
  /-- Its task is suspended. -/
  | waits {b n log}
      (current : task.current? = some ⟨b, .next⟩ ∨ task.current? = some ⟨b, .collect⟩)
      (suspended : (settle n x).log = .pending w.task :: log) : Hears x w task .pending

theorem Hears.of_settle {n : Nat} {yield : Yield} (hears : (settle n x).Hears w task yield) :
    x.Hears w task yield := by
  cases hears with
  | item current told => exact .item current told.of_settle
  | collects current stack found position progress =>
    rw [← settle_add] at stack found
    exact .collects current stack found position progress
  | ended current told => exact .ended current told.of_settle
  | collected current told => exact .collected current told.of_settle
  | notYet current told => exact .notYet current told.of_settle
  | waits current suspended =>
    rw [← settle_add] at suspended
    exact .waits current suspended

/-- A task that is at its stream looks for the next item, or for all of them. -/
theorem exists_current_of_atStream (fits : task.Fits) (atStream : task.IsAtStream) :
    ∃ b, task.current? = some ⟨b, .next⟩ ∨ task.current? = some ⟨b, .tryNext⟩ ∨
      task.current? = some ⟨b, .collect⟩ := by
  rcases atStream with ⟨-, looks⟩ | ⟨items, collecting⟩
  · rw [Task.looksAtStream] at looks
    split at looks
    · exact ⟨_, .inl ‹_›⟩
    · exact ⟨_, .inr (.inl ‹_›)⟩
    · exact ⟨_, .inr (.inr ‹_›)⟩
    · cases looks
  · rcases fits with fresh | ⟨⟨b, deed⟩, current, isOf⟩
    · cases collecting.symm.trans fresh
    · rw [collecting] at isOf
      obtain rfl : deed = .collect := isOf
      exact ⟨b, .inr (.inr current)⟩

section

variable {b : Nat} (current : task.current? = some ⟨b, .next⟩ ∨
  task.current? = some ⟨b, .tryNext⟩ ∨ task.current? = some ⟨b, .collect⟩)

include current

/-- What a stream gave is taken by the instruction that waits for it. -/
theorem hears_of_receive (stack : x.stack = .receive w item :: rest)
    (found : x.tasks[w.task]? = some task) : x.Hears w task (item.elim .ended .item) := by
  let taken : Executor := { x with stack := rest }
  have found' : taken.tasks[w.task]? = some task := found
  have step : x.step = taken.receive w task item := by
    rw [step_of_stack_cons stack, perform, withTask_of_found found']
  have replies {reply : Reply}
      (step : x.step = { x with stack := .complete (.task w) reply :: rest }) :
      x.IsTold w.task task.position reply :=
    (isTold_of_complete (congrArg Executor.stack step) (step ▸ found)).of_step stack
  have single (current : task.current? = some ⟨b, .next⟩ ∨ task.current? = some ⟨b, .tryNext⟩) :
      x.Hears w task (item.elim .ended .item) := by
    have told : x.IsTold w.task task.position (.item item) := by
      refine replies (step.trans ?_)
      rcases current with current | current <;> rw [receive, current] <;> rfl
    cases item with
    | none => exact .ended current told
    | some m => exact .item current told
  rcases current with next | tryNext | collect
  · exact single (.inl next)
  · exact single (.inr tryNext)
  · rw [receive, collect] at step
    cases item with
    | none => exact .collected collect (replies step)
    | some m =>
      have kept : x.step =
          (taken.keep w.task (.collecting (task.progress.items ++ [m]))).push [.proceed w] := by
        rw [step]
        cases task.progress <;> rfl
      have once : settle 1 x = x.step := settle_of_stack_cons stack 0
      have after : x.step.tasks[w.task]? =
          some { task with progress := .collecting (task.progress.items ++ [m]) } := by
        rw [kept]
        show (x.tasks.modify w.task _)[w.task]? = _
        rw [List.getElem?_modify_eq, found]
        rfl
      rw [← once] at kept after
      exact .collects collect (congrArg Executor.stack kept) after rfl rfl

/-- A task that is suspended at its stream waits for an item, unless it only looked once. -/
theorem hears_of_ifPending (stack : x.stack = task.ifPending w :: rest)
    (found : x.tasks[w.task]? = some task) : x.Hears w task .pending := by
  have waits (waits : task.current? = some ⟨b, .next⟩ ∨ task.current? = some ⟨b, .collect⟩)
      (suspends : task.ifPending w = .suspend w.task) : x.Hears w task .pending := by
    have suspended : (settle 1 x).log = .pending w.task :: x.log := by
      rw [suspends] at stack
      rw [settle_of_stack_cons stack, step_of_stack_cons stack]
      rfl
    exact .waits waits suspended
  rcases current with next | tryNext | collect
  · exact waits (.inl next) (by rw [Task.ifPending, next])
  · rw [Task.ifPending, tryNext] at stack
    exact .notYet tryNext (isTold_of_complete stack found)
  · exact waits (.inr collect) (by rw [Task.ifPending, collect])

end

/-- What is heard by a task that has another stream by then is heard by the task. -/
theorem Hears.of_stream {stream : Option Stream} {yield : Yield}
    (hears : x.Hears w { task with stream } yield) : x.Hears w task yield := by
  cases hears with
  | item current told => exact .item current told
  | collects current stack found position progress =>
    exact .collects current stack found position progress
  | ended current told => exact .ended current told
  | collected current told => exact .collected current told
  | notYet current told => exact .notYet current told
  | waits current suspended => exact .waits current suspended

/-- Whatever a poll of a stream comes to, the instruction hears of it that waits for an item. -/
theorem Reachable.hears (reachable : x.Reachable u) (stack : x.stack = .proceed w :: rest)
    (found : x.tasks[w.task]? = some task) (atStream : task.IsAtStream)
    (stream : task.stream = some s) {yield : Yield} (yields : x.step.yield? = some yield) :
    x.Hears w task yield := by
  have arises := reachable.arises
  obtain ⟨b, current⟩ := exists_current_of_atStream (arises.allFit _ _ found) atStream
  have settled := Task.callPlace_of_atStream atStream
  have once (n : Nat) : Executor.settle (n + 1) x = Executor.settle n x.step :=
    settle_of_stack_cons stack n
  cases known : s.id with
  | none =>
    have step := step_of_ended stack found atStream stream known
    rw [step] at yields
    cases yields
    refine .of_settle (n := 1) ?_
    rw [once]
    exact hears_of_receive current (congrArg Executor.stack step) (step ▸ found)
  | some id =>
    have fitting := (arises.keepsTargets.faithful _ task found).fits_of_stream stream known
    obtain ⟨o, ran, inside, leads⟩ :=
      reachable.sound.leads_of_streamLook stack found atStream stream known
    have receipt := Request.receipt_of_look fitting ran
    have after : x.step.tasks[w.task]? = some (o.answer.leavesStream s task) := by
      rw [leads.tasks, List.getElem?_modify_eq, found]
      rfl
    have stack' := leads.stack
    generalize o.answer = turn at receipt stack' after
    have comes {f : Frame} {stream' : Option Stream} (own : f.turn? = some w.task)
        (frame : turn.streamFrame w (task.ifPending w) = f)
        (keeps : turn.leavesStream s task = { task with stream := stream' }) :
        (∀ yield', f.yield? = some yield' → yield = yield') ∧
          ∃ n, (Executor.settle n x).stack = f :: rest ∧
            (Executor.settle n x).tasks[w.task]? = some { task with stream := stream' } := by
      rw [frame] at stack'
      rw [keeps] at after
      refine ⟨fun yield' is => Option.some.inj (yields.symm.trans (yield?_of_access stack' is)), ?_⟩
      have stack' : x.step.stack = [_, _, _] ++ f :: rest := stack'
      obtain ⟨n, back, found'⟩ := (reachable.next .step).comes_up stack' own after settled
      exact ⟨n + 1, once n ▸ back, once n ▸ found'⟩
    have takes {item : Option Message} {stream' : Option Stream}
        (frame : turn.streamFrame w (task.ifPending w) = .receive w item)
        (keeps : turn.leavesStream s task = { task with stream := stream' }) :
        x.Hears w task yield := by
      obtain ⟨is, n, back, found'⟩ := comes rfl frame keeps
      have heard : (Executor.settle n x).Hears w { task with stream := stream' } _ :=
        hears_of_receive current back found'
      rw [is (item.elim .ended .item) (by cases item <;> rfl)]
      exact heard.of_stream.of_settle
    have pends (frame : turn.streamFrame w (task.ifPending w) = task.ifPending w)
        {stream' : Option Stream}
        (keeps : turn.leavesStream s task = { task with stream := stream' }) :
        x.Hears w task yield := by
      obtain ⟨is, n, back, found'⟩ := comes (Task.turn_ifPending task w) frame keeps
      have heard : (Executor.settle n x).Hears w { task with stream := stream' } _ :=
        hears_of_ifPending current back found'
      rw [is .pending (task.yield?_ifPending w)]
      exact heard.of_stream.of_settle
    cases receipt with
    | item _ _ => exact takes rfl rfl
    | parked _ _ => exact pends rfl rfl
    | waiting _ _ _ => exact pends rfl (Eq.refl { task with stream := task.stream })
    | gone _ => exact takes rfl rfl

/-! ### Whoever asks from outside -/

/-- Nothing is answered by frames that do not respond, nor by what they lead to. -/
theorem Reachable.answer_comes_up (reachable : x.Reachable u) (stack : x.stack = above ++ rest)
    (mute : ∀ g ∈ above, ¬g.Responds) :
    ∃ n, (Executor.settle n x).stack = rest ∧ (Executor.settle n x).answer = x.answer := by
  obtain ⟨n, ⟨back, busy⟩, -⟩ := exists_return reachable stack
  have kept (m : Nat) (le : m ≤ n) : ∃ frames, (Executor.settle m x).stack = frames ++ rest ∧
      (∀ g ∈ frames, ¬g.Responds) ∧ (Executor.settle m x).answer = x.answer := by
    induction m with
    | zero => exact ⟨above, stack, mute, rfl⟩
    | succ m ih =>
      obtain ⟨frames, stack', mute', answer⟩ := ih (Nat.le_of_succ_le le)
      obtain ⟨f, later, top⟩ := busy m le
      obtain rfl : frames = f :: later :=
        List.append_cancel_right (stack'.symm.trans (top.trans (List.cons_append).symm))
      obtain ⟨first, others⟩ := List.forall_mem_cons.1 mute'
      have sound := (reachable.settle m).sound
      obtain ⟨new, after, only⟩ := sound.not_responds_step top
      rw [settle_add m 1, settle_of_stack_cons top, Executor.settle]
      refine ⟨new ++ later, after.trans (List.append_assoc _ _ _).symm, ?_,
        (sound.answer_step_eq top first).trans answer⟩
      refine List.forall_mem_append.2 ⟨fun g member responds => ?_, others⟩
      obtain ⟨_, _, -, outer⟩ := only g member responds
      exact first outer
  obtain ⟨_, -, -, answer⟩ := kept n (Nat.le_refl n)
  exact ⟨n, back, answer⟩

/-- Whoever asks for an operation from outside is answered its result. -/
theorem Reachable.answer_carryOut {b : Nat} {op : Operation}
    {o : Outcome (Registry Waker) Waker Reply} (reachable : x.Reachable u) (idle : x.stack = [])
    (inside : b < x.buses.length) (ran : op.apply (x.registry b) = .ok o) :
    (x.carryOut (.act b (.operate op))).answer = some o.answer := by
  have sound := reachable.sound
  have lawful : (Step.act b (.operate op)).Lawful u x.buses.length := inside
  let cleared : Executor := { x with log := [], answer := none }
  have asked : (cleared.ask (.act b (.operate op))).Reachable u :=
    reachable.next (.ask idle lawful)
  have serving : cleared.IsServing := sound.isServing (sound.calm_of_idle idle)
  have silent : (cleared.ask (.act b (.operate op))).answer = none :=
    serving.answer_act inside .outside (.operate op)
  have carried (n : Nat)
      (done : (Executor.settle n (cleared.ask (.act b (.operate op)))).stack = []) :
      x.carryOut (.act b (.operate op)) =
        Executor.settle n (cleared.ask (.act b (.operate op))) :=
    reachable.carryOut_eq idle lawful done
  have access := cleared.ask_asked (.act b (.operate op))
  generalize cleared.ask (.act b (.operate op)) = y at asked silent carried access
  cases access with
  | answers none _ _ => cases none
  | fails failed _ _ _ =>
    exact absurd failed (sound.cleared.carried_of_free inside (sound.calm_of_idle idle b) _)
  | operates ran' _ leads =>
    cases ran.symm.trans ran'
    have stack : y.stack = [_, _, _] ++ [_] :=
      leads.stack.trans (congrArg (_ :: _ :: _ :: _ :: ·) idle)
    obtain ⟨n, back, answer⟩ := asked.answer_comes_up stack (by simp [Frame.Responds])
    have last : Executor.settle (n + 1) y =
        { Executor.settle n y with stack := [] }.respond o.answer := by
      rw [settle_add n 1, settle_of_stack_cons back, Executor.settle, step_of_stack_cons back]
      rfl
    rw [carried (n + 1) (by rw [last]; rfl), last, respond, answer, silent]
    rfl

end MessageBus.Executor
