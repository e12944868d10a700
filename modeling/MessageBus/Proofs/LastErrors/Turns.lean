import MessageBus.Proofs.Keepsakes
import MessageBus.Proofs.LastErrors.Marks

/-!
# How a task that goes on leaves the last error

A task that goes on is silent, sets the slot, is refused something, or sees its stream end
(`Executor.Turned`). A refusal wakes nobody, so the frame that tells of it is right below those that
end the access.
-/

namespace MessageBus

namespace Executor

variable {x y : Executor} {b t : Nat} {w : Waker} {task : Task}

/-- What a task that goes on leaves in the slot, and what it is told next. -/
inductive Turned (x : Executor) (w : Waker) (task : Task) (y : Executor) : Prop where
  | silent (silent : x.Silent y)
      (other : ∀ i, task.current? = some i → ∀ code, i.deed ≠ .act (.setLastError code))
      (streams : task.looksAtStream = true → y.isStreaming w.task = x.isStreaming w.task)
  | sets {b code} (current : task.current? = some ⟨b, .act (.setLastError code)⟩)
      (slot : y.lastError = code) (tells : x.TellsNoMore y)
  | refused {i e b after} (current : task.current? = some i) (mayBe : i.deed.MayBeRefused e)
      (slot : y.lastError = if i.deed.isRecorded then e.code else x.lastError)
      (stack : y.stack = .release b :: .wake [] :: .tell after ::
        .complete (.task w) (.refused e) :: x.stack)
      (same : (y.tasks[w.task]?).bind (·.current?) = some i)
  | ended (looks : task.looksAtStream = true) (was : x.isStreaming w.task = true)
      (past : y.isStreaming w.task = false) (slot : y.lastError = .noSuchChannel)
      (tells : x.TellsNoMore y)

variable {i : Instruction} {e : BusError}

theorem looksAtStream_eq_false (current : task.current? = some i)
    (other : i.deed ≠ .next ∧ i.deed ≠ .tryNext ∧ i.deed ≠ .collect) :
    task.looksAtStream = false := by
  obtain ⟨b, deed⟩ := i
  rw [Task.looksAtStream, current]
  cases deed with
  | next => exact absurd rfl other.1
  | tryNext => exact absurd rfl other.2.1
  | collect => exact absurd rfl other.2.2
  | _ => rfl

/-- A task that is silent in a deed that is about no stream and does not set the slot. -/
theorem turned_of_silent (silent : x.Silent y) (current : task.current? = some i)
    (other : ∀ code, i.deed ≠ .act (.setLastError code))
    (other' : i.deed ≠ .next ∧ i.deed ≠ .tryNext ∧ i.deed ≠ .collect) : x.Turned w task y := by
  refine .silent silent (fun i' current' => ?_) fun looks => ?_
  · cases current.symm.trans current'
    exact other
  · rw [looksAtStream_eq_false current other'] at looks
    cases looks

/-- Whoever may be refused looks at no stream and does not set the slot. -/
theorem Deed.MayBeRefused.other {deed : Deed} (mayBe : deed.MayBeRefused e) :
    (∀ code, deed ≠ .act (.setLastError code)) ∧ deed ≠ .next ∧ deed ≠ .tryNext ∧
      deed ≠ .collect := by
  refine ⟨fun code same => ?_, fun same => ?_, fun same => ?_, fun same => ?_⟩ <;>
    subst same <;> exact mayBe

/-- What a task that goes on comes to with an access is read off what comes of the access. -/
theorem turned_access {α : Type}
    {f : Registry Waker → Except Fault (Outcome (Registry Waker) Waker α)}
    {next : α → Executor → Executor} (broken : ∀ fault, x.Turned w task (x.fail fault))
    (entered : ∀ (bus : SharedBus) (o : Outcome (Registry Waker) Waker α) (told : Executor),
      f bus.registry = .ok o → x.Entering b o.state told →
        x.Turned w task
          ((next o.answer told).push [.release b, .wake o.woken, .tell o.afterwards])) :
    x.Turned w task (x.access b f next) := by
  have accessed := x.access_accessed b f next
  generalize x.access b f next = y at accessed ⊢
  cases accessed with
  | broken fault => exact broken fault
  | entered _ _ ran entering => exact entered _ _ _ ran entering

/-- Whoever is refused something in an access is told so right below the frames that end it. -/
theorem Entering.turned_refused {r : Registry Waker} {told z : Executor} {after : List Note}
    (entering : x.Entering b r told) (current : task.current? = some i)
    (mayBe : i.deed.MayBeRefused e)
    (slot : z.lastError = if i.deed.isRecorded then e.code else told.lastError)
    (stack : z.stack = .complete (.task w) (.refused e) :: told.stack)
    (same : (z.tasks[w.task]?).bind (·.current?) = some i) :
    x.Turned w task (z.push [.release b, .wake [], .tell after]) := by
  have stack : (z.push [.release b, .wake [], .tell after]).stack = .release b :: .wake [] ::
      .tell after :: .complete (.task w) (.refused e) :: x.stack := by
    rw [← entering.stack]
    exact congrArg ([Frame.release b, .wake [], .tell after] ++ ·) stack
  rw [entering.slot] at slot
  exact .refused current mayBe slot stack same

/-- A task that looks at a request fails for want of a channel only, and that is recorded unless its
deed is not. -/
theorem turned_look {recorded : Bool}
    {f : Registry Waker → Except Fault (Outcome (Registry Waker) Waker Turn)}
    (found : x.tasks[w.task]? = some task) (current : task.current? = some i)
    (records : i.deed.isRecorded = recorded) (mayBe : i.deed.MayBeRefused .noSuchChannel)
    (failed : ∀ r o e, f r = .ok o → o.answer = .finished (.error e) →
      e = .noSuchChannel ∧ o.DoesNothing r) :
    x.Turned w task (x.access b f (takeTurn w b recorded)) := by
  obtain ⟨other, other'⟩ := Deed.MayBeRefused.other mayBe
  have silently {y : Executor} (silent : x.Silent y) : x.Turned w task y :=
    turned_of_silent silent current other other'
  refine turned_access (fun fault => silently (silent_fail x fault)) ?_
  intro bus o told ran entering
  obtain ⟨-, tasks, stack⟩ := does_takeTurn w b recorded o.answer told
  cases turn : o.answer with
  | finished result =>
    rw [turn] at stack tasks
    cases result with
    | ok v => exact silently (entering.silent (by cases recorded <;> rfl) stack rfl)
    | error e =>
      obtain ⟨rfl, -, nobody⟩ := failed _ o e ran turn
      rw [nobody]
      refine entering.turned_refused current mayBe ?_ stack ?_
      · rw [records]
        cases recorded <;> rfl
      · rw [tasks, entering.tasks, List.getElem?_modify_eq, found]
        exact current
  | parked _ _ | waiting | again _ =>
    rw [turn] at stack
    exact silently (entering.silent rfl stack rfl)

theorem isStreaming_of_tasks (tasks : y.tasks = x.tasks) (t : Nat) :
    y.isStreaming t = x.isStreaming t := by rw [isStreaming, isStreaming, tasks]

theorem isStreaming_of_found (found : x.tasks[t]? = some task) :
    x.isStreaming t = task.stream.any (·.id.isSome) := by
  rw [isStreaming, found]
  rfl

/-- A task that looks for the next item of a stream whose channel is known. Only if that is gone the
slot is written to, and the stream ends. -/
theorem turned_streamLook {s : Stream} {id : ChannelId}
    {f : Registry Waker → Except Fault (Outcome (Registry Waker) Waker Turn)}
    (found : x.tasks[w.task]? = some task)
    (other : ∀ i, task.current? = some i → ∀ code, i.deed ≠ .act (.setLastError code))
    (looks : task.looksAtStream = true) (stream : task.stream = some s) (known : s.id = some id)
    (same : ∀ r, f r = (Request.recv ⟨s.handle, id⟩).look r s.place w) :
    x.Turned w task (x.access s.bus f (takeStreamTurn w s (task.ifPending w))) := by
  have known' : s.id.isSome = true := by rw [known]; rfl
  have stream' : task.stream.any (·.id.isSome) = true := by
    rw [stream]
    exact known'
  have was : x.isStreaming w.task = true := (isStreaming_of_found found).trans stream'
  have pending : (task.ifPending w).isRefusal = false := by
    rw [Task.ifPending]
    split <;> rfl
  refine turned_access (fun fault => .silent (silent_fail x fault) other fun _ => rfl) ?_
  intro bus o told ran entering
  obtain ⟨-, tasks, stack⟩ := does_takeStreamTurn w s (task.ifPending w) o.answer told
  rw [entering.tasks] at tasks
  have after : (takeStreamTurn w s (task.ifPending w) o.answer told).isStreaming w.task =
      (o.answer.leavesStream s task).stream.any (·.id.isSome) := by
    refine isStreaming_of_found ?_
    rw [tasks, List.getElem?_modify_eq, found]
    rfl
  have granted : (o.answer.streamFrame w (task.ifPending w)).isRefusal = false := by
    rcases o.answer with ⟨_ | _⟩ | _ | _ | _ <;>
      first
      | exact pending
      | rfl
  have goesOn (slot : (takeStreamTurn w s (task.ifPending w) o.answer told).lastError =
      told.lastError) (still : (o.answer.leavesStream s task).stream.any (·.id.isSome)) :
      x.Turned w task ((takeStreamTurn w s (task.ifPending w) o.answer told).push
        [.release s.bus, .wake o.woken, .tell o.afterwards]) :=
    .silent (entering.silent slot stack granted) other fun _ => after.trans (still.trans was.symm)
  cases turn : o.answer with
  | finished result =>
    rw [turn] at goesOn after stack granted
    cases result with
    | ok v => exact goesOn rfl known'
    | error e =>
      obtain ⟨rfl, -⟩ := Request.look_failed ((same bus.registry).symm.trans ran) turn
      exact .ended looks was after rfl (entering.tellsNoMore stack granted)
  | parked _ _ =>
    rw [turn] at goesOn
    exact goesOn rfl known'
  | waiting | again _ =>
    rw [turn] at goesOn
    exact goesOn rfl stream'

/-- A task that looks for the next item of its stream. -/
theorem turned_pollStream (found : x.tasks[w.task]? = some task)
    (other : ∀ i, task.current? = some i → ∀ code, i.deed ≠ .act (.setLastError code))
    (looks : task.looksAtStream = true) : x.Turned w task (x.pollStream w task) := by
  have silently {y : Executor} (silent : x.Silent y) (tasks : y.tasks = x.tasks) :
      x.Turned w task y := .silent silent other fun _ => isStreaming_of_tasks tasks _
  cases stream : task.stream with
  | none =>
    rw [pollStream]
    simp only [stream]
    exact silently (silent_of_one _ rfl rfl rfl) rfl
  | some s =>
    rw [pollStream]
    simp only [stream]
    cases known : s.id with
    | none => exact silently (silent_of_one _ rfl rfl rfl) rfl
    | some id =>
      cases place : s.place with
      | none => exact turned_streamLook found other looks stream known fun r => by rw [place]; rfl
      | some p => exact turned_streamLook found other looks stream known fun r => by rw [place]; rfl

/-- A task that carries out an operation. -/
theorem turned_operate {op : Operation} (found : x.tasks[w.task]? = some task)
    (current : task.current? = some ⟨b, .act (.operate op)⟩) :
    x.Turned w task (x.start w task ⟨b, .act (.operate op)⟩) := by
  let next (reply : Reply) (x : Executor) := (x.record reply).push [.complete (.task w) reply]
  show x.Turned w task (x.access b op.apply next)
  have silently {y : Executor} (silent : x.Silent y) : x.Turned w task y :=
    turned_of_silent silent current (by simp) (by simp)
  refine turned_access (fun fault => silently (silent_fail x fault)) ?_
  intro bus o told ran entering
  by_cases refused : ∃ e, o.answer = .refused e
  · obtain ⟨e, refused⟩ := refused
    rw [refused, (Operation.apply_refused ran refused).woken]
    refine entering.turned_refused current (Operation.mayBeRefused ran refused) rfl rfl ?_
    show (told.tasks[w.task]?).bind _ = _
    rw [entering.tasks, found]
    exact current
  · obtain ⟨slot, granted⟩ := Reply.slot_of_granted (fun e same => refused ⟨e, same⟩)
      told.lastError (.task w)
    exact silently (entering.silent slot rfl granted)

/-- A task that resolves a handle. -/
theorem turned_resolve {h : Handle} (found : x.tasks[w.task]? = some task)
    (current : task.current? = some ⟨b, .resolve h⟩) :
    x.Turned w task (x.start w task ⟨b, .resolve h⟩) := by
  have silently {y : Executor} (silent : x.Silent y) : x.Turned w task y :=
    turned_of_silent silent current (by simp) (by simp)
  rw [start]
  refine turned_access (fun fault => silently (silent_fail x fault)) ?_
  intro bus o told ran entering
  cases ran
  cases answer : bus.registry.resolve h with
  | error e =>
    have missing : e = .noSuchChannel := Call.resolve_failed
      (show (Call.recv h).resolve bus.registry = .error e by rw [Call.resolve, answer]; rfl)
    refine entering.turned_refused current missing rfl rfl ?_
    show (told.tasks[w.task]?).bind _ = _
    rw [entering.tasks, found]
    exact current
  | ok a => exact silently (entering.silent rfl rfl rfl)

/-- A task that begins an instruction. -/
theorem turned_start (found : x.tasks[w.task]? = some task) (current : task.current? = some i) :
    x.Turned w task (x.start w task i) := by
  obtain ⟨b, deed⟩ := i
  have silently {y : Executor} (silent : x.Silent y)
      (other : ∀ code, deed ≠ .act (.setLastError code))
      (other' : deed ≠ .next ∧ deed ≠ .tryNext ∧ deed ≠ .collect) : x.Turned w task y :=
    turned_of_silent silent current other other'
  have polls (looks : deed = .next ∨ deed = .tryNext ∨ deed = .collect) :
      x.Turned w task (x.pollStream w task) := by
    refine turned_pollStream found (fun i' current' code => ?_) ?_
    · cases current.symm.trans current'
      rcases looks with rfl | rfl | rfl <;> simp
    · rw [Task.looksAtStream, current]
      rcases looks with rfl | rfl | rfl <;> rfl
  cases deed with
  | act action =>
    cases action with
    | operate op => exact turned_operate found current
    | setLastError code =>
      have next : (x.act b (.task w) (.setLastError code)).stack =
          [.complete (.task w) (.plain .nothing)] ++ x.stack := rfl
      exact .sets current rfl (tellsNoMore_of_stack next (List.forall_mem_singleton.2 rfl))
    | drop t =>
      exact silently (silent_act x b (.task w) (a := .drop t) (by simp) (by simp)) (by simp)
        (by simp)
    | describe | describeInUse | dump | lastError =>
      exact silently (silent_of_one _ rfl rfl rfl) (by simp) (by simp)
  | call c =>
    exact turned_look found current rfl rfl fun r o e ran failed => Call.start_failed ran failed
  | yield =>
    exact silently (silent_of_stack [_, _] rfl rfl (by simp [Frame.isRefusal])) (by simp) (by simp)
  | stream h =>
    refine silently ?_ (by simp) (by simp)
    rw [start]
    exact silent_access fun _ _ => silent_of_one _ rfl rfl rfl
  | next => exact polls (.inl rfl)
  | tryNext => exact polls (.inr (.inl rfl))
  | collect => exact polls (.inr (.inr rfl))
  | hasEnded | describeStream =>
    refine silently ?_ (by simp) (by simp)
    rw [start]
    cases task.stream <;> exact silent_of_one _ rfl rfl rfl
  | dropStream => exact silently (silent_replaceStream x _ _ rfl) (by simp) (by simp)
  | resolve h => exact turned_resolve found current
  | recvFrom h =>
    rw [start]
    cases remembered : task.remembered with
    | none => exact silently (silent_of_one _ rfl rfl rfl) (by simp) (by simp)
    | some id =>
      exact turned_look found current rfl rfl fun r o e ran failed =>
        Request.look_failed (show (Request.recv ⟨h, id⟩).look r none w = .ok o from ran) failed
  | wait h side =>
    refine silently ?_ (by simp) (by simp)
    rw [start]
    cases task.remembered with
    | none => exact silent_of_one _ rfl rfl rfl
    | some id =>
      refine silent_access fun place y => ?_
      cases place with
      | none => exact silent_of_one _ rfl rfl rfl
      | some p => exact silent_of_stack [_, _] rfl rfl (by simp [Frame.isRefusal])

/-- A task that goes on. -/
theorem turned_proceed (found : x.tasks[w.task]? = some task) (fits : task.Fits) :
    x.Turned w task (x.proceed w task) := by
  rw [proceed]
  rcases fits with fresh | ⟨i, current, isOf⟩
  · simp only [fresh]
    cases current : task.current? with
    | none =>
      refine .silent (silent_replaceStream x _ _ rfl) (fun i current' => ?_) fun looks => ?_
      · cases current.symm.trans current'
      · rw [Task.looksAtStream, current] at looks
        cases looks
    | some i => exact turned_start found current
  · obtain ⟨b, deed⟩ := i
    cases progress : task.progress with
    | fresh =>
      simp only [current]
      exact turned_start found current
    | calling bus q prior recorded =>
      rw [progress] at isOf
      have looks (prior : Option Place) (r : Registry Waker)
          (o : Outcome (Registry Waker) Waker Turn)
          (e : BusError) (ran : q.look r prior w = .ok o)
          (failed : o.answer = .finished (.error e)) : e = .noSuchChannel ∧ o.DoesNothing r :=
        Request.look_failed ran failed
      have mayBe : deed.isRecorded = recorded ∧ deed.MayBeRefused .noSuchChannel := by
        cases recorded
        · obtain ⟨h, rfl⟩ := isOf
          exact ⟨rfl, rfl⟩
        · obtain ⟨c, rfl⟩ := isOf
          exact ⟨rfl, rfl⟩
      cases prior with
      | none => exact turned_look found current mayBe.1 mayBe.2 (looks none)
      | some p => exact turned_look found current mayBe.1 mayBe.2 (looks (some p))
    | yielded =>
      rw [progress] at isOf
      cases isOf
      exact turned_of_silent (silent_of_one _ rfl rfl rfl) current (by simp) (by simp)
    | collecting items =>
      rw [progress] at isOf
      cases isOf
      refine turned_pollStream found (fun i' current' => ?_) (by rw [Task.looksAtStream, current])
      cases current.symm.trans current'
      simp
    | waiting bus p before after =>
      rw [progress] at isOf
      obtain ⟨h, side, rfl⟩ := isOf
      refine turned_of_silent (silent_access fun standing y => ?_) current (by simp) (by simp)
      cases standing with
      | queued => exact silent_of_stack [_, _] rfl rfl (by simp [Frame.isRefusal])
      | called | gone => exact silent_of_one _ rfl rfl rfl

end Executor

end MessageBus
