import MessageBus.Proofs.Accesses
import MessageBus.Proofs.Deferred
import MessageBus.Proofs.Renewals
import MessageBus.Proofs.Streams

/-!
# Polls that come too early

A task that goes on before it was called looks at its place and is suspended again. Nothing becomes
of the bus but that the place has the waker of this poll (`Sound.step_of_queued`), and the task is
the same as before once its turn is over (`Sound.turn_of_queued`). A poll makes a call or a receive
of a stream go on from its place exactly if the place is not queued any more
(`Sound.holds_iff_queued`).
-/

namespace MessageBus

/-- What a task waits for: in a call or at its stream, for a request, with a place on a bus. The
frame is the one with which a poll leaves it waiting. -/
inductive Task.WaitsAt (task : Task) (w : Waker) : Nat → Place → Request → Frame → Prop where
  | call {b p q recorded} (progress : task.progress = .calling b q (some p) recorded) :
    WaitsAt task w b p q (.suspend w.task)
  | stream {s id p} (atStream : task.IsAtStream) (stream : task.stream = some s)
      (known : s.id = some id) (place : s.place = some p) :
    WaitsAt task w s.bus p (.recv ⟨s.handle, id⟩) (task.ifPending w)

theorem Task.WaitsAt.mem_places {task : Task} {w : Waker} {b : Nat} {p : Place} {q : Request}
    {next : Frame} (waits : task.WaitsAt w b p q next) : (b, p) ∈ task.places := by
  cases waits with
  | call progress =>
    rw [places, callPlace, progress]
    exact List.mem_append_left _ List.mem_cons_self
  | stream _ stream _ place =>
    rw [places, streamPlace, stream, Option.bind_some, place]
    exact List.mem_append_right _ List.mem_cons_self

namespace Executor

variable {α : Type} {u : Usage} {x y : Executor} {b : Nat} {p : Place} {q : Request} {w : Waker}
  {task : Task} {f next : Frame} {rest : List Frame}

theorem taskErrand?_of_waitsAt (waits : task.WaitsAt w b p q next) :
    x.taskErrand? w task = some (b, .look q (some p) w) := by
  cases waits with
  | call progress => rw [taskErrand?, progress]
  | stream atStream stream known place =>
    rw [taskErrand?_of_atStream atStream, stream, Option.bind_some, Stream.errand?, known, place]
    rfl

theorem errand?_of_waitsAt (stack : x.stack = .proceed w :: rest)
    (found : x.tasks[w.task]? = some task) (waits : task.WaitsAt w b p q next) :
    x.errand? = some (b, .look q (some p) w) := by
  rw [errand?, stack]
  simp only [found, Option.bind_some, taskErrand?_of_waitsAt waits]

/-- A task that waits goes on by looking at its request from its place. -/
theorem proceed_of_waitsAt (waits : task.WaitsAt w b p q next) (x : Executor) :
    ∃ after : Turn → Executor → Executor,
      x.proceed w task = x.access b (fun r => q.look r (some p) w) after ∧
        ∀ y : Executor, after .waiting y = y.push [next] := by
  cases waits with
  | @call _ _ q recorded progress =>
    refine ⟨takeTurn w b recorded, ?_, fun _ => rfl⟩
    rw [proceed, progress]
    rfl
  | @stream s id p atStream stream known place =>
    refine ⟨takeStreamTurn w s (task.ifPending w), ?_, fun _ => rfl⟩
    rw [proceed_of_atStream atStream, pollStream, stream]
    simp only [known, place]
    rfl

/-- A poll of a call or a stream whose place is still queued leaves a new waker there, and
suspends the task again or replies that there is nothing yet. -/
theorem Sound.step_of_queued (sound : x.Sound u) (stack : x.stack = .proceed w :: rest)
    (found : x.tasks[w.task]? = some task) (waits : task.WaitsAt w b p q next)
    (queued : (x.registry b).isQueued p = true) :
    x.step =
      { x with
        buses := x.buses.set b ⟨(x.registry b).renew p w, true⟩
        stack := .release b :: .wake [] :: .tell [] :: next :: rest } := by
  have inside := inside_of_taskErrand? (sound.tasks task (List.mem_of_getElem? found))
    (taskErrand?_of_waitsAt (x := x) waits)
  obtain ⟨bus, there, free, registry⟩ :=
    exists_bus inside (sound.calm stack (fun _ => Frame.noConfusion) b)
  have ran := Request.look_of_queued (sound.balanced b) queued q w
  let taken : Executor := { x with stack := rest }
  have found' : taken.tasks[w.task]? = some task := found
  obtain ⟨after, goes, waiting⟩ := proceed_of_waitsAt waits taken
  rw [step_of_stack_cons stack, perform, withTask_of_found found', goes,
    access_of_ran (x := taken) there free (registry ▸ ran), waiting,
    ← registry]
  rfl

/-- A poll makes a call or a stream go on from its place exactly if it is not queued there. -/
theorem Sound.holds_iff_queued (sound : x.Sound u) (stack : x.stack = .proceed w :: rest)
    (found : x.tasks[w.task]? = some task) (waits : task.WaitsAt w b p q next) :
    (b, p) ∈ x.step.placesOf w.task ↔ (x.registry b).isQueued p = true := by
  have holds : (b, p) ∈ x.placesOf w.task := by
    rw [placesOf_of_found found]
    exact waits.mem_places
  constructor
  · intro after
    have trades := sound.trades_step
    rw [errand?_of_waitsAt stack found waits] at trades
    cases trades with
    | @errand _ _ o t others carried here _ before after' _ own _ =>
      obtain rfl : w.task = t := own w rfl
      rw [after'.mem_iff, List.mem_append] at after
      rcases after with new | old
      · obtain ⟨p', member, same⟩ := List.mem_map.1 new
        cases same
        have queued := (Errand.rearranges (effect_of_carried carried)).queued member
        exact sound.step.2.queued sound (mem_held_iff.2 ⟨_, holds⟩) (here ▸ queued)
      · have distinct := sound.nodup_placesOf w.task
        rw [before.nodup_iff] at distinct
        exact absurd old (List.nodup_cons.1 distinct).1
  · intro queued
    rw [sound.step_of_queued stack found waits queued]
    exact holds

/-! ### A whole turn -/

theorem step_release (stack : x.stack = .release b :: rest) :
    x.step =
      { x with
        buses := x.buses.modify b ({ · with inUse := false })
        stack := rest } := by
  rw [step_of_stack_cons stack]
  rfl

theorem step_suspend {t : Nat} (stack : x.stack = .suspend t :: rest) :
    x.step =
      { x with
        tasks := x.tasks.modify t ({ · with life := .idle })
        log := .pending t :: x.log
        stack := rest } := by
  rw [step_of_stack_cons stack]
  rfl

theorem step_leave {t : Nat} (stack : x.stack = .leave t :: rest) (found : x.tasks[t]? = some task)
    (stopped : task.life ≠ .running) : x.step = { x with stack := rest } := by
  have found' : ({ x with stack := rest } : Executor).tasks[t]? = some task := found
  rw [step_of_stack_cons stack, perform, withTask_of_found found', if_neg stopped]

theorem step_poll (stack : x.stack = .poll w :: rest) (found : x.tasks[w.task]? = some task)
    (idle : task.life = .idle) :
    x.step =
      { x with
        tasks := x.tasks.modify w.task ({ · with life := .running })
        log := .polled w.task :: x.log
        stack := .proceed w :: .leave w.task :: rest } := by
  have found' : ({ x with stack := rest } : Executor).tasks[w.task]? = some task := found
  rw [step_of_stack_cons stack, perform, withTask_of_found found',
    if_pos (by rw [Task.isIdle, idle]; rfl)]
  rfl

/-- After an access that wakes nobody and has nothing to tell, the bus is free. -/
theorem settle_of_silent_access {r : Registry Waker}
    (stack : x.stack = .release b :: .wake [] :: .tell [] :: rest)
    (buses : x.buses = y.buses.set b ⟨r, true⟩) :
    settle 3 x = { x with buses := y.buses.set b ⟨r, false⟩, stack := rest } := by
  rw [settle_of_stack_cons stack, step_release stack, buses, modify_set]
  rfl

/-- A task that is suspended and goes on too early is suspended again. All that is left of the turn
is the new waker, and that it was seen. -/
theorem Sound.turn_of_queued (sound : x.Sound u) (stack : x.stack = .poll w :: rest)
    (found : x.tasks[w.task]? = some task) (idle : task.life = .idle)
    (waits : task.WaitsAt w b p q (.suspend w.task)) (queued : (x.registry b).isQueued p = true) :
    settle 7 x =
      { x with
        buses := x.buses.set b ⟨(x.registry b).renew p w, false⟩
        log := .pending w.task :: .polled w.task :: x.log
        stack := rest } := by
  let runs : Task := { task with life := .running }
  have begun : runs.WaitsAt w b p q (.suspend w.task) := by
    generalize same : Frame.suspend w.task = next at waits ⊢
    cases waits with
    | call progress => exact .call progress
    | stream atStream stream known place => exact .stream atStream stream known place
  have polled := step_poll stack found idle
  rw [modify_of_getElem? found] at polled
  obtain ⟨inside, same⟩ := List.getElem?_eq_some_iff.1 found
  have sound' : x.step.Sound u := sound.step.1
  rw [polled] at sound'
  have looked := sound'.step_of_queued rfl (List.getElem?_set_self inside) begun queued
  -- The task that was made to run is suspended, and so the same as before.
  have tasks : ((x.tasks.set w.task runs).modify w.task ({ · with life := .idle })) = x.tasks := by
    rw [modify_set]
    exact (congrArg (x.tasks.set w.task) (by rw [← idle])).trans
      (same ▸ List.set_getElem_self inside)
  let suspended : Executor :=
    { x with
      buses := x.buses.set b ⟨(x.registry b).renew p w, false⟩
      log := .pending w.task :: .polled w.task :: x.log
      stack := .leave w.task :: rest }
  have left : suspended.step = { suspended with stack := rest } :=
    step_leave (x := suspended) rfl found (by rw [idle]; exact nofun)
  rw [settle_of_stack_cons stack, polled, settle_of_stack_cons rfl, looked, settle_add 3 2,
    settle_of_silent_access rfl rfl, settle_of_stack_cons rfl, step_suspend rfl,
    settle_of_stack_cons rfl, tasks]
  exact left

end Executor

end MessageBus
